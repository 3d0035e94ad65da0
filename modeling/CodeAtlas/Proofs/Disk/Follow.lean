import CodeAtlas.Proofs.Disk.Legal

/-! # Where paths below a folder lead

No link is met on the way from a folder that a path leads to down to an entry below it. So a path
that goes on from the folder's own leads to that entry, and its text can be read. -/

namespace CodeAtlas.Disk

/-! ## Following names in two steps -/

theorem followNames_append (root : Entry) (out : List String → Bool)
    (deeper : List (List String) → List String → List String → Way) (pending : List (List String))
    (place a b : List String) :
    followNames root out deeper pending place (a ++ b) =
      let way := followNames root out deeper pending place a
      if way.ends then followNames root out deeper pending way.names b
      else ⟨false, way.names ++ b⟩ := by
  induction a generalizing place with
  | nil => simp [followNames]
  | cons name a ih =>
    simp only [List.cons_append, followNames]
    split
    · split
      · exact ih _
      · simp
    · split
      · next own target _ =>
        generalize (if Path.isAbsolute target.toList then [] else place) = start
        split
        · simp
        · split
          · exact ih _
          · simp
      · exact ih _

/-- Whether names lead from a root past no link, as far as they lead anywhere. -/
def Unlinked (root : Entry) (names : List String) : Prop :=
  ∀ front, front ≠ [] → front <+: names → ∀ own target, root.find? front ≠ some (.link own target)

theorem unlinked_nil (root : Entry) : Unlinked root [] :=
  fun _ hne hf => absurd (List.prefix_nil.mp hf) hne

theorem Unlinked.of_prefix {root : Entry} {names names' : List String} (h : Unlinked root names)
    (hp : names' <+: names) : Unlinked root names' :=
  fun front hne hf => h front hne (hf.trans hp)

theorem Unlinked.append {root : Entry} {names : List String} (h : Unlinked root names) {name : String}
    (hl : ∀ own target, root.find? (names ++ [name]) ≠ some (.link own target)) :
    Unlinked root (names ++ [name]) := by
  intro front hne hf
  rcases List.prefix_concat_iff.mp hf with rfl | hf
  · exact hl
  · exact h front hne hf

/-- What stands above something is a folder, so no link. -/
theorem unlinked_of_find? {root e : Entry} {names : List String} (hf : root.find? names = some e)
    (he : ∀ own target, e ≠ .link own target) : Unlinked root names := by
  rintro front _ ⟨rest, rfl⟩ own target hl
  cases rest with
  | nil =>
    rw [List.append_nil, hl] at hf
    exact he own target (Option.some.inj hf).symm
  | cons name rest =>
    obtain ⟨_, _, _, hfold⟩ := Entry.find?_folder hf
    rw [hl] at hfold
    cases hfold

/-- Names that lead past no link are followed as they stand. -/
theorem followNames_of_unlinked (root : Entry) (out : List String → Bool)
    (deeper : List (List String) → List String → List String → Way)
    (pending : List (List String)) (place : List String) {names : List String}
    (hu : ∀ n ∈ names, n ≠ "..") (hl : Unlinked root (place ++ names)) :
    followNames root out deeper pending place names = ⟨true, place ++ names⟩ := by
  induction names generalizing place with
  | nil => simp [followNames]
  | cons name names ih =>
    have hn : name ≠ ".." := hu name List.mem_cons_self
    have hnext := hl (place ++ [name]) (by simp) ⟨names, by simp⟩
    have hrest := ih (place ++ [name]) (fun n h => hu n (List.mem_cons_of_mem name h))
      (by simpa using hl)
    simp only [followNames, beq_iff_eq, hn, if_false]
    simpa using hrest

theorem followNames_of_find? (root : Entry) (out : List String → Bool)
    (deeper : List (List String) → List String → List String → Way)
    (pending : List (List String)) (place : List String) {names : List String} {e : Entry}
    (hu : ∀ n ∈ names, n ≠ "..") (hf : root.find? (place ++ names) = some e)
    (he : ∀ own target, e ≠ .link own target) :
    followNames root out deeper pending place names = ⟨true, place ++ names⟩ :=
  followNames_of_unlinked root out deeper pending place hu (unlinked_of_find? hf he)

/-- A way that ends has left all links behind it. -/
def Way.Free (root : Entry) (w : Way) : Prop := w.ends = true → Unlinked root w.names

theorem free_followNames (root : Entry) (out : List String → Bool)
    {deeper : List (List String) → List String → List String → Way}
    (hd : ∀ pending place names, Unlinked root place → (deeper pending place names).Free root)
    (pending : List (List String)) (place names : List String) (hp : Unlinked root place) :
    (followNames root out deeper pending place names).Free root := by
  induction names generalizing place with
  | nil => exact fun _ => hp
  | cons name names ih =>
    simp only [followNames]
    split
    · split
      · exact ih _ (hp.of_prefix (List.dropLast_prefix place))
      · exact fun hends => by cases hends
    · split
      · next own target _ =>
        have hstart : Unlinked root (if Path.isAbsolute target.toList then [] else place) := by
          split
          · exact unlinked_nil root
          · exact hp
        generalize (if Path.isAbsolute target.toList then [] else place) = start at hstart ⊢
        split
        · exact fun hends => by cases hends
        · split
          · next hends => exact ih _ (hd _ start (namesOf target) hstart hends)
          · exact fun hends => by cases hends
      · next hnext => exact ih _ (hp.append hnext)

theorem free_follow (root : Entry) (out : List String → Bool) (nesting : Nat) (pending : List (List String))
    (place names : List String) (hp : Unlinked root place) :
    (follow root out nesting pending place names).Free root := by
  induction nesting generalizing pending place names with
  | zero => exact free_followNames root out (fun _ _ _ _ hends => by cases hends) pending place names hp
  | succ nesting ih => exact free_followNames root out ih pending place names hp

theorem unlinked_followAll {root : Entry} {names front : List String}
    (h : followAll root names = ⟨true, front⟩) : Unlinked root front := by
  have hfree := free_follow root (fun _ => true) root.links [] [] names (unlinked_nil root)
  rw [show follow root (fun _ => true) root.links [] [] names = ⟨true, front⟩ from h] at hfree
  exact hfree rfl

/-- All names are followed in the same way from the root of a tree. -/
theorem follow_eq (root : Entry) (out : List String → Bool) (nesting : Nat) :
    ∃ deeper, ∀ names, follow root out nesting [] [] names = followNames root out deeper [] [] names := by
  cases nesting with
  | zero => exact ⟨_, fun _ => rfl⟩
  | succ nesting => exact ⟨_, fun _ => rfl⟩

theorem ne_up_of_arePlain {names : List String} (h : ArePlain names) : ∀ n ∈ names, n ≠ ".." := by
  rintro n hn rfl
  exact (h ".." hn).2 (by decide +kernel)

/-! ## Names on a way -/

/-- A way is made of parts of the paths that were followed; one that ends has no double dots. -/
structure Way.Sound (w : Way) : Prop where
  parts : ∀ n ∈ w.names, Path.IsPart n.toList
  settled : w.ends = true → ArePlain w.names

theorem Way.sound_of_broken {front rest : List String} (hf : ∀ n ∈ front, Path.IsPart n.toList)
    (hr : ∀ n ∈ rest, Path.IsPart n.toList) : (⟨false, front ++ rest⟩ : Way).Sound where
  parts n h := (List.mem_append.mp h).elim (hf n) (hr n)
  settled h := by cases h

theorem sound_followNames (root : Entry) (out : List String → Bool)
    {deeper : List (List String) → List String → List String → Way}
    (hd : ∀ pending place names, ArePlain place → (∀ n ∈ names, Path.IsPart n.toList) →
      (deeper pending place names).Sound)
    (pending : List (List String)) (place names : List String)
    (hp : ArePlain place) (hn : ∀ n ∈ names, Path.IsPart n.toList) :
    (followNames root out deeper pending place names).Sound := by
  induction names generalizing place with
  | nil => exact ⟨fun n h => (hp n h).1, fun _ => hp⟩
  | cons name names ih =>
    have hrest : ∀ n ∈ names, Path.IsPart n.toList := fun n h => hn n (List.mem_cons_of_mem name h)
    simp only [followNames]
    split
    · split
      · exact ih _ (fun n h => hp n (List.dropLast_subset place h)) hrest
      · exact Way.sound_of_broken (fun n h => (hp n h).1) hn
    · next hup =>
      have hnext : ArePlain (place ++ [name]) := by
        refine hp.append fun n h => ?_
        rw [List.mem_singleton.mp h]
        refine ⟨hn name List.mem_cons_self, fun hu => hup ?_⟩
        rw [beq_iff_eq, ← String.toList_inj, hu]
        decide +kernel
      split
      · next own target _ =>
        have hstart : ArePlain (if Path.isAbsolute target.toList then [] else place) := by
          split
          · intro n h
            cases h
          · exact hp
        generalize (if Path.isAbsolute target.toList then [] else place) = start at hstart ⊢
        have hway := hd ((place ++ [name]) :: pending) start (namesOf target) hstart
          fun n h => isPart_of_mem_namesOf h
        split
        · exact Way.sound_of_broken (fun n h => (hnext n h).1) hrest
        · split
          · next hends => exact ih _ (hway.settled hends) hrest
          · exact Way.sound_of_broken hway.parts hrest
      · exact ih _ hnext hrest

theorem sound_follow (root : Entry) (out : List String → Bool) (nesting : Nat) (pending : List (List String))
    (place names : List String) (hp : ArePlain place) (hn : ∀ n ∈ names, Path.IsPart n.toList) :
    (follow root out nesting pending place names).Sound := by
  induction nesting generalizing pending place names with
  | zero =>
    refine sound_followNames root out ?_ pending place names hp hn
    exact fun _ place names hp hn => Way.sound_of_broken (fun n h => (hp n h).1) hn
  | succ nesting ih => exact sound_followNames root out ih pending place names hp hn

theorem sound_followAll (root : Entry) (path : String) :
    (followAll root (namesOf path)).Sound :=
  sound_follow root _ root.links [] [] (namesOf path) (fun n h => by cases h)
    fun n h => isPart_of_mem_namesOf h

/-! ## True names -/

theorem trueNames_ok {root : Entry} {path : String} {names : List String}
    (h : trueNames root path = .ok names) :
    '\x00' ∉ path.toList ∧ names = settled (followAll root (namesOf path)).names := by
  unfold trueNames at h
  split at h
  · cases h
  · next hz =>
    dsimp only at h
    split at h
    · cases h
      exact ⟨by simpa using hz, rfl⟩
    · cases h

theorem arePlain_of_trueNames {root : Entry} {path : String} {names : List String}
    (h : trueNames root path = .ok names) : ArePlain names := by
  obtain ⟨_, rfl⟩ := trueNames_ok h
  exact arePlain_settled (sound_followAll root path).parts

/-! ## Places -/

/-- A way that ends where double dots lead out of some places only ends in the same place where they lead
out of all. -/
theorem followNames_of_ends {root : Entry} {out : List String → Bool}
    {deeper deeper' : List (List String) → List String → List String → Way}
    (hd : ∀ pending place names, (deeper pending place names).ends = true →
      deeper' pending place names = deeper pending place names)
    {pending : List (List String)} {place names : List String}
    (h : (followNames root out deeper pending place names).ends = true) :
    followNames root (fun _ => true) deeper' pending place names =
      followNames root out deeper pending place names := by
  induction names generalizing place with
  | nil => rfl
  | cons name names ih =>
    simp only [followNames] at h ⊢
    split at h
    · next hup =>
      split at h
      · next hout =>
        rw [if_pos hup, if_pos hup, if_pos hout]
        exact ih h
      · cases h
    · next hup =>
      rw [if_neg hup, if_neg hup]
      split at h
      · next own target _ =>
        generalize (if Path.isAbsolute target.toList then [] else place) = start at h ⊢
        split at h
        · cases h
        · next hpending =>
          rw [if_neg hpending, if_neg hpending]
          split at h
          · next hends =>
            rw [hd _ _ _ hends, if_pos hends, if_pos hends]
            exact ih h
          · cases h
      · exact ih h

theorem follow_of_ends {root : Entry} {out : List String → Bool} {nesting : Nat}
    {pending : List (List String)} {place names : List String}
    (h : (follow root out nesting pending place names).ends = true) :
    follow root (fun _ => true) nesting pending place names =
      follow root out nesting pending place names := by
  induction nesting generalizing pending place names with
  | zero => exact followNames_of_ends (fun _ _ _ hends => by cases hends) h
  | succ nesting ih => exact followNames_of_ends (fun _ _ _ hends => ih hends) h

theorem placeOf?_eq_some_iff {root : Entry} {path : String} {names : List String} :
    placeOf? root path = some names ↔ '\x00' ∉ path.toList ∧
      follow root (isFolderAt root) root.links [] [] (namesOf path) = ⟨true, names⟩ := by
  unfold placeOf?
  split
  · next hz => exact iff_of_false nofun fun h => h.1 (by simpa using hz)
  · next hz =>
    rw [and_iff_right (by simpa using hz)]
    rcases follow root (isFolderAt root) root.links [] [] (namesOf path) with ⟨_ | _, way⟩ <;> simp

/-- What a disk opens under a path is at the true names of the path. -/
theorem trueNames_of_placeOf? {root : Entry} {path : String} {names : List String}
    (h : placeOf? root path = some names) : trueNames root path = .ok names := by
  obtain ⟨hz, hway⟩ := placeOf?_eq_some_iff.mp h
  have hall : followAll root (namesOf path) = ⟨true, names⟩ := by
    rw [followAll, follow_of_ends (by rw [hway]), hway]
  have hplain : ArePlain names := by
    have hsound := (sound_followAll root path).settled
    rw [hall] at hsound
    exact hsound rfl
  rw [trueNames, if_neg (by simpa using hz), hall]
  simp [settled_of_arePlain hplain]

/-- A path that goes on behind another one past no link and without double dots leads on from where that
one leads. -/
theorem placeOf?_below {root : Entry} {path below : String} {names rest : List String} {e : Entry}
    (h : placeOf? root path = some names) (hz : '\x00' ∉ below.toList)
    (hb : namesOf below = namesOf path ++ rest) (hr : ArePlain rest)
    (hf : root.find? (names ++ rest) = some e) (he : ∀ own target, e ≠ .link own target) :
    placeOf? root below = some (names ++ rest) := by
  obtain ⟨_, hway⟩ := placeOf?_eq_some_iff.mp h
  obtain ⟨deeper, hd⟩ := follow_eq root (isFolderAt root) root.links
  refine placeOf?_eq_some_iff.mpr ⟨hz, ?_⟩
  rw [hd, hb, followNames_append, ← hd, hway]
  exact followNames_of_find? root _ deeper [] names (ne_up_of_arePlain hr) hf he

theorem placeOf?_pathOf {root : Entry} {names : List String} (hz : '\x00' ∉ (pathOf names).toList)
    (hp : ArePlain names) (hl : Unlinked root names) : placeOf? root (pathOf names) = some names := by
  obtain ⟨deeper, hd⟩ := follow_eq root (isFolderAt root) root.links
  refine placeOf?_eq_some_iff.mpr ⟨hz, ?_⟩
  rw [namesOf_pathOf hp, hd]
  exact followNames_of_unlinked root _ deeper [] [] (ne_up_of_arePlain hp) hl

/-! ## Content -/

theorem length_decode_le (bytes : List UInt8) : (Text.decode bytes).length ≤ bytes.length := by
  fun_induction Text.decode bytes with
  | case1 => simp
  | case2 b rest _ ih =>
    simp only [List.length_cons]
    omega
  | case3 b rest _ _ ih =>
    simp only [List.length_cons]
    omega
  | case4 b rest _ l _ read ih =>
    have hread : read.2.length ≤ rest.length := Text.length_follow_le ..
    simp only [List.length_cons]
    omega

theorem length_unifyBreaks_le (cs : List Char) : (unifyBreaks cs).length ≤ cs.length := by
  fun_induction unifyBreaks cs <;> simp only [List.length_nil, List.length_cons] <;> omega

/-- A text has no more characters than the file from which it was read has bytes. -/
theorem length_textOf_le (bytes : List UInt8) : (textOf bytes).toList.length ≤ bytes.length := by
  have h := Nat.le_trans (length_unifyBreaks_le _) (length_decode_le bytes)
  simpa [textOf] using h

namespace Disk

/-- The bytes of the file that a path leads to. -/
def bytes? (d : Disk) (path : String) : Option (List UInt8) := (d.target? path).bind Entry.bytes?

theorem readText?_eq (d : Disk) (path : String) :
    d.readText? path = if d.unread.contains path then none else (d.bytes? path).map textOf := by
  unfold readText? bytes?
  split
  · rfl
  · cases d.target? path with
    | none => rfl
    | some e => cases e <;> rfl

theorem target?_of_placeOf? {d : Disk} {path : String} {names : List String}
    (h : placeOf? d.root path = some names) : d.target? path = d.root.find? names := by
  rw [target?, h, Option.bind_some]

theorem exists_of_target? {d : Disk} {path : String} {e : Entry} (h : d.target? path = some e) :
    ∃ names, placeOf? d.root path = some names ∧ trueNames d.root path = .ok names ∧
      d.root.find? names = some e := by
  obtain ⟨names, hn, hf⟩ := Option.bind_eq_some_iff.mp h
  exact ⟨names, hn, trueNames_of_placeOf? hn, hf⟩

theorem every_of_target? {d : Disk} {check : Entry → Bool} (h : d.root.every check = true)
    {path : String} {e : Entry} (ht : d.target? path = some e) : e.every check = true := by
  obtain ⟨names, _, _, hf⟩ := exists_of_target? ht
  exact Entry.every_of_find? h hf

/-- A resolved path begins with a single slash. -/
theorem isRooted_resolve {d : Disk} {root path : String} (h : d.resolve root = .ok path) :
    Path.IsRooted path.toList := by
  unfold resolve at h
  cases hn : trueNames d.root root with
  | error e => simp [hn, Except.map] at h
  | ok names =>
    simp only [hn, Except.map, Except.ok.injEq] at h
    have hparts : ∀ s ∈ names.map String.toList, Path.IsPart s := by
      intro s hs
      obtain ⟨n, hm, rfl⟩ := List.mem_map.mp hs
      exact (arePlain_of_trueNames hn n hm).1
    rw [← h]
    simpa [pathOf] using (Path.isRooted_join hparts).dropMark

end Disk

end CodeAtlas.Disk
