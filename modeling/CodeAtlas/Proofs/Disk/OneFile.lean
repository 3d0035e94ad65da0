import CodeAtlas.Proofs.Disk.Follow

/-! # Disks that differ in one file

Two disks may have the same entries and refuse the same things, but for what is in one file, when it was
changed and whether it can be read. Every path then leads to the same place on both, and if that is not the
file, to the same text. -/

namespace CodeAtlas.Disk

/-! ## Trees -/

/-- Two trees that differ in the content and the time of the file to which some names lead. -/
inductive Entry.SameBut : List String → Entry → Entry → Prop
  | file (name : String) (bytes bytes' : List UInt8) (modified modified' : Int) :
      SameBut [] (.file name bytes modified) (.file name bytes' modified')
  | folder (own : String) (modified : Int) (front rest : List Entry) {names : List String}
      {e e' : Entry} : SameBut names e e' →
      SameBut (e.name :: names) (.folder own modified (front ++ e :: rest))
        (.folder own modified (front ++ e' :: rest))

namespace Entry.SameBut

variable {names : List String} {e e' : Entry}

theorem name (h : SameBut names e e') : e'.name = e.name := by
  cases h <;> rfl

theorem ne_link (h : SameBut names e e') (own target : String) :
    e ≠ .link own target ∧ e' ≠ .link own target := by
  cases h <;> exact ⟨nofun, nofun⟩

theorem isFolder (h : SameBut names e e') : e'.isFolder = e.isFolder := by
  cases h <;> rfl

/-- Above the file there are folders. -/
theorem bytes? (h : SameBut names e e') (hn : names ≠ []) : e.bytes? = none ∧ e'.bytes? = none := by
  cases h with
  | file => exact absurd rfl hn
  | folder => exact ⟨rfl, rfl⟩

/-- Names that do not lead to the file or to what is above it lead to the same entry in both trees. -/
theorem find?_cases (h : SameBut names e e') (way : List String) :
    e'.find? way = e.find? way ∨ ∃ rest f f', names = way ++ rest ∧ e.find? way = some f ∧
      e'.find? way = some f' ∧ SameBut rest f f' := by
  induction h generalizing way with
  | file name bytes bytes' modified modified' =>
    cases way with
    | nil => exact Or.inr ⟨[], _, _, rfl, rfl, rfl, .file ..⟩
    | cons n way => exact Or.inl rfl
  | folder own modified front rest hsame ih =>
    rename_i names e e'
    cases way with
    | nil => exact Or.inr ⟨_, _, _, rfl, rfl, rfl, .folder own modified front rest hsame⟩
    | cons n way =>
      simp only [find?_cons, children, entryOf?, List.find?_append, List.find?_cons, hsame.name]
      cases front.find? (·.name == n) with
      | some f => exact Or.inl rfl
      | none =>
        cases hn : e.name == n with
        | false => exact Or.inl rfl
        | true =>
          obtain hsame' | ⟨rest', f, f', hnames, hf, hf', hrest⟩ := ih way
          · exact Or.inl hsame'
          · rw [beq_iff_eq] at hn
            exact Or.inr ⟨rest', f, f', by rw [hn, hnames]; rfl, hf, hf', hrest⟩

/-- There are the same links in the same places. -/
theorem find?_eq_link_iff (h : SameBut names e e') (way : List String) (own target : String) :
    e'.find? way = some (.link own target) ↔ e.find? way = some (.link own target) := by
  obtain hsame | ⟨rest, f, f', _, hf, hf', hrest⟩ := h.find?_cases way
  · rw [hsame]
  · obtain ⟨hne, hne'⟩ := hrest.ne_link own target
    rw [hf, hf', Option.some.injEq, Option.some.injEq]
    exact iff_of_false hne' hne

theorem linksOf_append (front rest : List Entry) :
    links.linksOf (front ++ rest) = links.linksOf front + links.linksOf rest := by
  induction front with
  | nil => exact (Nat.zero_add _).symm
  | cons e front ih => rw [List.cons_append, links.linksOf, links.linksOf, ih, Nat.add_assoc]

theorem links (h : SameBut names e e') : e'.links = e.links := by
  induction h with
  | file => rfl
  | folder own modified front rest _ ih =>
    rw [Entry.links, Entry.links, linksOf_append, linksOf_append, links.linksOf, links.linksOf, ih]

end Entry.SameBut

/-! ## Paths -/

variable {root root' : Entry} {names : List String}

theorem followNames_congr (out : List String → Bool)
    (h : ∀ way own target,
      root'.find? way = some (.link own target) ↔ root.find? way = some (.link own target))
    (deeper : List (List String) → List String → List String → Way) (pending : List (List String))
    (place way : List String) :
    followNames root' out deeper pending place way = followNames root out deeper pending place way := by
  induction way generalizing place with
  | nil => rfl
  | cons name way ih =>
    simp only [followNames]
    split
    · split
      · exact ih _
      · rfl
    · split
      · next own target hlink =>
        rw [(h _ own target).mp hlink]
        simp only [ih]
      · next hno =>
        split
        · next own target hlink => exact absurd ((h _ own target).mpr hlink) (hno own target)
        · exact ih _

theorem follow_congr (out : List String → Bool)
    (h : ∀ way own target,
      root'.find? way = some (.link own target) ↔ root.find? way = some (.link own target))
    (nesting : Nat) : follow root' out nesting = follow root out nesting := by
  induction nesting with
  | zero =>
    funext pending place way
    exact followNames_congr out h _ pending place way
  | succ nesting ih =>
    funext pending place way
    rw [follow, follow, ih]
    exact followNames_congr out h _ pending place way

theorem Entry.SameBut.trueNames (h : root.SameBut names root') (path : String) :
    Disk.trueNames root' path = Disk.trueNames root path := by
  have hall : followAll root' = followAll root := by
    funext way
    rw [followAll, followAll, h.links, follow_congr _ h.find?_eq_link_iff]
  simp only [Disk.trueNames, hall]

/-- There are the same folders in the same places. -/
theorem Entry.SameBut.isFolderAt (h : root.SameBut names root') :
    Disk.isFolderAt root' = Disk.isFolderAt root := by
  funext place
  rw [Disk.isFolderAt, Disk.isFolderAt]
  obtain hsame | ⟨rest, f, f', _, hf, hf', hrest⟩ := h.find?_cases place
  · rw [hsame]
  · rw [hf, hf', Option.any_some, Option.any_some, hrest.isFolder]

theorem Entry.SameBut.placeOf? (h : root.SameBut names root') (path : String) :
    Disk.placeOf? root' path = Disk.placeOf? root path := by
  rw [Disk.placeOf?, Disk.placeOf?, h.isFolderAt, h.links, follow_congr _ h.find?_eq_link_iff]

/-! ## Disks -/

/-- Two disks that differ in what is in the file to which some names lead, in its time, and in whether its
content can be had. -/
structure Disk.SameBut (d : Disk) (names : List String) (d' : Disk) : Prop where
  root : d.root.SameBut names d'.root
  unlisted : d'.unlisted = d.unlisted
  unknown : d'.unknown = d.unknown
  unread : ∀ path, trueNames d.root path ≠ .ok names →
    d'.unread.contains path = d.unread.contains path

namespace Disk.SameBut

variable {d d' : Disk}

theorem resolve (h : d.SameBut names d') (path : String) : d'.resolve path = d.resolve path := by
  rw [Disk.resolve, h.root.trueNames, Disk.resolve]

/-- A path leads to the same entry, or to the file or something above it. -/
theorem target?_cases (h : d.SameBut names d') (path : String) :
    d'.target? path = d.target? path ∨ ∃ way rest f f', trueNames d.root path = .ok way ∧
      names = way ++ rest ∧ d.target? path = some f ∧ d'.target? path = some f' ∧
      f.SameBut rest f' := by
  unfold Disk.target?
  rw [h.root.placeOf?]
  cases hway : placeOf? d.root path with
  | none => exact Or.inl rfl
  | some way =>
    obtain hsame | ⟨rest, f, f', hnames, hf, hf', hrest⟩ := h.root.find?_cases way
    · exact Or.inl hsame
    · exact Or.inr ⟨way, rest, f, f', trueNames_of_placeOf? hway, hnames, hf, hf', hrest⟩

/-- Whatever is not the file is read as on the other disk. -/
theorem readText? (h : d.SameBut names d') {path : String}
    (hother : trueNames d.root path ≠ .ok names) : d'.readText? path = d.readText? path := by
  have hbytes : d'.bytes? path = d.bytes? path := by
    unfold Disk.bytes?
    obtain hsame | ⟨way, rest, f, f', hway, hnames, hf, hf', hrest⟩ := h.target?_cases path
    · rw [hsame]
    · have hne : rest ≠ [] := by
        rintro rfl
        rw [List.append_nil] at hnames
        exact hother (hnames ▸ hway)
      obtain ⟨hnone, hnone'⟩ := hrest.bytes? hne
      rw [hf, hf', Option.bind_some, Option.bind_some, hnone, hnone']
  rw [Disk.readText?_eq, Disk.readText?_eq, hbytes, h.unread path hother]

end Disk.SameBut

end CodeAtlas.Disk
