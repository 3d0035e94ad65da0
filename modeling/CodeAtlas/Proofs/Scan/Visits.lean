import CodeAtlas.Proofs.Scan.Spelling

/-! # What a scan visits

A scan walks over entries and describes each of them. The walk alone depends on neither content nor
sizes, so two scans that differ only in these visit the same entries. Every visited entry is what the
names of the visit lead to, no names are visited twice, and a disk that refuses nothing is visited
wherever one that refuses something is. -/

namespace CodeAtlas.Disk

namespace Entry

/-- Whether a walk shows an entry: it passes over links and special files. -/
def isShown : Entry → Bool
  | file .. | folder .. => true
  | link .. | special .. => false

/-- When an entry that is shown was last changed. -/
def changed : Entry → Int
  | file _ _ modified | folder _ modified _ => modified
  | link .. | special .. => 0

/-- Whether a calendar can show the times of an entry's children. -/
def isDated (e : Entry) : Bool := e.children.all fun c => (Time.Moment.ofNanos c.changed).toBool

end Entry

/-- A disk whose times a calendar can show. -/
def Disk.Dated (d : Disk) : Prop := d.root.every Entry.isDated = true

instance (d : Disk) : Decidable d.Dated := inferInstanceAs (Decidable (_ = true))

end CodeAtlas.Disk

namespace CodeAtlas.Scan

open CodeAtlas.Disk

/-- An entry that a walk comes to, with the names of the folders above it. -/
structure Visit where
  above : List String
  entry : Entry

def Visit.names (v : Visit) : List String := v.above ++ [v.entry.name]

namespace Walk

variable {w w' : Walk}

mutual

/-- The visits of a walk to an entry and to what is below it. -/
def visit (w : Walk) (above : List String) : Entry → List Visit
  | .file name bytes modified =>
    if w.skips (pathTo w.root (above ++ [name])) then [] else [⟨above, .file name bytes modified⟩]
  | .folder name modified inner =>
    let names := above ++ [name]
    if w.skips (pathTo w.root names) then []
    else
      let below := if w.enters (pathTo w.root names) names.length then w.visits names inner else []
      ⟨above, .folder name modified inner⟩ :: below
  | .link .. | .special .. => []

def visits (w : Walk) (above : List String) : List Entry → List Visit
  | [] => []
  | e :: rest => w.visit above e ++ w.visits above rest

end

theorem visits_eq_flatMap (w : Walk) (above : List String) (es : List Entry) :
    w.visits above es = es.flatMap (w.visit above) := by
  induction es with
  | nil => rfl
  | cons e es ih => rw [visits, ih, List.flatMap_cons]

theorem visit_eq (w : Walk) (above : List String) (e : Entry) :
    w.visit above e =
      let names := above ++ [e.name]
      if e.isShown && !w.skips (pathTo w.root names) then
        ⟨above, e⟩ :: if w.enters (pathTo w.root names) names.length then
          e.children.flatMap (w.visit names) else []
      else [] := by
  cases e with
  | file name bytes modified =>
    cases h : w.skips (pathTo w.root (above ++ [name])) <;>
      simp [visit, Entry.isShown, Entry.name, Entry.children, h]
  | folder name modified inner =>
    cases h : w.skips (pathTo w.root (above ++ [name])) <;>
      simp [visit, Entry.isShown, Entry.name, Entry.children, visits_eq_flatMap, h]
  | _ => simp [visit, Entry.isShown]

/-- A visit to an entry or below it: the entry is shown and not passed over, and the visit is to
itself or, if the walk goes into the entry, to a child of it or below. -/
theorem mem_visit {above : List String} {e : Entry} {v : Visit} :
    v ∈ w.visit above e ↔
      (e.isShown = true ∧ w.skips (pathTo w.root (above ++ [e.name])) = false) ∧
        (v = ⟨above, e⟩ ∨
          w.enters (pathTo w.root (above ++ [e.name])) (above ++ [e.name]).length = true ∧
            ∃ c ∈ e.children, v ∈ w.visit (above ++ [e.name]) c) := by
  rw [visit_eq]
  dsimp only
  split
  · next h =>
    have h : e.isShown = true ∧ w.skips (pathTo w.root (above ++ [e.name])) = false := by
      simpa using h
    simp only [h, and_self, true_and, List.mem_cons]
    split
    · next he => simp only [he, true_and, List.mem_flatMap]
    · next he => simp only [he, List.not_mem_nil, false_and, Bool.false_eq_true]
  · next h =>
    refine ⟨fun hv => absurd hv List.not_mem_nil, fun hv => absurd hv.1 ?_⟩
    simpa using h

/-! ## Where visits are -/

/-- The names of a visit lead to the visited entry. -/
theorem leads_of_mem_visit {e : Entry} (hl : e.every Entry.isLegal = true) {above : List String}
    {v : Visit} (h : v ∈ w.visit above e) :
    ∃ rest, v.names = above ++ e.name :: rest ∧ e.find? rest = some v.entry := by
  induction e using Entry.induct_children generalizing above with
  | step e ih =>
    obtain ⟨_, rfl | ⟨_, c, hc, hv⟩⟩ := mem_visit.mp h
    · exact ⟨[], rfl, Entry.find?_nil e⟩
    · obtain ⟨rest, hn, hf⟩ := ih c hc ((Entry.every_iff.mp hl).2 c hc) hv
      refine ⟨c.name :: rest, by simpa using hn, ?_⟩
      rw [Entry.find?_child hl hc, hf]

theorem isShown_of_mem_visit {e : Entry} {above : List String} {v : Visit}
    (h : v ∈ w.visit above e) : v.entry.isShown = true := by
  induction e using Entry.induct_children generalizing above with
  | step e ih =>
    obtain ⟨he, rfl | ⟨_, c, hc, hv⟩⟩ := mem_visit.mp h
    · exact he.1
    · exact ih c hc hv

/-- The visits below an entry are at distinct names if those below each child of it are. -/
theorem nodup_children {e : Entry} (hl : e.every Entry.isLegal = true) {above : List String}
    (h : ∀ c ∈ e.children, ((w.visit above c).map Visit.names).Nodup) :
    ((e.children.flatMap (w.visit above)).map Visit.names).Nodup := by
  obtain ⟨hlegal, hbelow⟩ := Entry.every_iff.mp hl
  have hdistinct := List.pairwise_map.mp (Entry.isLegal_iff.mp hlegal).1
  rw [List.map_flatMap, List.Nodup, List.pairwise_flatMap]
  refine ⟨h, hdistinct.imp_of_mem ?_⟩
  intro c c' hc hc' hne names hn names' hn' he
  obtain ⟨v, hv, rfl⟩ := List.mem_map.mp hn
  obtain ⟨v', hv', rfl⟩ := List.mem_map.mp hn'
  obtain ⟨rest, hr, _⟩ := leads_of_mem_visit (hbelow c hc) hv
  obtain ⟨rest', hr', _⟩ := leads_of_mem_visit (hbelow c' hc') hv'
  have heq := List.append_cancel_left (hr.symm.trans (he.trans hr'))
  exact hne (List.cons.inj heq).1

/-- No names are visited twice below folders whose names are distinct. -/
theorem nodup_visit {e : Entry} (hl : e.every Entry.isLegal = true) (above : List String) :
    ((w.visit above e).map Visit.names).Nodup := by
  induction e using Entry.induct_children generalizing above with
  | step e ih =>
    have hbelow := (Entry.every_iff.mp hl).2
    rw [visit_eq]
    dsimp only
    split
    · rw [List.map_cons, List.nodup_cons]
      constructor
      · -- a visit below an entry has more names than one to the entry
        intro hmem
        obtain ⟨v, hv, hn⟩ := List.mem_map.mp hmem
        split at hv
        · obtain ⟨c, hc, hv⟩ := List.mem_flatMap.mp hv
          obtain ⟨rest, hr, _⟩ := leads_of_mem_visit (hbelow c hc) hv
          have := congrArg List.length (hr.symm.trans hn)
          simp [Visit.names] at this
        · exact absurd hv List.not_mem_nil
      · split
        · exact nodup_children hl fun c hc => ih c hc (hbelow c hc) _
        · exact List.nodup_nil
    · exact List.nodup_nil

/-! ## Two walks -/

/-- Walks that pass over and go into the same paths visit the same entries. -/
theorem visit_congr (hr : w'.root = w.root) (hs : w'.skips = w.skips) (he : w'.enters = w.enters)
    (above : List String) (e : Entry) : w'.visit above e = w.visit above e := by
  induction e using Entry.induct_children generalizing above with
  | step e ih =>
    have hc : e.children.flatMap (w'.visit (above ++ [e.name])) =
        e.children.flatMap (w.visit (above ++ [e.name])) := by
      rw [List.flatMap_def, List.flatMap_def, List.map_congr_left fun c hc => ih c hc _]
    rw [visit_eq, visit_eq]
    dsimp only
    rw [hr, hs, he, hc]

/-- A walk that passes over less and goes into more visits all that another one visits. -/
theorem visit_mono (hr : w'.root = w.root) (hs : ∀ p, w'.skips p = true → w.skips p = true)
    (he : ∀ p n, w.enters p n = true → w'.enters p n = true) {above : List String} {e : Entry}
    {v : Visit} (h : v ∈ w.visit above e) : v ∈ w'.visit above e := by
  induction e using Entry.induct_children generalizing above with
  | step e ih =>
    obtain ⟨⟨hshown, hskip⟩, hv⟩ := mem_visit.mp h
    have hskip' : w'.skips (pathTo w'.root (above ++ [e.name])) = false := by
      rw [hr]
      exact Bool.eq_false_iff.mpr fun hp => Bool.eq_false_iff.mp hskip (hs _ hp)
    refine mem_visit.mpr ⟨⟨hshown, hskip'⟩, ?_⟩
    rcases hv with hv | ⟨henter, c, hc, hv⟩
    · exact Or.inl hv
    · rw [hr]
      exact Or.inr ⟨he _ _ henter, c, hc, ih c hc hv⟩

/-! ## What a walk finds -/

/-- What is reported of a visited entry. -/
def report (w : Walk) (v : Visit) : Metadata :=
  let path := pathTo w.root v.names
  let time : Time.Moment := ⟨Time.epoch + Time.microsOfNanos v.entry.changed, some 0⟩
  match v.entry.bytes? with
  | some bytes => w.file path v.entry.name bytes.length time
  | none => folder path v.entry.name time

/-- A visited entry is reported if a calendar can show its time. -/
def describe (w : Walk) (v : Visit) : Except Time.YearError Metadata :=
  (Time.Moment.ofNanos v.entry.changed).map fun _ => w.report v

theorem ofNanos_eq {nanos : Int} {time : Time.Moment} (h : Time.Moment.ofNanos nanos = .ok time) :
    time = ⟨Time.epoch + Time.microsOfNanos nanos, some 0⟩ ∧ Time.onCalendar time.wall = true := by
  unfold Time.Moment.ofNanos at h
  dsimp only at h
  split at h
  · next hc =>
    cases h
    exact ⟨rfl, hc⟩
  · cases h

theorem entries_eq_of_children {parent : String} {depth : Nat} {above : List String}
    {es : List Entry}
    (h : ∀ e ∈ es, w.entry parent depth e = (w.visit above e).mapM w.describe) :
    w.entries parent depth es = (w.visits above es).mapM w.describe := by
  induction es with
  | nil => rfl
  | cons e es ih =>
    rw [entries, visits, List.mapM_append, h e List.mem_cons_self,
      ih fun c hc => h c (List.mem_cons_of_mem e hc)]

/-- A walk describes its visits one after the other. -/
theorem entry_eq (w : Walk) (e : Entry) (above : List String) :
    w.entry (pathTo w.root above) above.length e = (w.visit above e).mapM w.describe := by
  induction e using Entry.induct_children generalizing above with
  | step e ih =>
    cases e with
    | file name bytes modified =>
      simp only [entry, visit, ← pathTo_append_singleton]
      split
      · rfl
      · rw [List.mapM_cons, List.mapM_nil, describe, Entry.changed]
        cases ht : Time.Moment.ofNanos modified with
        | error e => rfl
        | ok time =>
          rw [(ofNanos_eq ht).1]
          rfl
    | folder name modified inner =>
      have hbelow := entries_eq_of_children fun c hc => ih c hc (above ++ [name])
      dsimp only [Entry.children] at hbelow
      simp only [List.length_append, List.length_singleton] at hbelow
      simp only [entry, visit, ← pathTo_append_singleton, List.length_append, List.length_singleton,
        hbelow]
      split
      · rfl
      · rw [List.mapM_cons, describe, Entry.changed]
        cases ht : Time.Moment.ofNanos modified with
        | error e => rfl
        | ok time =>
          rw [(ofNanos_eq ht).1]
          split <;> rfl
    | _ => rfl

end Walk

end CodeAtlas.Scan
