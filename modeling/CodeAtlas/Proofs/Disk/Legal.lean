import CodeAtlas.Disk.Basic
import CodeAtlas.Proofs.Path.Segments

/-! # Disks as file systems have them

The names in a folder are distinct, and none is empty, a dot or two dots or holds a slash or a NUL
character; a file has fewer bytes than a file offset counts. Whether a disk is one of these is
checked by a walk over its entries, and what holds of all entries holds wherever names lead. -/

namespace CodeAtlas.Disk

/-! ## Names -/

/-- Whether a text can name an entry of a folder. -/
def isName (name : String) : Bool :=
  let cs := name.toList
  cs != [] && cs != Path.here && cs != Path.up && !cs.contains '/' && !cs.contains '\x00'

/-- Whether a name ends in a backslash. -/
def isMarked (name : String) : Bool := name.toList.getLast? == some '\\'

theorem isName_iff {name : String} : isName name = true ↔
    Path.IsPart name.toList ∧ name.toList ≠ Path.up ∧ '\x00' ∉ name.toList := by
  simp only [isName, Bool.and_eq_true, bne_iff_ne, Bool.not_eq_true', List.contains_eq_mem,
    decide_eq_false_iff_not, Path.IsPart]
  constructor
  · rintro ⟨⟨⟨⟨hn, hd⟩, hu⟩, hs⟩, hz⟩
    exact ⟨⟨hn, hd, hs⟩, hu, hz⟩
  · rintro ⟨⟨hn, hd, hs⟩, hu, hz⟩
    exact ⟨⟨⟨⟨hn, hd⟩, hu⟩, hs⟩, hz⟩

/-- Names that a path can be taken apart into. -/
def ArePlain (names : List String) : Prop :=
  ∀ n ∈ names, Path.IsPart n.toList ∧ n.toList ≠ Path.up

theorem arePlain_of_isName {names : List String} (h : ∀ n ∈ names, isName n = true) :
    ArePlain names := fun n hn =>
  have hp := isName_iff.mp (h n hn)
  ⟨hp.1, hp.2.1⟩

theorem ArePlain.append {a b : List String} (ha : ArePlain a) (hb : ArePlain b) :
    ArePlain (a ++ b) := by
  intro n hn
  rcases List.mem_append.mp hn with h | h
  · exact ha n h
  · exact hb n h

theorem isPart_of_mem_namesOf {path n : String} (h : n ∈ namesOf path) : Path.IsPart n.toList := by
  obtain ⟨s, hs, rfl⟩ := List.mem_map.mp h
  simpa using Path.isPart_of_mem_segments hs

theorem settled_append (names : List String) {rest : List String} (h : ArePlain rest) :
    settled (names ++ rest) = settled names ++ rest := by
  have hr : ∀ s ∈ rest.map String.toList, s ≠ Path.up := by
    intro s hs
    obtain ⟨n, hn, rfl⟩ := List.mem_map.mp hs
    exact (h n hn).2
  simp [settled, Path.resolve_append true _ hr]

theorem settled_of_arePlain {names : List String} (h : ArePlain names) : settled names = names := by
  have hs := settled_append [] h
  simpa [settled, Path.resolve] using hs

theorem arePlain_settled {names : List String} (h : ∀ n ∈ names, Path.IsPart n.toList) :
    ArePlain (settled names) := by
  intro n hn
  obtain ⟨s, hs, rfl⟩ := List.mem_map.mp hn
  obtain ⟨hm, hu⟩ := Path.mem_resolve hs
  obtain ⟨m, hm', rfl⟩ := List.mem_map.mp hm
  exact ⟨by simpa using h m hm', by simpa using hu⟩

/-- Names can be read off the path that they make up. -/
theorem namesOf_pathOf {names : List String} (h : ArePlain names) :
    namesOf (pathOf names) = names := by
  have hp : ∀ s ∈ names.map String.toList, Path.IsPart s := by
    intro s hs
    obtain ⟨n, hn, rfl⟩ := List.mem_map.mp hs
    exact (h n hn).1
  simp [namesOf, pathOf, Path.segments_cons_slash, Path.segments_join hp]

theorem pathOf_injective {a b : List String} (ha : ArePlain a) (hb : ArePlain b)
    (h : pathOf a = pathOf b) : a = b := by
  rw [← namesOf_pathOf ha, h, namesOf_pathOf hb]

/-! ## Entries below a folder -/

namespace Entry

def children : Entry → List Entry
  | folder _ _ entries => entries
  | _ => []

/-- The content of an entry that is a file. -/
def bytes? : Entry → Option (List UInt8)
  | file _ bytes _ => some bytes
  | _ => none

/-- Whether an entry and all entries below it pass a check. -/
def every (check : Entry → Bool) : Entry → Bool
  | e@(folder _ _ entries) => check e && everyOf entries
  | e => check e
where
  everyOf : List Entry → Bool
    | [] => true
    | e :: rest => e.every check && everyOf rest

theorem everyOf_iff {check : Entry → Bool} {entries : List Entry} :
    every.everyOf check entries = true ↔ ∀ e ∈ entries, e.every check = true := by
  induction entries with
  | nil => simp [every.everyOf]
  | cons e rest ih => simp [every.everyOf, ih]

theorem every_iff {check : Entry → Bool} {e : Entry} :
    e.every check = true ↔ check e = true ∧ ∀ c ∈ e.children, c.every check = true := by
  cases e with
  | folder => simp [every, children, everyOf_iff]
  | _ => simp [every, children]

/-- What holds of an entry whenever it holds of its children holds of all entries. -/
theorem induct_children {motive : Entry → Prop}
    (step : ∀ e, (∀ c ∈ e.children, motive c) → motive e) (e : Entry) : motive e := by
  refine @Entry.rec motive (fun es => ∀ c ∈ es, motive c) ?_ ?_ ?_ ?_ ?_ ?_ e
  · exact fun name bytes modified => step (file name bytes modified) (List.forall_mem_nil _)
  · exact fun name modified entries ih => step (folder name modified entries) ih
  · exact fun name target => step (link name target) (List.forall_mem_nil _)
  · exact fun name => step (special name) (List.forall_mem_nil _)
  · exact List.forall_mem_nil _
  · exact fun e rest he hrest => List.forall_mem_cons.mpr ⟨he, hrest⟩

theorem find?_nil (e : Entry) : e.find? [] = some e := by
  cases e <;> rfl

theorem find?_cons (e : Entry) (name : String) (names : List String) :
    e.find? (name :: names) = (entryOf? e.children name).bind (·.find? names) := by
  cases e with
  | folder own modified entries =>
    simp only [find?, children]
    cases entryOf? entries name <;> rfl
  | _ => rfl

theorem find?_append (e : Entry) (a b : List String) :
    e.find? (a ++ b) = (e.find? a).bind (·.find? b) := by
  induction a generalizing e with
  | nil => simp [find?_nil]
  | cons name a ih =>
    rw [List.cons_append, find?_cons, find?_cons]
    cases entryOf? e.children name with
    | none => rfl
    | some c => exact ih c

theorem mem_of_entryOf? {entries : List Entry} {name : String} {e : Entry}
    (h : entryOf? entries name = some e) : e ∈ entries ∧ e.name = name :=
  ⟨List.mem_of_find?_eq_some h, by simpa using List.find?_some h⟩

/-- Distinct names: every entry is found by its own. -/
theorem entryOf?_of_mem {entries : List Entry} (hd : (entries.map name).Nodup) {e : Entry}
    (h : e ∈ entries) : entryOf? entries e.name = some e := by
  induction entries with
  | nil => cases h
  | cons f rest ih =>
    obtain ⟨hf, hr⟩ := List.nodup_cons.mp hd
    rcases List.mem_cons.mp h with rfl | h
    · simp [entryOf?]
    · have hne : f.name ≠ e.name := fun he => hf (he ▸ List.mem_map_of_mem h)
      have := ih hr h
      simpa [entryOf?, hne] using this

theorem every_of_find? {check : Entry → Bool} {e f : Entry} (h : e.every check = true)
    {names : List String} (hf : e.find? names = some f) : f.every check = true := by
  induction names generalizing e with
  | nil =>
    rw [find?_nil] at hf
    cases hf
    exact h
  | cons name names ih =>
    rw [find?_cons] at hf
    obtain ⟨c, hc, hf⟩ := Option.bind_eq_some_iff.mp hf
    exact ih ((every_iff.mp h).2 c (mem_of_entryOf? hc).1) hf

/-- Only folders have something below them. -/
theorem find?_folder {e f : Entry} {names : List String} {name : String} {rest : List String}
    (h : e.find? (names ++ name :: rest) = some f) :
    ∃ own modified entries, e.find? names = some (folder own modified entries) := by
  rw [find?_append] at h
  obtain ⟨g, hg, h⟩ := Option.bind_eq_some_iff.mp h
  rw [find?_cons] at h
  cases g with
  | folder own modified entries => exact ⟨own, modified, entries, hg⟩
  | _ => simp [children, entryOf?] at h

/-- What is below an entry is a child of something. -/
theorem exists_parent {e f : Entry} {names : List String} {name : String}
    (h : e.find? (names ++ [name]) = some f) :
    ∃ parent, e.find? names = some parent ∧ f ∈ parent.children ∧ f.name = name := by
  rw [find?_append] at h
  obtain ⟨parent, hp, h⟩ := Option.bind_eq_some_iff.mp h
  rw [find?_cons] at h
  obtain ⟨c, hc, hf⟩ := Option.bind_eq_some_iff.mp h
  rw [find?_nil] at hf
  cases hf
  exact ⟨parent, hp, mem_of_entryOf? hc⟩

end Entry

/-! ## Legal disks -/

/-- The number of bytes that no file reaches. -/
def maxBytes : Nat := 9223372036854775807

/-- Whether an entry could be one of a file system, apart from what is below its children. -/
def Entry.isLegal (e : Entry) : Bool :=
  decide (e.children.map Entry.name).Nodup && e.children.all (isName ·.name) &&
    e.bytes?.all (·.length < maxBytes)

/-- Whether no child of an entry has a name that ends in a backslash. -/
def Entry.isUnmarked (e : Entry) : Bool := e.children.all (!isMarked ·.name)

/-- A disk that a file system could hold. -/
def Disk.Legal (d : Disk) : Prop := d.root.every Entry.isLegal = true

/-- A disk without names that end in a backslash. -/
def Disk.Unmarked (d : Disk) : Prop := d.root.every Entry.isUnmarked = true

/-- A disk that holds some entries and refuses nothing. -/
def Disk.holding (entries : List Entry) : Disk := .ofRoot (.folder "" defaultTime entries)

instance (d : Disk) : Decidable d.Legal := inferInstanceAs (Decidable (_ = true))

instance (d : Disk) : Decidable d.Unmarked := inferInstanceAs (Decidable (_ = true))

theorem Entry.isLegal_iff {e : Entry} : e.isLegal = true ↔
    (e.children.map Entry.name).Nodup ∧ (∀ c ∈ e.children, isName c.name = true) ∧
      ∀ bytes, e.bytes? = some bytes → bytes.length < maxBytes := by
  simp only [isLegal, Bool.and_eq_true, decide_eq_true_eq, List.all_eq_true, Option.all_eq_true,
    and_assoc]

theorem Entry.isUnmarked_iff {e : Entry} :
    e.isUnmarked = true ↔ ∀ c ∈ e.children, isMarked c.name = false := by
  simp [isUnmarked]

theorem Entry.isName_of_find? {e f : Entry} (h : e.every isLegal = true) {names : List String}
    (hf : e.find? names = some f) : ∀ n ∈ names, isName n = true := by
  induction names generalizing e with
  | nil => exact List.forall_mem_nil _
  | cons name names ih =>
    rw [find?_cons] at hf
    obtain ⟨c, hc, hrest⟩ := Option.bind_eq_some_iff.mp hf
    obtain ⟨hmem, rfl⟩ := mem_of_entryOf? hc
    obtain ⟨hlegal, hbelow⟩ := every_iff.mp h
    exact List.forall_mem_cons.mpr
      ⟨(isLegal_iff.mp hlegal).2.1 c hmem, ih (hbelow c hmem) hrest⟩

theorem Entry.isMarked_of_find? {e f : Entry} (h : e.every isUnmarked = true)
    {names : List String} {name : String} (hf : e.find? (names ++ [name]) = some f) :
    isMarked name = false := by
  obtain ⟨parent, hp, hmem, rfl⟩ := exists_parent hf
  exact isUnmarked_iff.mp (every_iff.mp (every_of_find? h hp)).1 f hmem

/-- A child of a folder is found by its own name. -/
theorem Entry.find?_child {e c : Entry} (h : e.every isLegal = true) (hc : c ∈ e.children)
    (names : List String) : e.find? (c.name :: names) = c.find? names := by
  rw [find?_cons, entryOf?_of_mem (isLegal_iff.mp (every_iff.mp h).1).1 hc]
  rfl

end CodeAtlas.Disk
