import CodeAtlas.Proofs.Outline.Php.Owners
import CodeAtlas.Proofs.Outline.Script.Entities
import CodeAtlas.Proofs.Tree.Columns
import CodeAtlas.Proofs.Tree.Nodes

/-! # Where entities stand

A walk records an entity for each declaration, and a file lists what was recorded in another order. An entity shows
where its node begins and ends as lines and columns, and its order and its id come from these alone. So what holds of
the positions of two entities is what holds of the rows and columns at which their nodes begin and end. -/

namespace CodeAtlas.Outline

open CodeAtlas.Tree

variable {f : Family} {path language : String} {s : Source} {o : Options} {root : Node}
  {d d' : Declaration} {e e' : Entity}

/-! ## What is recorded -/

/-- What the nodes of a tree declare to a family, in the order of the walk. -/
def Family.declared (s : Source) (root : Node) : Family → List Declaration
  | .script => root.tour.flatMap (Script.declared s)
  | .php => root.tour.flatMap (Php.declared s)

/-- Whether some pairs are made of a list of declarations and a list of entities, one by one, each entity being what
the declaration with it declares. -/
structure Recorded (path : String) (s : Source) (ds : List Declaration) (es : List Entity)
    (pairs : List (Declaration × Entity)) : Prop where
  declarations : pairs.map Prod.fst = ds
  entities : pairs.map Prod.snd = es
  declares : ∀ v ∈ pairs, Declares path s v.1 v.2

namespace Recorded

variable {ds : List Declaration} {es : List Entity} {pairs : List (Declaration × Entity)}

theorem mem_declarations {v : Declaration × Entity} (h : Recorded path s ds es pairs) (hv : v ∈ pairs) :
    v.1 ∈ ds := h.declarations ▸ List.mem_map_of_mem hv

theorem exists_of_declaration (h : Recorded path s ds es pairs) (hd : d ∈ ds) : ∃ v ∈ pairs, v.1 = d :=
  List.mem_map.mp (h.declarations ▸ hd)

theorem exists_of_entity (h : Recorded path s ds es pairs) (he : e ∈ es) : ∃ v ∈ pairs, v.2 = e :=
  List.mem_map.mp (h.entities ▸ he)

end Recorded

theorem exists_recorded {ds : List Declaration} {es : List Entity}
    (h : List.Forall₂ (Declares path s) ds es) : ∃ pairs, Recorded path s ds es pairs := by
  induction h with
  | nil => exact ⟨[], rfl, rfl, List.forall_mem_nil _⟩
  | @cons d e _ _ hd _ ih =>
    obtain ⟨pairs, hds, hes, hdeclares⟩ := ih
    exact ⟨(d, e) :: pairs, by rw [List.map_cons, hds], by rw [List.map_cons, hes],
      List.forall_mem_cons.mpr ⟨hd, hdeclares⟩⟩

theorem Family.tells_extract {fs : List Finding} (h : f.extract path s o root = .ok fs) :
    Tells path s (f.declared s root) fs := by
  cases f with
  | script => exact Script.tells_extract h
  | php =>
    cases h
    exact Php.tells_extract path s root

theorem Family.at?_of_mem_declared (h : d ∈ f.declared s root) : root.at? d.place = some d.node := by
  cases f with
  | script =>
    obtain ⟨v, hv, hd⟩ := List.mem_flatMap.mp h
    exact Script.at?_of_mem_declared (Node.mem_tour_iff.mp hv) hd
  | php =>
    obtain ⟨v, hv, hd⟩ := List.mem_flatMap.mp h
    exact Php.at?_of_mem_declared (Node.mem_tour_iff.mp hv) hd

/-- A file that is refused has no entities, any other those that the walk has recorded. -/
theorem Family.entities_read (f : Family) (path language : String) (s : Source) (o : Options) (root : Node) :
    let file := f.read path language s o root;
    (f.refusal? s o root ≠ none ∧ file.entities = []) ∨
      ∃ fs recorded, f.extract path s o root = .ok fs ∧
        Recorded path s (f.declared s root) (fs.filterMap Finding.entity?) recorded ∧
        file.entities = (recorded.map Prod.snd).mergeSort Entity.startsBy := by
  dsimp only
  cases h : f.refusal? s o root with
  | some message =>
    rw [Family.read_of_refused h]
    exact .inl ⟨nofun, rfl⟩
  | none =>
    obtain ⟨fs, hextract, hread⟩ := Family.read_of_not_refused path language h
    obtain ⟨recorded, hrecorded⟩ := exists_recorded (Family.tells_extract hextract)
    refine .inr ⟨fs, recorded, hextract, hrecorded, ?_⟩
    rw [hread, hrecorded.entities]
    rfl

/-- A file that is not refused lists what the walk has recorded, in another order. -/
theorem Family.exists_sorted (f : Family) (path language : String) (s : Source) (o : Options) (root : Node) :
    let file := f.read path language s o root;
    (f.refusal? s o root ≠ none ∧ file.entities = []) ∨
      ∃ fs recorded listed, f.extract path s o root = .ok fs ∧
        Recorded path s (f.declared s root) (fs.filterMap Finding.entity?) recorded ∧ listed.Perm recorded ∧
        Recorded path s (listed.map Prod.fst) file.entities listed := by
  refine (Family.entities_read f path language s o root).imp_right ?_
  rintro ⟨fs, recorded, hextract, hrecorded, hentities⟩
  have hperm := List.mergeSort_perm recorded fun v w => v.2.startsBy w.2
  refine ⟨fs, recorded, _, hextract, hrecorded, hperm, rfl, ?_,
    fun v hv => hrecorded.declares v (hperm.mem_iff.mp hv)⟩
  rw [hentities]
  exact List.map_mergeSort fun _ _ _ _ => rfl

/-- What a file lists is declared as well, in another order. -/
theorem Family.exists_listed (f : Family) (path language : String) (s : Source) (o : Options) (root : Node) :
    let file := f.read path language s o root;
    (f.refusal? s o root ≠ none ∧ file.entities = []) ∨
      ∃ ds listed, ds.Perm (f.declared s root) ∧ Recorded path s ds file.entities listed := by
  refine (Family.exists_sorted f path language s o root).imp_right ?_
  rintro ⟨fs, recorded, listed, _, hrecorded, hperm, hlisted⟩
  exact ⟨_, listed, hrecorded.declarations ▸ hperm.map Prod.fst, hlisted⟩

/-! ## What is shown -/

/-- An offset as an entity shows it: its line, counted from one, and its column. -/
def shown (s : Source) (b : Nat) : Int ×ₗ Int := toLex ((s.row b : Int) + 1, (s.column b : Int))

theorem shown_le_shown_iff {b b' : Nat} : shown s b ≤ shown s b' ↔ s.rank b ≤ s.rank b' := by
  rw [shown, shown, Source.rank, Source.rank, Prod.Lex.toLex_le_toLex, Prod.Lex.toLex_le_toLex]
  dsimp only
  omega

theorem shown_le_shown (s : Source) {b b' : Nat} (h : b ≤ b') : shown s b ≤ shown s b' :=
  shown_le_shown_iff.mpr (s.monotone_rank h)

/-- Where an entity begins, to be compared in the order of reading. -/
def Entity.begins (e : Entity) : Int ×ₗ Int := toLex (e.startLine, e.startColumn)

/-- Where an entity ends. -/
def Entity.ends (e : Entity) : Int ×ₗ Int := toLex (e.endLine, e.endColumn)

theorem startsBy_iff_begins_le : e.startsBy e' = true ↔ e.begins ≤ e'.begins := by
  rw [startsBy_iff, Entity.begins, Entity.begins, Prod.Lex.toLex_le_toLex]

namespace Declares

theorem begins_eq (h : Declares path s d e) : e.begins = shown s d.node.start := by
  rw [Entity.begins, h.startLine, h.startColumn]
  rfl

theorem ends_eq (h : Declares path s d e) : e.ends = shown s d.node.stop := by
  rw [Entity.ends, h.endLine, h.endColumn]
  rfl

theorem startsBy_iff_rank_le (h : Declares path s d e) (h' : Declares path s d' e') :
    e.startsBy e' = true ↔ s.rank d.node.start ≤ s.rank d'.node.start := by
  rw [startsBy_iff_begins_le, h.begins_eq, h'.begins_eq, shown_le_shown_iff]

end Declares

end CodeAtlas.Outline
