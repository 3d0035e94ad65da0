import CodeAtlas.Outline.Sighting
import CodeAtlas.Proofs.Attempts
import CodeAtlas.Proofs.Tree.Tour
import Mathlib.Data.List.Nodup

/-! # Declarations

What a tree declares is said by the nodes that declare it, each with its place. The entities of a file are
held against such a list: one entity for each declaration, of the same kind and owner, standing in the text
where the node stands. Files list their entities sorted by where they begin, without changing the order of
those that begin together. -/

namespace CodeAtlas.Outline

open CodeAtlas.Tree

/-- A node that declares an entity, with the way to it. -/
structure Declaration where
  above : Trail
  node : Node
  kind : EntityKind
  /-- The name of the class, or of what stands for one, that the entity is a member of. -/
  owner? : Option String

def Declaration.place (d : Declaration) : Place := d.above.place

/-- Whether an entity is what a node declares. -/
structure Declares (path : String) (s : Source) (d : Declaration) (e : Entity) : Prop where
  kind : e.kind = d.kind
  owner : e.parentClass? = d.owner?
  id : e.id = s!"{path}:{(s.position d.node.start).row + 1}:{(s.position d.node.start).column}"
  startLine : e.startLine = (s.position d.node.start).row + 1
  startColumn : e.startColumn = (s.position d.node.start).column
  endLine : e.endLine = (s.position d.node.stop).row + 1
  endColumn : e.endColumn = (s.position d.node.stop).column

/-- Whether the entities among some findings are those of a list of declarations, in the order of the list. -/
def Tells (path : String) (s : Source) (ds : List Declaration) (fs : List Finding) : Prop :=
  List.Forall₂ (Declares path s) ds (fs.filterMap Finding.entity?)

namespace Tells

variable {path : String} {s : Source} {ds ds' : List Declaration} {fs fs' : List Finding}

theorem of_no_entity (h : fs.filterMap Finding.entity? = []) : Tells path s [] fs := by
  rw [Tells, h]
  exact .nil

theorem nil : Tells path s [] [] := of_no_entity rfl

theorem append (h : Tells path s ds fs) (h' : Tells path s ds' fs') :
    Tells path s (ds ++ ds') (fs ++ fs') := by
  rw [Tells, List.filterMap_append]
  exact List.rel_append h h'

theorem sight {d : Declaration} {name : String} {t : Traits} (howner : t.parentClass? = d.owner?)
    (h : Tells path s ds fs) :
    Tells path s (d :: ds) (Outline.sight path s d.node name d.kind t :: fs) :=
  .cons ⟨rfl, howner, rfl, rfl, rfl, rfl, rfl⟩ h

theorem flatMap {α : Type} {l : List α} {g : α → List Declaration} {f : α → List Finding}
    (h : ∀ a ∈ l, Tells path s (g a) (f a)) : Tells path s (l.flatMap g) (l.flatMap f) := by
  induction l with
  | nil => exact nil
  | cons a l ih =>
    obtain ⟨ha, hl⟩ := List.forall_mem_cons.mp h
    exact ha.append (ih hl)

theorem map {α : Type} {l : List α} {g : α → Declaration} {f : α → Finding}
    (h : ∀ a ∈ l, Tells path s [g a] [f a]) : Tells path s (l.map g) (l.map f) := by
  rw [List.map_eq_flatMap, List.map_eq_flatMap]
  exact flatMap h

/-- What single results tell, a list of results tells one after the other. -/
theorem mapM {α ε : Type} {l : List α} {g : α → List Declaration} {f : α → Except ε (List Finding)}
    (h : ∀ a fs, f a = .ok fs → Tells path s (g a) fs) {r : List (List Finding)}
    (hr : l.mapM f = .ok r) : Tells path s (l.flatMap g) r.flatten :=
  forall₂_flatten_of_mapM_ok h hr

end Tells

/-! ## The order in a file -/

/-- Whether a list is another one sorted by where the entities begin, those that begin together being in
the order that they had. -/
structure SortedByStart (l sorted : List Entity) : Prop where
  perm : sorted.Perm l
  ordered : sorted.Pairwise fun a b =>
    a.startLine < b.startLine ∨ (a.startLine = b.startLine ∧ a.startColumn ≤ b.startColumn)
  stable : ∀ line column : Int,
    (sorted.filter fun e => e.startLine == line && e.startColumn == column) =
      l.filter fun e => e.startLine == line && e.startColumn == column

theorem startsBy_iff {a b : Entity} : a.startsBy b = true ↔
    a.startLine < b.startLine ∨ (a.startLine = b.startLine ∧ a.startColumn ≤ b.startColumn) := by
  simp [Entity.startsBy]

theorem startsBy_trans (a b c : Entity) (hab : a.startsBy b = true) (hbc : b.startsBy c = true) :
    a.startsBy c = true := by
  rw [startsBy_iff] at *
  omega

theorem startsBy_total (a b : Entity) : (a.startsBy b || b.startsBy a) = true := by
  rw [Bool.or_eq_true, startsBy_iff, startsBy_iff]
  omega

/-- Sorting keeps the order of elements that are in order however they stand. -/
theorem filter_mergeSort {α : Type} {le : α → α → Bool}
    (htrans : ∀ a b c, le a b = true → le b c = true → le a c = true)
    (htotal : ∀ a b, (le a b || le b a) = true) {p : α → Bool}
    (hp : ∀ a b, p a = true → p b = true → le a b = true) (l : List α) :
    (l.mergeSort le).filter p = l.filter p := by
  -- these elements are in order as they stand, so sorting keeps them as a sublist
  have hpairwise : (l.filter p).Pairwise fun a b => le a b = true :=
    List.pairwise_filter.mpr (List.pairwise_of_forall hp)
  have hsub := (List.sublist_mergeSort htrans htotal hpairwise List.filter_sublist).filter p
  rw [List.filter_filter] at hsub
  simp only [Bool.and_self] at hsub
  exact (hsub.eq_of_length ((List.mergeSort_perm l _).filter _).length_eq.symm).symm

theorem sortedByStart_mergeSort (l : List Entity) :
    SortedByStart l (l.mergeSort Entity.startsBy) where
  perm := List.mergeSort_perm l _
  ordered := (List.pairwise_mergeSort startsBy_trans startsBy_total l).imp startsBy_iff.mp
  stable line column := by
    refine filter_mergeSort startsBy_trans startsBy_total (fun a b ha hb => startsBy_iff.mpr ?_) l
    simp only [Bool.and_eq_true, beq_iff_eq] at ha hb
    omega

/-! ## What a file lists -/

/-- Whether the entities of a file are those of a list of declarations: one for each, sorted, and none of two
declarations by one node. -/
structure Lists (path : String) (s : Source) (root : Node) (ds : List Declaration)
    (file : ParsedFile) : Prop where
  stands : ∀ d ∈ ds, root.at? d.place = some d.node
  distinct : (ds.map Declaration.place).Nodup
  entities : ∃ es, List.Forall₂ (Declares path s) ds es ∧ SortedByStart es file.entities

/-- If a node tells how far above it the visit is that declares it, then no node is declared twice. -/
theorem nodup_places {root : Node} {visited : List (Trail × Node)}
    {declared : Trail × Node → List Declaration} (depth : Node → Nat)
    (hordered : visited.Pairwise Node.Before)
    (hstands : ∀ v ∈ visited, ∀ d ∈ declared v, root.at? d.place = some d.node)
    (hdepth : ∀ v ∈ visited, ∀ d ∈ declared v, ∃ rest, rest.length = depth d.node ∧
      d.place = v.1.place ++ rest)
    (hown : ∀ v ∈ visited, ((declared v).map Declaration.place).Nodup) :
    ((visited.flatMap declared).map Declaration.place).Nodup := by
  rw [List.map_flatMap, List.nodup_flatMap]
  refine ⟨hown, hordered.imp_of_mem fun {v w} hv hw hbefore => ?_⟩
  rintro pl hpl hpl'
  obtain ⟨d, hd, rfl⟩ := List.mem_map.mp hpl
  obtain ⟨d', hd', he⟩ := List.mem_map.mp hpl'
  -- one place holds one node, so both visits are equally far above it and are one
  have hnode : d'.node = d.node :=
    Option.some.inj ((hstands w hw d' hd').symm.trans (he ▸ hstands v hv d hd))
  obtain ⟨rest, hlength, hplace⟩ := hdepth v hv d hd
  obtain ⟨rest', hlength', hplace'⟩ := hdepth w hw d' hd'
  rw [hplace, hplace'] at he
  have hsame := List.append_inj_left' he (by rw [hlength, hlength', hnode])
  rw [Node.Before, hsame] at hbefore
  exact List.lt_irrefl _ hbefore

/-- A file that findings make up lists what they tell of the nodes of a tour. -/
theorem Tells.lists {path language : String} {s : Source} {root : Node} {fs : List Finding}
    {declared : Trail × Node → List Declaration} (depth : Node → Nat)
    (h : Tells path s (root.tour.flatMap declared) fs)
    (hstands : ∀ v, root.Reaches v.1 v.2 → ∀ d ∈ declared v, root.at? d.place = some d.node)
    (hdepth : ∀ v, ∀ d ∈ declared v, ∃ rest, rest.length = depth d.node ∧
      d.place = v.1.place ++ rest)
    (hown : ∀ v, ((declared v).map Declaration.place).Nodup) :
    Lists path s root (root.tour.flatMap declared) (.ofFindings path language fs) where
  stands d hd := by
    obtain ⟨v, hv, hd⟩ := List.mem_flatMap.mp hd
    exact hstands v (Node.mem_tour_iff.mp hv) d hd
  distinct := nodup_places depth (Node.pairwise_tour root)
    (fun v hv d hd => hstands v (Node.mem_tour_iff.mp hv) d hd) (fun v _ => hdepth v)
    fun v _ => hown v
  entities := ⟨_, h, sortedByStart_mergeSort _⟩

end CodeAtlas.Outline
