import CodeAtlas.Proofs.Outline.Recorded
import Mathlib.Data.List.Basic
import Std.Data.String.ToNat

/-! # Where entities begin

Entities are sorted by lines and columns, and their ids are made of these. If the nodes of a tree start where characters
begin, then both tell the same as the bytes at which the nodes start: no two of these share a line and a column, and
no two lines and columns are spelled alike behind one path. -/

namespace CodeAtlas.Outline

open CodeAtlas.Tree

variable {path : String} {d d' : Declaration} {e e' : Entity}

/-! ## Sorting -/

/-- Whether a list is another one sorted by numbers, those of one number being in the order that they had. -/
structure SortedBy {α : Type} (key : α → Nat) (l sorted : List α) : Prop where
  perm : sorted.Perm l
  ordered : sorted.Pairwise fun a b => key a ≤ key b
  stable : ∀ k, (sorted.filter fun a => key a == k) = l.filter fun a => key a == k

theorem sortedBy_mergeSort {α : Type} (key : α → Nat) (l : List α) :
    SortedBy key l (l.mergeSort fun a b => decide (key a ≤ key b)) := by
  have htrans (a b c : α) (hab : decide (key a ≤ key b) = true) (hbc : decide (key b ≤ key c) = true) :
      decide (key a ≤ key c) = true :=
    decide_eq_true (Nat.le_trans (of_decide_eq_true hab) (of_decide_eq_true hbc))
  have htotal (a b : α) : (decide (key a ≤ key b) || decide (key b ≤ key a)) = true := by
    rw [Bool.or_eq_true, decide_eq_true_iff, decide_eq_true_iff]
    exact Nat.le_total (key a) (key b)
  refine ⟨List.mergeSort_perm l _, (List.pairwise_mergeSort htrans htotal l).imp of_decide_eq_true, fun k => ?_⟩
  refine filter_mergeSort htrans htotal (fun a b ha hb => decide_eq_true ?_) l
  rw [beq_iff_eq] at ha hb
  exact Nat.le_of_eq (ha.trans hb.symm)

/-! ## Ids -/

theorem colon_notMem_toString (n : Nat) : ':' ∉ (toString n).toList := by
  rw [Nat.toString_eq_ofList_toDigits, String.toList_ofList]
  intro hcolon
  exact absurd (Nat.isDigit_of_mem_toDigits (by decide) (by decide) hcolon) (by decide)

/-- A text made of a path and two numbers tells the numbers, whatever the path holds. -/
theorem path_numbers_eq_iff {a b c d : Nat} : s!"{path}:{a}:{b}" = s!"{path}:{c}:{d}" ↔ a = c ∧ b = d := by
  refine ⟨fun h => ?_, fun ⟨ha, hb⟩ => by rw [ha, hb]⟩
  have hletters : path.toList ++ ':' :: ((toString a).toList ++ ':' :: (toString b).toList) =
      path.toList ++ ':' :: ((toString c).toList ++ ':' :: (toString d).toList) := by
    have hspelled := congrArg String.toList h
    change (path ++ ":" ++ toString a ++ ":" ++ toString b).toList =
      (path ++ ":" ++ toString c ++ ":" ++ toString d).toList at hspelled
    have hcolon : ":".toList = [':'] := rfl
    simpa only [String.toList_append, hcolon, List.append_assoc, List.cons_append, List.nil_append] using hspelled
  have hnumbers := (List.cons_inj_right ':').mp (List.append_cancel_left hletters)
  obtain ⟨ha, _, hb⟩ := (List.append_cons_inj_of_notMem (colon_notMem_toString a)
    (colon_notMem_toString b)).mp hnumbers
  exact ⟨Nat.repr_injective (String.toList_inj.mp ha), Nat.repr_injective (String.toList_inj.mp hb)⟩

/-- Two entities of a file have one id exactly if their nodes start at one row and column. -/
theorem Declares.id_eq_iff {s : Source} (h : Declares path s d e) (h' : Declares path s d' e') :
    e.id = e'.id ↔ s.rank d.node.start = s.rank d'.node.start := by
  rw [h.id, h'.id, path_numbers_eq_iff, Source.rank, Source.rank, toLex_inj, Prod.mk.injEq,
    Nat.add_right_cancel_iff]
  rfl

/-! ## Entities by the bytes at which they start -/

/-- Unless a file is refused and has no entities, these are the entities that the walk has recorded for what the tree
declares, in the order of the bytes at which their nodes start, those with one start in the order of the walk. Two of
them have the same id exactly if their nodes start at the same byte. -/
theorem entities_follow_starts (f : Family) (path language text : String) (o : Options) (root : Node)
    (hstarts : ∀ n ∈ root.all, String.Pos.Raw.IsValid text ⟨n.start⟩) :
    let s := Source.ofString text;
    let file := f.read path language s o root;
    (f.refusal? s o root ≠ none ∧ file.entities = []) ∨
      ∃ fs recorded listed, f.extract path s o root = .ok fs ∧
        Recorded path s (f.declared s root) (fs.filterMap Finding.entity?) recorded ∧
        file.entities = listed.map Prod.snd ∧
        SortedBy (fun v => v.1.node.start) recorded listed ∧
        ∀ v ∈ listed, ∀ w ∈ listed, v.2.id = w.2.id ↔ v.1.node.start = w.1.node.start := by
  intro s file
  refine (Family.entities_read f path language s o root).imp_right ?_
  rintro ⟨fs, recorded, hextract, hrecorded, hentities⟩
  have hstart : ∀ v ∈ recorded, String.Pos.Raw.IsValid text ⟨v.1.node.start⟩ := by
    intro v hv
    exact hstarts _ (Node.mem_all_iff.mpr ⟨_, Family.at?_of_mem_declared (hrecorded.mem_declarations hv)⟩)
  have hstrict := Source.strictMonoOn_rank text
  have hsorted := sortedBy_mergeSort (fun v : Declaration × Entity => v.1.node.start) recorded
  refine ⟨fs, recorded, _, hextract, hrecorded, ?_, hsorted, fun v hv w hw => ?_⟩
  · rw [hentities]
    refine (List.map_mergeSort fun v hv w hw => ?_).symm
    rw [Bool.eq_iff_iff, decide_eq_true_iff,
      (hrecorded.declares v hv).startsBy_iff_rank_le (hrecorded.declares w hw)]
    exact (hstrict.le_iff_le (hstart v hv) (hstart w hw)).symm
  · replace hv := hsorted.perm.mem_iff.mp hv
    replace hw := hsorted.perm.mem_iff.mp hw
    rw [(hrecorded.declares v hv).id_eq_iff (hrecorded.declares w hw)]
    exact ⟨fun he => hstrict.injOn (hstart v hv) (hstart w hw) he, congrArg _⟩

/-- A function that returns another one, both with a parameter of two bytes. -/
def curried : Node :=
  .plain "program" none 0 13 [.plain "expression_statement" none 0 13
    [.plain "arrow_function" none 0 13
      [.plain "identifier" (some "parameter") 0 2 [], .plain "arrow_function" (some "body") 6 13
        [.plain "identifier" (some "parameter") 6 8 [], .plain "number" (some "body") 12 13 []]]]]

def curriedText : String := "é => é => 1"

/-- No other entity has the id of the inner function, though the path ends as if it named a position. -/
theorem entities_follow_starts_of_curried :
    let s := Source.ofString curriedText;
    let file := Family.script.read "a:1:0" "javascript" s .default curried;
    Family.script.refusal? s .default curried = none ∧ ∃ recorded listed : List (Declaration × Entity),
      (recorded.map fun v => (v.1.node.start, v.1.kind)) = [(0, .function), (6, .function)] ∧
      file.entities = listed.map Prod.snd ∧ SortedBy (fun v => v.1.node.start) recorded listed ∧
      ∀ v ∈ listed, ∀ w ∈ listed, v.2.id = w.2.id ↔ v.1.node.start = w.1.node.start := by
  intro s file
  have hclean : Family.script.refusal? s .default curried = none := by decide +kernel
  rcases entities_follow_starts .script "a:1:0" "javascript" curriedText .default curried
    (by decide +kernel) with ⟨hrefused, _⟩ | ⟨_, recorded, listed, _, hrecorded, hlisted⟩
  · exact absurd hclean hrefused
  · refine ⟨hclean, recorded, listed, ?_, hlisted⟩
    have hdeclared := congrArg (List.map fun d => (d.node.start, d.kind)) hrecorded.declarations
    rw [List.map_map] at hdeclared
    exact hdeclared.trans (by decide +kernel)

end CodeAtlas.Outline
