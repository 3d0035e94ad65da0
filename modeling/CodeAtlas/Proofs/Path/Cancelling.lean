import CodeAtlas.Proofs.Path.Segments
import Mathlib.Logic.Relation

/-! # Cancelling double dots

Two dots cancel the part before them, unless that is two dots as well, and behind the root they say nothing. Whatever
is cancelled first, what is left once nothing more can be cancelled is always the same, and it is what `resolve`
computes in one go from the left. -/

namespace CodeAtlas.Path

open Relation (ReflTransGen)

variable {rooted : Bool} {ss ts us : List Segment}

/-- A part is cancelled together with the two dots behind it, or two dots right behind the root are. -/
inductive Cancels (rooted : Bool) : List Segment → List Segment → Prop
  | pair (front back : List Segment) {s : Segment} : s ≠ up →
      Cancels rooted (front ++ s :: up :: back) (front ++ back)
  | top (back : List Segment) : rooted = true → Cancels rooted (up :: back) back

/-- What is left of some parts when nothing more can be cancelled. -/
structure Settles (rooted : Bool) (ss ts : List Segment) : Prop where
  cancels : ReflTransGen (Cancels rooted) ss ts
  settled : ∀ us, ¬ Cancels rooted ts us

theorem Cancels.length_lt (h : Cancels rooted ss ts) : ts.length < ss.length := by
  cases h with
  | pair front back _ =>
    simp only [List.length_append, List.length_cons]
    omega
  | top back _ => simp

theorem enter_of_ne_up {s : Segment} (h : s ≠ up) (acc : List Segment) : enter rooted acc s = s :: acc := by
  simp [enter, h]

theorem enter_up_cons {s : Segment} (h : s ≠ up) (acc : List Segment) : enter rooted (s :: acc) up = acc := by
  simp [enter, h]

/-- What is cancelled makes no difference to the parts that are resolved. -/
theorem Cancels.resolve_eq (h : Cancels rooted ss ts) : resolve rooted ss = resolve rooted ts := by
  unfold resolve
  cases h with
  | pair front back hs =>
    rw [List.foldl_append, List.foldl_cons, List.foldl_cons, enter_of_ne_up hs, enter_up_cons hs, List.foldl_append]
  | top back hrooted =>
    subst hrooted
    rfl

theorem resolve_eq_of_cancels (h : ReflTransGen (Cancels rooted) ss ts) : resolve rooted ss = resolve rooted ts := by
  induction h with
  | refl => rfl
  | tail _ hstep ih => exact ih.trans hstep.resolve_eq

/-- To enter a part is to cancel what there is to cancel at the end of the path. -/
theorem cancels_enter (acc : List Segment) (s : Segment) (back : List Segment) :
    ReflTransGen (Cancels rooted) (acc.reverse ++ s :: back) ((enter rooted acc s).reverse ++ back) := by
  by_cases hs : s = up
  · subst hs
    cases acc with
    | nil =>
      cases rooted with
      | true => exact .single (.top back rfl)
      | false => exact .refl
    | cons t acc =>
      by_cases ht : t = up
      · subst ht
        simp [enter, ReflTransGen.refl]
      · rw [enter_up_cons ht, List.reverse_cons, List.append_assoc]
        exact .single (.pair acc.reverse back ht)
  · rw [enter_of_ne_up hs, List.reverse_cons, List.append_assoc]
    exact .refl

theorem cancels_foldl (rooted : Bool) (acc ss : List Segment) :
    ReflTransGen (Cancels rooted) (acc.reverse ++ ss) (ss.foldl (enter rooted) acc).reverse := by
  induction ss generalizing acc with
  | nil =>
    rw [List.append_nil]
    exact .refl
  | cons s ss ih => exact (cancels_enter acc s ss).trans (ih (enter rooted acc s))

/-- What is resolved cannot be cancelled any further: it would get shorter, but it is resolved to itself. -/
theorem settles_resolve (rooted : Bool) (ss : List Segment) : Settles rooted ss (resolve rooted ss) where
  cancels := cancels_foldl rooted [] ss
  settled us h := by
    have hsame := resolve_eq_of_cancels (cancels_foldl rooted [] ss)
    have hlength : (resolve rooted ss).length ≤ us.length := calc
      (resolve rooted ss).length = (resolve rooted us).length := by
        rw [← h.resolve_eq]
        exact congrArg List.length hsame
      _ ≤ us.length := (resolve_sublist rooted us).length_le
    exact absurd h.length_lt (Nat.not_lt.mpr hlength)

theorem settles_iff : Settles rooted ss ts ↔ ts = resolve rooted ss := by
  constructor
  · intro h
    rcases ReflTransGen.cases_head (settles_resolve rooted ts).cancels with he | ⟨us, hstep, _⟩
    · rw [resolve_eq_of_cancels h.cancels, ← he]
    · exact absurd hstep (h.settled us)
  · rintro rfl
    exact settles_resolve rooted ss

theorem resolve_resolve (rooted : Bool) (ss : List Segment) :
    resolve rooted (resolve rooted ss) = resolve rooted ss :=
  (resolve_eq_of_cancels (settles_resolve rooted ss).cancels).symm

/-! ## Where double dots are left -/

/-- Names behind some double dots, of which there are none behind the root. -/
def IsClimb (rooted : Bool) (ss : List Segment) : Prop :=
  ∃ n names, ss = List.replicate n up ++ names ∧ (∀ s ∈ names, s ≠ up) ∧ (rooted = true → n = 0)

/-- Double dots stay where they are only behind other double dots. -/
theorem exists_foldl_enter (n : Nat) (names : List Segment) (hnames : ∀ s ∈ names, s ≠ up)
    (hn : rooted = true → n = 0) (ss : List Segment) : ∃ n' names',
      ss.foldl (enter rooted) (names ++ List.replicate n up) = names' ++ List.replicate n' up ∧
        (∀ s ∈ names', s ≠ up) ∧ (rooted = true → n' = 0) := by
  induction ss generalizing n names with
  | nil => exact ⟨n, names, rfl, hnames, hn⟩
  | cons s ss ih =>
    rw [List.foldl_cons]
    by_cases hs : s = up
    · subst hs
      cases names with
      | nil =>
        cases n with
        | zero =>
          cases rooted with
          | true => exact ih 0 [] hnames hn
          | false => exact ih 1 [] hnames (by simp)
        | succ n =>
          have hroot : rooted ≠ true := fun h => Nat.succ_ne_zero n (hn h)
          exact ih (n + 2) [] hnames fun h => absurd h hroot
      | cons t names =>
        obtain ⟨ht, hnames⟩ := List.forall_mem_cons.mp hnames
        rw [List.cons_append, enter_up_cons ht]
        exact ih n names hnames hn
    · rw [enter_of_ne_up hs, ← List.cons_append]
      exact ih n (s :: names) (List.forall_mem_cons.mpr ⟨hs, hnames⟩) hn

theorem isClimb_resolve (rooted : Bool) (ss : List Segment) : IsClimb rooted (resolve rooted ss) := by
  have hroot : rooted = true → 0 = 0 := fun _ => rfl
  obtain ⟨n, names, he, hnames, hn⟩ := exists_foldl_enter 0 [] (List.forall_mem_nil _) hroot ss
  refine ⟨n, names.reverse, ?_, by simpa using hnames, hn⟩
  rw [resolve, show ([] : List Segment) = [] ++ List.replicate 0 up from rfl, he]
  simp

end CodeAtlas.Path
