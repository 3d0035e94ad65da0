import Mathlib.Data.List.Forall2

/-! # Attempts

Results that may be errors, and a function that may fail, applied to every element of a list in turn.
The list of its results is there only if it failed nowhere. -/

namespace CodeAtlas

variable {α β γ ε : Type}

theorem eq_ok_of_toOption {x : Except ε α} {a : α} (h : x.toOption = some a) : x = .ok a := by
  cases x with
  | error e => cases h
  | ok b =>
    cases h
    rfl

theorem mapError_ok {δ : Type} (f : ε → δ) (a : α) : (Except.ok a).mapError f = .ok a := rfl

theorem mapError_error {δ : Type} (f : ε → δ) (e : ε) :
    (Except.error e : Except ε α).mapError f = .error (f e) := rfl

theorem mapError_eq_ok {δ : Type} {x : Except ε α} {f : ε → δ} {a : α} :
    x.mapError f = .ok a ↔ x = .ok a := by
  cases x <;> simp [Except.mapError]

theorem exists_of_map_ok {x : Except ε α} {k : α → β} {b : β} (h : x.map k = .ok b) :
    ∃ a, x = .ok a ∧ k a = b := by
  cases x with
  | error e => cases h
  | ok a =>
    cases h
    exact ⟨a, rfl, rfl⟩

theorem bind_eq_ok {x : Except ε α} {f : α → Except ε β} {b : β} :
    x >>= f = .ok b ↔ ∃ a, x = .ok a ∧ f a = .ok b := by
  cases x with
  | error e => simp [bind, Except.bind]
  | ok a => simp [bind, Except.bind]

theorem mapM_of_ok {f : α → Except ε β} {g : α → β} {l : List α}
    (h : ∀ a ∈ l, f a = .ok (g a)) : l.mapM f = .ok (l.map g) := by
  induction l with
  | nil => rfl
  | cons a l ih =>
    rw [List.mapM_cons, h a List.mem_cons_self, ih fun b hb => h b (List.mem_cons_of_mem a hb)]
    rfl

/-- A list of attempts succeeds with the results of its attempts. -/
theorem forall₂_of_mapM_ok {f : α → Except ε β} {l : List α} {r : List β} (h : l.mapM f = .ok r) :
    List.Forall₂ (fun a b => f a = .ok b) l r := by
  induction l generalizing r with
  | nil =>
    cases h
    exact .nil
  | cons a l ih =>
    rw [List.mapM_cons] at h
    cases ha : f a with
    | error e => simp [ha, bind, Except.bind] at h
    | ok b =>
      cases hl : l.mapM f with
      | error e => simp [ha, hl, bind, Except.bind] at h
      | ok bs =>
        simp only [ha, hl, bind, Except.bind, pure, Except.pure, Except.ok.injEq] at h
        rw [← h]
        exact .cons ha (ih hl)

theorem eq_of_mapM_ok {f : α → Except ε β} {g : α → β}
    (hg : ∀ a b, f a = .ok b → b = g a) {l : List α} {r : List β} (h : l.mapM f = .ok r) :
    r = l.map g ∧ ∀ a ∈ l, f a = .ok (g a) := by
  replace h := forall₂_of_mapM_ok h
  induction h with
  | nil => exact ⟨rfl, List.forall_mem_nil _⟩
  | cons ha _ ih =>
    obtain rfl := hg _ _ ha
    obtain ⟨rfl, hall⟩ := ih
    exact ⟨rfl, List.forall_mem_cons.mpr ⟨ha, hall⟩⟩

theorem mapM_map_result (f : α → Except ε β) (k : β → γ) (l : List α) :
    (l.mapM fun a => (f a).map k) = (l.mapM f).map (List.map k) := by
  induction l with
  | nil => rfl
  | cons a l ih =>
    rw [List.mapM_cons, List.mapM_cons, ih]
    cases f a with
    | error e => rfl
    | ok b => cases l.mapM f <;> rfl

/-- What is picked from each result stands in a relation, and so does what is picked from all results. -/
theorem forall₂_flatten_of_mapM_ok {δ : Type} {R : γ → δ → Prop} {f : α → Except ε (List β)} {k : β → Option δ}
    {g : α → List γ} (hf : ∀ a bs, f a = .ok bs → List.Forall₂ R (g a) (bs.filterMap k)) {l : List α}
    {r : List (List β)} (h : l.mapM f = .ok r) : List.Forall₂ R (l.flatMap g) (r.flatten.filterMap k) := by
  replace h := forall₂_of_mapM_ok h
  induction h with
  | nil => exact .nil
  | cons ha _ ih =>
    rw [List.flatMap_cons, List.flatten_cons, List.filterMap_append]
    exact List.rel_append (hf _ _ ha) ih

theorem filterMap_flatten_of_mapM_ok {f : α → Except ε (List β)} {k : β → Option γ} {g : α → List γ}
    (hf : ∀ a bs, f a = .ok bs → bs.filterMap k = g a) {l : List α} {r : List (List β)} (h : l.mapM f = .ok r) :
    r.flatten.filterMap k = l.flatMap g := by
  have hall : List.Forall₂ (· = ·) (l.flatMap g) (r.flatten.filterMap k) :=
    forall₂_flatten_of_mapM_ok (fun a bs ha => hf a bs ha ▸ List.forall₂_refl _) h
  exact (List.forall₂_eq_eq_eq ▸ hall).symm

/-! ## The first failure -/

/-- The error that a result is, if it is one. -/
def failure? : Except ε α → Option ε
  | .error e => some e
  | .ok _ => none

theorem failure?_eq_none_iff {x : Except ε α} : failure? x = none ↔ ∃ a, x = .ok a := by
  cases x with
  | error e => simp [failure?]
  | ok a => simp [failure?]

theorem failure?_eq_some_iff {x : Except ε α} {e : ε} : failure? x = some e ↔ x = .error e := by
  cases x with
  | error e' => simp [failure?]
  | ok a => simp [failure?]

theorem failure?_map (k : α → β) (x : Except ε α) : failure? (x.map k) = failure? x := by
  cases x <;> rfl

/-- A function that may fail stops at the first element of a list that it fails on. -/
theorem failure?_mapM (f : α → Except ε β) (l : List α) :
    failure? (l.mapM f) = l.findSome? fun a => failure? (f a) := by
  induction l with
  | nil => rfl
  | cons a l ih =>
    rw [List.mapM_cons, List.findSome?_cons, ← ih]
    cases f a with
    | error e => rfl
    | ok b => cases l.mapM f <;> rfl

/-- What holds of every result of an attempt holds of all results. -/
theorem forall_of_mapM_ok {f : α → Except ε β} {P : β → Prop} (hf : ∀ a b, f a = .ok b → P b)
    {l : List α} {r : List β} (h : l.mapM f = .ok r) : ∀ b ∈ r, P b := by
  replace h := forall₂_of_mapM_ok h
  induction h with
  | nil => exact List.forall_mem_nil _
  | cons ha _ ih => exact List.forall_mem_cons.mpr ⟨hf _ _ ha, ih⟩

end CodeAtlas
