import CodeAtlas.Proofs.Tree.Nodes

/-! # Ranges

In a tree whose nodes have their children within their own range, one after the other, the range of a node holds all
that is below it, and of two nodes neither of which is below the other one ends before the other begins. -/

namespace CodeAtlas.Tree.Node

variable {root n m c : Node} {pl pl' : Place}

/-- Whether a node has a range and its children have theirs within it, in their order and without overlap. -/
structure IsLaid (n : Node) : Prop where
  range : n.start ≤ n.stop
  inside : ∀ c ∈ n.children, n.start ≤ c.start ∧ c.stop ≤ n.stop
  apart : n.children.Pairwise fun c c' => c.stop ≤ c'.start

instance (n : Node) : Decidable n.IsLaid :=
  decidable_of_iff (n.start ≤ n.stop ∧ (∀ c ∈ n.children, n.start ≤ c.start ∧ c.stop ≤ n.stop) ∧
      n.children.Pairwise fun c c' => c.stop ≤ c'.start)
    ⟨fun ⟨h₁, h₂, h₃⟩ => ⟨h₁, h₂, h₃⟩, fun ⟨h₁, h₂, h₃⟩ => ⟨h₁, h₂, h₃⟩⟩

/-- Whether all nodes of a tree are laid out. -/
def WellLaid (root : Node) : Prop := ∀ n ∈ root.all, n.IsLaid

/-- Whether the range of a node lies within that of another. -/
def Within (n m : Node) : Prop := m.start ≤ n.start ∧ n.stop ≤ m.stop

namespace WellLaid

theorem isLaid (h : root.WellLaid) (hn : root.at? pl = some n) : n.IsLaid := h n (mem_all_iff.mpr ⟨pl, hn⟩)

theorem at? (h : root.WellLaid) (hn : root.at? pl = some n) : n.WellLaid := by
  intro m hm
  obtain ⟨pl', hm⟩ := mem_all_iff.mp hm
  have hplace : root.at? (pl ++ pl') = some m := by rw [at?_append, hn, Option.bind_some, hm]
  exact h.isLaid hplace

theorem child (h : root.WellLaid) {i : Nat} (hc : root.children[i]? = some c) : c.WellLaid := by
  have hplace : root.at? [i] = some c := by
    rw [Node.at?, hc]
    rfl
  exact h.at? hplace

theorem root_isLaid (h : root.WellLaid) : root.IsLaid := h root (mem_all_iff.mpr ⟨[], rfl⟩)

/-- What stands in a tree lies within its root. -/
theorem within (h : root.WellLaid) (hn : root.at? pl = some n) : n.Within root := by
  induction pl generalizing root with
  | nil =>
    cases hn
    exact ⟨Nat.le_refl _, Nat.le_refl _⟩
  | cons i pl ih =>
    obtain ⟨c, hc, hn⟩ := Option.bind_eq_some_iff.mp hn
    have hinside := h.root_isLaid.inside c (List.mem_of_getElem? hc)
    have hbelow := ih (h.child hc) hn
    exact ⟨Nat.le_trans hinside.1 hbelow.1, Nat.le_trans hbelow.2 hinside.2⟩

/-- What stands below a node lies within it. -/
theorem within_of_append {rest : Place} (h : root.WellLaid) (hn : root.at? pl = some n)
    (hm : root.at? (pl ++ rest) = some m) : m.Within n := by
  rw [at?_append, hn, Option.bind_some] at hm
  exact (h.at? hn).within hm

theorem apart_of_lt (h : root.WellLaid) {i j : Nat} {c' n' : Node} (hlt : i < j)
    (hc : root.children[i]? = some c) (hc' : root.children[j]? = some c') (hn : c.at? pl = some n)
    (hn' : c'.at? pl' = some n') : n.stop ≤ n'.start := by
  obtain ⟨hi, rfl⟩ := List.getElem?_eq_some_iff.mp hc
  obtain ⟨hj, rfl⟩ := List.getElem?_eq_some_iff.mp hc'
  calc n.stop ≤ root.children[i].stop := ((h.child hc).within hn).2
    _ ≤ root.children[j].start := List.pairwise_iff_getElem.mp h.root_isLaid.apart i j hi hj hlt
    _ ≤ n'.start := ((h.child hc').within hn').1

/-- Of two nodes of a tree one lies within the other, or one ends where or before the other begins. -/
theorem nested_or_apart {n' : Node} (h : root.WellLaid) (hn : root.at? pl = some n)
    (hn' : root.at? pl' = some n') :
    n.Within n' ∨ n'.Within n ∨ n.stop ≤ n'.start ∨ n'.stop ≤ n.start := by
  induction pl generalizing root pl' with
  | nil =>
    cases hn
    exact .inr (.inl (h.within hn'))
  | cons i pl ih =>
    cases pl' with
    | nil =>
      cases hn'
      exact .inl (h.within hn)
    | cons j pl' =>
      obtain ⟨c, hc, hn⟩ := Option.bind_eq_some_iff.mp hn
      obtain ⟨c', hc', hn'⟩ := Option.bind_eq_some_iff.mp hn'
      rcases Nat.lt_trichotomy i j with hlt | rfl | hlt
      · exact .inr (.inr (.inl (h.apart_of_lt hlt hc hc' hn hn')))
      · cases hc.symm.trans hc'
        exact ih (h.child hc) hn hn'
      · exact .inr (.inr (.inr (h.apart_of_lt hlt hc' hc hn' hn)))

end WellLaid

end CodeAtlas.Tree.Node
