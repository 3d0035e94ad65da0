import CodeAtlas.Proofs.Tree.Tour

/-! # All nodes of a tree

A walk leaves out what is not named. Here are all nodes of a tree, those for texts of the grammar too, in the order
of the text; they are the nodes that stand at the places of the tree. -/

namespace CodeAtlas.Tree.Node

variable {n m : Node} {pl : Place} {i : Nat}

mutual
/-- All nodes of a tree with their places, in the order of the text, parents before children. -/
def placed : Node → List (Place × Node)
  | mk f cs => ([], mk f cs) :: placedFrom 0 cs
/-- All nodes at or below the last of a node's children, the first of which has the number `i`. -/
def placedFrom (i : Nat) : List Node → List (Place × Node)
  | [] => []
  | c :: cs => c.placed.map (fun v => (i :: v.1, v.2)) ++ placedFrom (i + 1) cs
end

/-- All nodes of a tree, in the order of the text. -/
def all (n : Node) : List Node := n.placed.map Prod.snd

theorem placed_eq (n : Node) : n.placed = ([], n) :: placedFrom 0 n.children := by
  cases n with
  | mk f cs => rw [placed, children]

theorem all_eq (n : Node) : n.all = n :: n.children.flatMap all := by
  have hfrom (cs : List Node) (i : Nat) : (placedFrom i cs).map Prod.snd = cs.flatMap all := by
    induction cs generalizing i with
    | nil => rw [placedFrom, List.map_nil, List.flatMap_nil]
    | cons c cs ih =>
      rw [placedFrom, List.map_append, List.map_map, ih, List.flatMap_cons]
      rfl
  rw [all, placed_eq, List.map_cons, hfrom]

theorem mem_placedFrom_iff {cs : List Node} : (pl, m) ∈ placedFrom i cs ↔
    ∃ j rest c, pl = (i + j) :: rest ∧ cs[j]? = some c ∧ (rest, m) ∈ c.placed := by
  induction cs generalizing i with
  | nil => simp [placedFrom]
  | cons c cs ih =>
    rw [placedFrom, List.mem_append, List.mem_map, ih]
    constructor
    · rintro (⟨v, hv, he⟩ | ⟨j, rest, c', rfl, hc', hm⟩)
      · cases he
        exact ⟨0, v.1, c, rfl, rfl, hv⟩
      · exact ⟨j + 1, rest, c', by rw [Nat.add_assoc, Nat.add_comm 1], hc', hm⟩
    · rintro ⟨j, rest, c', rfl, hc', hm⟩
      cases j with
      | zero =>
        cases hc'
        exact .inl ⟨(rest, m), hm, rfl⟩
      | succ j => exact .inr ⟨j, rest, c', by rw [Nat.add_assoc, Nat.add_comm 1], hc', hm⟩

/-- The nodes of a tree are those at its places. -/
theorem mem_placed_iff : (pl, m) ∈ n.placed ↔ n.at? pl = some m := by
  induction pl generalizing n with
  | nil =>
    have hnone : ([], m) ∉ placedFrom 0 n.children := by
      rw [mem_placedFrom_iff]
      rintro ⟨_, _, _, he, _⟩
      cases he
    simp [placed_eq, hnone, at?, eq_comm]
  | cons i pl ih =>
    have hne : (i :: pl, m) ≠ ([], n) := fun he => by cases he
    rw [placed_eq, List.mem_cons, or_iff_right hne, mem_placedFrom_iff, at?, Option.bind_eq_some_iff]
    constructor
    · rintro ⟨j, rest, c, he, hc, hm⟩
      rw [Nat.zero_add] at he
      cases he
      exact ⟨c, hc, ih.mp hm⟩
    · rintro ⟨c, hc, hm⟩
      exact ⟨i, pl, c, by rw [Nat.zero_add], hc, ih.mpr hm⟩

theorem mem_all_iff : m ∈ n.all ↔ ∃ pl, n.at? pl = some m := by
  simp [all, mem_placed_iff]

mutual
theorem pairwise_placed : ∀ n : Node, n.placed.Pairwise fun v w => v.1 < w.1
  | mk f cs => by
    rw [placed, List.pairwise_cons]
    refine ⟨fun v hv => ?_, pairwise_placedFrom cs 0⟩
    obtain ⟨j, rest, _, hplace, _⟩ := mem_placedFrom_iff.mp hv
    rw [hplace]
    exact List.nil_lt_cons ..
theorem pairwise_placedFrom : ∀ (cs : List Node) (i : Nat),
    (placedFrom i cs).Pairwise fun v w => v.1 < w.1
  | [], i => by
    rw [placedFrom]
    exact .nil
  | c :: cs, i => by
    rw [placedFrom, List.pairwise_append]
    refine ⟨?_, pairwise_placedFrom cs (i + 1), fun v hv w hw => ?_⟩
    · exact List.pairwise_map.mpr ((pairwise_placed c).imp fun h =>
        List.cons_lt_cons_iff.mpr (.inr ⟨rfl, h⟩))
    · obtain ⟨v', _, rfl⟩ := List.mem_map.mp hv
      obtain ⟨j, rest, _, hplace, _⟩ := mem_placedFrom_iff.mp hw
      rw [hplace]
      exact List.cons_lt_cons_iff.mpr (.inl (by omega))
end

/-- What is looked for among all nodes is found at the first place that has it. -/
theorem find?_placed_eq_some_iff {p : Node → Bool} :
    n.placed.find? (fun v => p v.2) = some (pl, m) ↔
      n.at? pl = some m ∧ p m = true ∧
        ∀ pl' m', n.at? pl' = some m' → pl' < pl → p m' = false := by
  have hordered := pairwise_placed n
  constructor
  · intro h
    obtain ⟨hp, front, back, hsplit, hfront⟩ := List.find?_eq_some_iff_append.mp h
    rw [hsplit, List.pairwise_append, List.pairwise_cons] at hordered
    refine ⟨mem_placed_iff.mp (List.mem_of_find?_eq_some h), hp, fun pl' m' hm' hlt => ?_⟩
    have hmem := mem_placed_iff.mpr hm'
    rw [hsplit, List.mem_append, List.mem_cons] at hmem
    rcases hmem with hmem | he | hmem
    · simpa using hfront _ hmem
    · cases he
      exact absurd hlt (List.lt_irrefl _)
    · exact absurd (hordered.2.1.1 _ hmem) (List.lt_asymm hlt)
  · rintro ⟨hm, hp, hfirst⟩
    obtain ⟨front, back, hsplit⟩ := List.append_of_mem (mem_placed_iff.mpr hm)
    rw [hsplit, List.pairwise_append] at hordered
    refine List.find?_eq_some_iff_append.mpr ⟨hp, front, back, hsplit, fun v hv => ?_⟩
    have hmem : v ∈ n.placed := hsplit ▸ List.mem_append_left _ hv
    have hbefore := hordered.2.2 v hv _ List.mem_cons_self
    simpa using hfirst v.1 v.2 (mem_placed_iff.mp hmem) hbefore

theorem find?_all_eq_some_iff {p : Node → Bool} : n.all.find? p = some m ↔
    ∃ pl, n.at? pl = some m ∧ p m = true ∧
      ∀ pl' m', n.at? pl' = some m' → pl' < pl → p m' = false := by
  rw [all, List.find?_map, Option.map_eq_some_iff, Prod.exists]
  simp only [exists_eq_right]
  exact exists_congr fun pl => find?_placed_eq_some_iff

end CodeAtlas.Tree.Node
