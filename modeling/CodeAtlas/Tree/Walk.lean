import CodeAtlas.Tree.Node

/-! # Walks

A walk visits the root of a tree and everything below it that is reached through named
children, parents before children and children from left to right. Each visit comes with what
the nodes above it pass down. The nodes still to be visited are kept on a list of their own,
so that no nesting is too deep. -/

namespace CodeAtlas.Tree

namespace Node

mutual
def size : Node → Nat
  | mk _ cs => 1 + sizeAll cs
def sizeAll : List Node → Nat
  | [] => 0
  | c :: cs => c.size + sizeAll cs
end

theorem size_eq (n : Node) : n.size = 1 + sizeAll n.children := by
  cases n with
  | mk => simp only [size, children]

/-- What a child gets from its parent, given its place among all children, and the child. -/
def handDown {γ : Type} (down : γ → Node → Nat → γ) (above : γ) (n : Node) : List (γ × Node) :=
  (n.children.zipIdx.filter fun (c, _) => c.face.named).map fun (c, i) => (down above n i, c)

def pendingSize {γ : Type} (stack : List (γ × Node)) : Nat := sizeAll (stack.map Prod.snd)

theorem sizeAll_append (xs ys : List Node) : sizeAll (xs ++ ys) = sizeAll xs + sizeAll ys := by
  induction xs with
  | nil => simp [sizeAll]
  | cons x xs ih => simp only [List.cons_append, sizeAll, ih]; omega

theorem sizeAll_le_of_sublist {xs ys : List Node} (h : xs.Sublist ys) : sizeAll xs ≤ sizeAll ys := by
  induction h with
  | slnil => exact Nat.le_refl _
  | cons _ _ ih => simp only [sizeAll]; omega
  | cons_cons _ _ ih => simp only [sizeAll]; omega

theorem pendingSize_handDown_lt {γ : Type} (down : γ → Node → Nat → γ) (above : γ) (n : Node) :
    pendingSize (handDown down above n) < n.size := by
  have hsub : ((handDown down above n).map Prod.snd).Sublist n.children := by
    rw [handDown, List.map_map]
    have h := (List.filter_sublist (p := fun (c, _) => c.face.named) (l := n.children.zipIdx)).map Prod.fst
    rwa [List.zipIdx_map_fst] at h
  have := sizeAll_le_of_sublist hsub
  rw [pendingSize, size_eq]
  omega

/-- Visits everything on the list, first entry first. -/
def visitAll {γ : Type} (down : γ → Node → Nat → γ) (stack : List (γ × Node)) :
    List (γ × Node) :=
  match stack with
  | [] => []
  | (above, n) :: rest => (above, n) :: visitAll down (handDown down above n ++ rest)
termination_by pendingSize stack
decreasing_by
  have := pendingSize_handDown_lt down above n
  simp only [pendingSize, List.map_append, sizeAll_append, List.map_cons, sizeAll] at *
  omega

/-- The visits of a walk over a tree. -/
def walk {γ : Type} (down : γ → Node → Nat → γ) (top : γ) (root : Node) : List (γ × Node) :=
  visitAll down [(top, root)]

end Node

end CodeAtlas.Tree
