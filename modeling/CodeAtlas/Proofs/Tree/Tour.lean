import CodeAtlas.Tree.Walk

/-! # Tours

A walk keeps the nodes that it has still to visit on one list, with siblings and descendants mixed. Followed
turn by turn it comes to every node that is reached through named children, to each once, in the order of the
text; and what is handed down to a node depends on nothing but the nodes above it. -/

namespace CodeAtlas.Tree

/-- The way to a node: the nodes above it, from the root down, each with the child that is next. -/
abbrev Trail := List (Node × Nat)

/-- Where a node stands in a tree: the children to take, from the root down. Nodes come in the order of the
text, parents before children, exactly if their places are in the order of a dictionary. -/
abbrev Place := List Nat

def Trail.place (t : Trail) : Place := t.map Prod.snd

namespace Node

/-- The node at a place. -/
def at? : Node → Place → Option Node
  | n, [] => some n
  | n, i :: rest => n.children[i]?.bind (·.at? rest)

/-- What a root reaches through named children, and the way there. -/
inductive Reaches (root : Node) : Trail → Node → Prop
  | root : Reaches root [] root
  | child {t : Trail} {n c : Node} {i : Nat} : Reaches root t n → n.children[i]? = some c →
      c.face.named = true → Reaches root (t ++ [(n, i)]) c

variable {root n m c : Node} {t : Trail} {i : Nat}

theorem at?_append (n : Node) (pl rest : Place) :
    n.at? (pl ++ rest) = (n.at? pl).bind (·.at? rest) := by
  induction pl generalizing n with
  | nil => rfl
  | cons i pl ih =>
    rw [List.cons_append, at?, at?, Option.bind_assoc]
    exact congrArg _ (funext ih)

theorem Reaches.at?_place (h : root.Reaches t n) : root.at? t.place = some n := by
  induction h with
  | root => rfl
  | @child t n c i _ hc _ ih =>
    rw [Trail.place] at ih ⊢
    rw [List.map_append, at?_append, ih]
    simp [at?, hc]

/-! ## Numbered children -/

/-- The named children of a node, each with its number among all children. -/
def numbered (n : Node) : List (Node × Nat) := n.children.zipIdx.filter (·.1.face.named)

theorem namedChildren_eq_map_numbered (n : Node) : n.namedChildren = n.numbered.map Prod.fst := by
  have hfst := List.zipIdx_map_fst 0 n.children
  rw [namedChildren, numbered]
  conv => lhs; rw [← hfst]
  rw [List.filter_map]
  rfl

theorem getElem?_of_mem_numbered (h : (c, i) ∈ n.numbered) : n.children[i]? = some c :=
  List.mem_zipIdx_iff_getElem?.mp (List.mem_filter.mp h).1

theorem mem_numbered_iff : (c, i) ∈ n.numbered ↔ n.children[i]? = some c ∧ c.face.named = true := by
  rw [numbered, List.mem_filter, List.mem_zipIdx_iff_getElem?]

/-- Numbered children come in the order of their numbers. -/
theorem sorted_numbered (n : Node) : n.numbered.Pairwise fun a b => a.2 < b.2 := by
  refine List.Pairwise.filter _ (List.pairwise_map.mp ?_)
  rw [List.zipIdx_map_snd]
  exact List.pairwise_lt_range'

theorem pairwise_numbered (n : Node) : n.numbered.Pairwise fun a b => a.2 ≠ b.2 :=
  (sorted_numbered n).imp Nat.ne_of_lt

/-- The first child with a field name, named or not, with its number. -/
def numberedChild? (n : Node) (field : String) : Option (Node × Nat) :=
  n.children.zipIdx.find? (·.1.face.field? == some field)

theorem child?_eq_map_numberedChild? (n : Node) (field : String) :
    n.child? field = (n.numberedChild? field).map Prod.fst := by
  have hfst := List.zipIdx_map_fst 0 n.children
  rw [child?, numberedChild?]
  conv => lhs; rw [← hfst]
  rw [List.find?_map]
  rfl

theorem getElem?_of_numberedChild? {field : String} (h : n.numberedChild? field = some (c, i)) :
    n.children[i]? = some c :=
  List.mem_zipIdx_iff_getElem?.mp (List.mem_of_find?_eq_some h)

/-! ## What is reached -/

/-- What is reached from a named child is reached from its parent. -/
theorem Reaches.cons (hc : n.children[i]? = some c) (hnamed : c.face.named = true)
    (h : c.Reaches t m) : n.Reaches ((n, i) :: t) m := by
  induction h with
  | root => exact .child .root hc hnamed
  | child _ hc' hnamed' ih => exact .child ih hc' hnamed'

/-- The nodes above a node that is reached are reached on the way. -/
theorem Reaches.of_append {rest : Trail} (h : root.Reaches (t ++ (n, i) :: rest) m) : root.Reaches t n := by
  generalize htrail : t ++ (n, i) :: rest = trail at h
  induction h generalizing rest with
  | root => exact absurd htrail (by simp)
  | child hn _ _ ih =>
    rcases List.eq_nil_or_concat rest with rfl | ⟨rest, last, rfl⟩
    · obtain ⟨rfl, hstep⟩ := List.append_inj' htrail rfl
      cases hstep
      exact hn
    · rw [List.concat_eq_append, ← List.cons_append, ← List.append_assoc] at htrail
      exact ih (List.append_inj' htrail rfl).1

/-! ## The order of the text -/

mutual
/-- All that a node reaches, in the order of the text, parents before children. -/
def tour : Node → List (Trail × Node)
  | mk f cs => ([], mk f cs) :: tourFrom (mk f cs) 0 cs
/-- All that a node reaches through the last of its children, the first of which has the number `i`. -/
def tourFrom (n : Node) (i : Nat) : List Node → List (Trail × Node)
  | [] => []
  | c :: cs =>
    (if c.face.named then c.tour.map fun v => ((n, i) :: v.1, v.2) else []) ++ tourFrom n (i + 1) cs
end

theorem tour_eq (n : Node) : n.tour = ([], n) :: tourFrom n 0 n.children := by
  cases n with
  | mk f cs => rw [tour, children]

theorem mem_tourFrom_cons {cs : List Node} :
    (t, m) ∈ tourFrom n i (c :: cs) ↔
      (c.face.named = true ∧ ∃ t', t = (n, i) :: t' ∧ (t', m) ∈ c.tour) ∨
        (t, m) ∈ tourFrom n (i + 1) cs := by
  rw [tourFrom, List.mem_append]
  refine or_congr_left ?_
  split
  · next hnamed =>
    rw [List.mem_map]
    constructor
    · rintro ⟨v, hv, he⟩
      cases he
      exact ⟨hnamed, v.1, rfl, hv⟩
    · rintro ⟨_, t', rfl, ht'⟩
      exact ⟨(t', m), ht', rfl⟩
  · next hnamed => simp [hnamed]

mutual
theorem reaches_of_mem_tour : ∀ n : Node, ∀ t m, (t, m) ∈ n.tour → n.Reaches t m
  | mk f cs, t, m, h => by
    rw [tour, List.mem_cons] at h
    rcases h with he | h
    · cases he
      exact .root
    · exact reaches_of_mem_tourFrom (mk f cs) cs 0 t m rfl h
theorem reaches_of_mem_tourFrom (n : Node) : ∀ (cs : List Node) (i : Nat) (t : Trail) (m : Node),
    n.children.drop i = cs → (t, m) ∈ tourFrom n i cs → n.Reaches t m
  | [], _, _, _, _, h => by
    rw [tourFrom] at h
    cases h
  | c :: cs, i, t, m, hcs, h => by
    rcases mem_tourFrom_cons.mp h with ⟨hnamed, t', rfl, hmem⟩ | h
    · have hc : n.children[i]? = some c := by
        rw [← List.head?_drop, hcs, List.head?_cons]
      exact (reaches_of_mem_tour c t' m hmem).cons hc hnamed
    · refine reaches_of_mem_tourFrom n cs (i + 1) t m ?_ h
      rw [← List.tail_drop, hcs, List.tail_cons]
end

theorem child_mem_tourFrom {cs : List Node} {j : Nat} (hc : cs[j]? = some c)
    (hnamed : c.face.named = true) : ([(n, i + j)], c) ∈ tourFrom n i cs := by
  induction cs generalizing i j with
  | nil => cases hc
  | cons c' cs ih =>
    rw [mem_tourFrom_cons]
    cases j with
    | zero =>
      cases hc
      exact .inl ⟨hnamed, [], rfl, by rw [tour_eq]; exact List.mem_cons_self⟩
    | succ j =>
      right
      have hrest := ih (i := i + 1) (j := j) (by simpa using hc)
      rwa [Nat.add_right_comm] at hrest

mutual
/-- With a node a tour comes to the named children of the node. -/
theorem child_mem_tour : ∀ root : Node, ∀ t n c i, (t, n) ∈ root.tour → n.children[i]? = some c →
    c.face.named = true → (t ++ [(n, i)], c) ∈ root.tour
  | mk f cs, t, n, c, i, h, hc, hnamed => by
    rw [tour, List.mem_cons] at h ⊢
    right
    rcases h with he | h
    · cases he
      have hchild := child_mem_tourFrom (n := mk f cs) (i := 0) hc hnamed
      rwa [Nat.zero_add] at hchild
    · exact below_mem_tourFrom (mk f cs) cs 0 t n c i h hc hnamed
theorem below_mem_tourFrom (top : Node) : ∀ cs k t n c i, (t, n) ∈ tourFrom top k cs →
    n.children[i]? = some c → c.face.named = true → (t ++ [(n, i)], c) ∈ tourFrom top k cs
  | [], _, _, _, _, _, h, _, _ => by
    rw [tourFrom] at h
    cases h
  | c' :: cs, k, t, n, c, i, h, hc, hnamed => by
    rw [mem_tourFrom_cons] at h ⊢
    refine h.imp ?_ fun h => below_mem_tourFrom top cs (k + 1) t n c i h hc hnamed
    rintro ⟨hnamed', t', rfl, ht'⟩
    exact ⟨hnamed', t' ++ [(n, i)], rfl, child_mem_tour c' t' n c i ht' hc hnamed⟩
end

/-- A tour comes to exactly what is reached. -/
theorem mem_tour_iff : (t, n) ∈ root.tour ↔ root.Reaches t n := by
  constructor
  · exact reaches_of_mem_tour root t n
  · intro h
    induction h with
    | root =>
      rw [tour_eq]
      exact List.mem_cons_self
    | child _ hc hnamed ih => exact child_mem_tour root _ _ _ _ ih hc hnamed

theorem le_of_mem_tourFrom {cs : List Node} (h : (t, m) ∈ tourFrom n i cs) :
    ∃ j t', i ≤ j ∧ t = (n, j) :: t' := by
  induction cs generalizing i with
  | nil =>
    rw [tourFrom] at h
    cases h
  | cons c cs ih =>
    rcases mem_tourFrom_cons.mp h with ⟨_, t', rfl, _⟩ | h
    · exact ⟨i, t', Nat.le_refl i, rfl⟩
    · obtain ⟨j, t', hj, rfl⟩ := ih h
      exact ⟨j, t', by omega, rfl⟩

/-- Whether one visit comes before another in the order of the text. -/
def Before (v w : Trail × Node) : Prop := Trail.place v.1 < Trail.place w.1

mutual
theorem pairwise_tour : ∀ n : Node, n.tour.Pairwise Before
  | mk f cs => by
    rw [tour, List.pairwise_cons]
    refine ⟨fun v hv => ?_, pairwise_tourFrom (mk f cs) cs 0⟩
    obtain ⟨j, t', _, hv⟩ := le_of_mem_tourFrom (t := v.1) (m := v.2) hv
    rw [Before, hv]
    exact List.nil_lt_cons ..
theorem pairwise_tourFrom (n : Node) : ∀ cs i, (tourFrom n i cs).Pairwise Before
  | [], i => by
    rw [tourFrom]
    exact .nil
  | c :: cs, i => by
    rw [tourFrom, List.pairwise_append]
    refine ⟨?_, pairwise_tourFrom n cs (i + 1), fun v hv w hw => ?_⟩
    · split
      · refine List.pairwise_map.mpr ((pairwise_tour c).imp fun h => ?_)
        exact List.cons_lt_cons_iff.mpr (.inr ⟨rfl, h⟩)
      · exact .nil
    · obtain ⟨j, t', hj, hw⟩ := le_of_mem_tourFrom (t := w.1) (m := w.2) hw
      split at hv
      · obtain ⟨v', _, rfl⟩ := List.mem_map.mp hv
        rw [Before, hw]
        exact List.cons_lt_cons_iff.mpr (.inl hj)
      · cases hv
end

theorem nodup_of_before {l : List (Trail × Node)} (h : l.Pairwise Before) : l.Nodup := by
  refine h.imp fun {v w} hbefore he => ?_
  subst he
  exact List.lt_irrefl _ hbefore

/-- What is looked for in a tour is found at the first node in the order of the text that has it. -/
theorem findSome?_tour_eq_some_iff {β : Type} {f : Trail × Node → Option β} {b : β} :
    root.tour.findSome? f = some b ↔ ∃ t n, root.Reaches t n ∧ f (t, n) = some b ∧
      ∀ t' n', root.Reaches t' n' → t'.place < t.place → f (t', n') = none := by
  have hordered := pairwise_tour root
  rw [List.findSome?_eq_some_iff]
  constructor
  · rintro ⟨front, ⟨t, n⟩, back, hsplit, hb, hfront⟩
    rw [hsplit, List.pairwise_append, List.pairwise_cons] at hordered
    refine ⟨t, n, mem_tour_iff.mp (hsplit ▸ by simp), hb, fun t' n' hn' hlt => ?_⟩
    have hmem := mem_tour_iff.mpr hn'
    rw [hsplit, List.mem_append, List.mem_cons] at hmem
    rcases hmem with hmem | hmem | hmem
    · exact hfront _ hmem
    · cases hmem
      exact absurd hlt (List.lt_irrefl _)
    · exact absurd hlt (List.lt_asymm (hordered.2.1.1 _ hmem))
  · rintro ⟨t, n, hn, hb, hfirst⟩
    obtain ⟨front, back, hsplit⟩ := List.append_of_mem (mem_tour_iff.mpr hn)
    refine ⟨front, (t, n), back, hsplit, hb, fun v hv => ?_⟩
    have hmem : v ∈ root.tour := hsplit ▸ List.mem_append_left _ hv
    rw [hsplit, List.pairwise_append] at hordered
    exact hfirst v.1 v.2 (mem_tour_iff.mp hmem) (hordered.2.2 v hv _ List.mem_cons_self)

theorem findSome?_tour_eq_none_iff {β : Type} {f : Trail × Node → Option β} :
    root.tour.findSome? f = none ↔ ∀ t n, root.Reaches t n → f (t, n) = none := by
  rw [List.findSome?_eq_none_iff]
  exact ⟨fun h t n hn => h _ (mem_tour_iff.mpr hn), fun h v hv => h _ _ (mem_tour_iff.mp hv)⟩

/-! ## What is handed down -/

variable {γ : Type} (down : γ → Node → Nat → γ)

/-- What comes down a way from what stands above its beginning. -/
def handed (top : γ) (t : Trail) : γ := t.foldl (fun above step => down above step.1 step.2) top

theorem handed_append (top : γ) (t : Trail) (n : Node) (i : Nat) :
    handed down top (t ++ [(n, i)]) = down (handed down top t) n i := by
  rw [handed, List.foldl_append]
  rfl

mutual
/-- The first node on the list is toured to the end before the rest of the list is visited. -/
theorem visitAll_cons : ∀ (n : Node) (above : γ) (rest : List (γ × Node)),
    visitAll down ((above, n) :: rest) =
      (n.tour.map fun v => (handed down above v.1, v.2)) ++ visitAll down rest
  | mk f cs, above, rest => by
    rw [visitAll, tour, List.map_cons, List.cons_append]
    exact congrArg _ (visitAll_children (mk f cs) above cs 0 rest)
theorem visitAll_children (n : Node) (above : γ) : ∀ (cs : List Node) (i : Nat)
    (rest : List (γ × Node)),
    visitAll down ((((cs.zipIdx i).filter fun (c, _) => c.face.named).map
        fun (c, j) => (down above n j, c)) ++ rest) =
      ((tourFrom n i cs).map fun v => (handed down above v.1, v.2)) ++ visitAll down rest
  | [], i, rest => by
    rw [tourFrom]
    rfl
  | c :: cs, i, rest => by
    have hrest := visitAll_children n above cs (i + 1) rest
    rw [List.zipIdx_cons, List.filter_cons, tourFrom]
    dsimp only
    split
    · rw [List.map_cons, List.cons_append, visitAll_cons c, hrest, List.map_append, List.map_map,
        List.append_assoc]
      rfl
    · exact hrest
end

/-- A walk is a tour, each node with what comes down the way to it. -/
theorem walk_eq_map_tour (top : γ) (root : Node) :
    root.walk down top = root.tour.map fun v => (handed down top v.1, v.2) := by
  rw [walk, visitAll_cons, visitAll, List.append_nil]

/-! ## Turn by turn -/

/-- One turn of a walk: the first node on the list makes room for its named children. -/
def turn : List (γ × Node) → List (γ × Node)
  | [] => []
  | (above, n) :: rest => handDown down above n ++ rest

/-- The list after some turns. -/
def after : Nat → List (γ × Node) → List (γ × Node)
  | 0, stack => stack
  | k + 1, stack => after k (turn down stack)

theorem head?_after (k : Nat) (stack : List (γ × Node)) :
    (after down k stack).head? = (visitAll down stack)[k]? := by
  induction k generalizing stack with
  | zero =>
    cases stack with
    | nil => rw [after, visitAll]; rfl
    | cons v stack => rw [after, visitAll]; rfl
  | succ k ih =>
    rw [after, ih]
    cases stack with
    | nil => simp [turn, visitAll]
    | cons v stack => rw [turn, visitAll.eq_def _ (v :: stack), List.getElem?_cons_succ]

/-- The visits of a walk, each with the way to the node. Before each turn the walk is at the next of them, and
it ends after as many turns as there are visits. -/
structure Walked (top : γ) (root : Node) (visited : List (Trail × Node)) : Prop where
  reached : ∀ t n, (t, n) ∈ visited ↔ root.Reaches t n
  ordered : visited.Pairwise Before
  visits : root.walk down top = visited.map fun v => (handed down top v.1, v.2)
  turns : ∀ k, (after down k [(top, root)]).head? = (root.walk down top)[k]?
  ends : ∀ k, after down k [(top, root)] = [] ↔ visited.length ≤ k

theorem walked_tour (top : γ) (root : Node) : Walked down top root root.tour where
  reached _ _ := mem_tour_iff
  ordered := pairwise_tour root
  visits := walk_eq_map_tour down top root
  turns k := head?_after down k _
  ends k := by
    rw [← List.head?_eq_none_iff, head?_after, ← walk, walk_eq_map_tour, List.getElem?_eq_none_iff,
      List.length_map]

variable {down} in
/-- There is but one order in which a walk can come to its nodes. -/
theorem Walked.eq_tour {top : γ} {visited : List (Trail × Node)} (h : Walked down top root visited) :
    visited = root.tour := by
  refine List.Perm.eq_of_pairwise (fun v w _ _ hvw hwv => absurd hwv (List.lt_asymm hvw)) h.ordered
    (pairwise_tour root) ?_
  refine (List.perm_ext_iff_of_nodup (nodup_of_before h.ordered) (nodup_of_before (pairwise_tour root))).mpr ?_
  exact fun v => (h.reached v.1 v.2).trans mem_tour_iff.symm

/-- A named node without a fault. -/
def plain (type : String) (field? : Option String) (start stop : Nat) (children : List Node) : Node :=
  .mk ⟨type, true, field?, start, stop, false, false, false, false⟩ children

end Node

end CodeAtlas.Tree
