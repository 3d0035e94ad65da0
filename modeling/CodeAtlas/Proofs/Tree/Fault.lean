import CodeAtlas.Proofs.Tree.Nodes
import CodeAtlas.Tree.Fault

/-! # The first fault

The search for a fault keeps the nodes that it has still to look at on one list and leaves out the children that
are not worth a look. As no fault is below a node that has no error, nothing is lost by that: what is found is the
first fault of all nodes in the order of the text, and what is reported is this fault, or the root if there is none. -/

namespace CodeAtlas.Tree

namespace Node

variable {root n m c : Node} {pl : Place}

/-! ## Errors go up -/

theorem hasError_eq (n : Node) : n.hasError = (n.face.flagged || n.isFault || n.children.any hasError) := by
  have hany (cs : List Node) : anyHasError cs = cs.any hasError := by
    induction cs with
    | nil => rfl
    | cons c cs ih => rw [anyHasError, ih, List.any_cons]
  cases n with
  | mk f cs => rw [hasError, hany, Bool.or_assoc f.flagged]; rfl

theorem hasError_plain (type : String) (field? : Option String) (start stop : Nat) (children : List Node) :
    (plain type field? start stop children).hasError = children.any hasError := hasError_eq _

/-- A node has an error if there is a fault anywhere in its tree. -/
theorem hasError_of_mem_all (hm : m ∈ n.all) (hfault : m.isFault = true) : n.hasError = true := by
  obtain ⟨pl, hpl⟩ := mem_all_iff.mp hm
  induction pl generalizing n with
  | nil =>
    cases hpl
    rw [hasError_eq, hfault, Bool.or_true, Bool.true_or]
  | cons i pl ih =>
    obtain ⟨c, hc, hpl⟩ := Option.bind_eq_some_iff.mp hpl
    have hbelow : n.children.any hasError = true :=
      List.any_eq_true.mpr ⟨c, List.mem_of_getElem? hc, ih (mem_all_iff.mpr ⟨pl, hpl⟩) hpl⟩
    rw [hasError_eq, hbelow, Bool.or_true]

/-! ## The search -/

/-- Leaving out trees in which nothing is to be found does not change what is found. -/
theorem find?_flatMap_filter {worth p : Node → Bool} (cs : List Node)
    (hworth : ∀ c : Node, ∀ m ∈ c.all, p m = true → worth c = true) :
    ((cs.filter worth).flatMap all).find? p = (cs.flatMap all).find? p := by
  induction cs with
  | nil => rfl
  | cons c cs ih =>
    rw [List.filter_cons, List.flatMap_cons, List.find?_append, ← ih]
    split
    · rw [List.flatMap_cons, List.find?_append]
    · next hnot =>
      have hnone : c.all.find? p = none :=
        List.find?_eq_none.mpr fun m hm hp => hnot (hworth c m hm hp)
      rw [hnone, Option.none_or]

/-- If every tree with a fault is worth a look, the search finds the first fault in what is on its list. -/
theorem searchFault?_eq_find? {worth : Node → Bool}
    (hworth : ∀ c : Node, ∀ m ∈ c.all, m.isFault = true → worth c = true) (stack : List Node) :
    searchFault? worth stack = (stack.flatMap all).find? isFault := by
  fun_induction searchFault? worth stack with
  | case1 => rfl
  | case2 n rest hfault =>
    rw [List.flatMap_cons, all_eq, List.cons_append, List.find?_cons_of_pos hfault]
  | case3 n rest hnone ih =>
    rw [ih, List.flatMap_append, List.find?_append, find?_flatMap_filter _ hworth, ← List.find?_append,
      List.flatMap_cons, all_eq n, List.cons_append, List.find?_cons_of_neg hnone]

theorem firstFault?_eq_find? (root : Node) : root.firstFault? = root.all.find? isFault := by
  have hworth (c m : Node) (hm : m ∈ c.all) (hfault : m.isFault = true) : c.mayHoldFault = true := by
    rw [mayHoldFault, hasError_of_mem_all hm hfault, Bool.true_or]
  rw [firstFault?, searchFault?_eq_find? hworth, List.flatMap_singleton]

/-- Whether a node is the first fault of a tree in the order of the text. -/
structure IsFirstFault (root : Node) (pl : Place) (m : Node) : Prop where
  stands : root.at? pl = some m
  isFault : m.isFault = true
  first : ∀ pl' m', root.at? pl' = some m' → pl' < pl → m'.isFault = false

theorem firstFault?_eq_some_iff : root.firstFault? = some m ↔ ∃ pl, root.IsFirstFault pl m := by
  rw [firstFault?_eq_find?, find?_all_eq_some_iff]
  exact exists_congr fun pl => ⟨fun ⟨h₁, h₂, h₃⟩ => ⟨h₁, h₂, h₃⟩, fun ⟨h₁, h₂, h₃⟩ => ⟨h₁, h₂, h₃⟩⟩

theorem firstFault?_eq_none_iff : root.firstFault? = none ↔ ∀ m ∈ root.all, m.isFault = false := by
  rw [firstFault?_eq_find?, List.find?_eq_none]
  simp only [Bool.not_eq_true]

theorem isFault_of_firstFault? (h : root.firstFault? = some m) : m.isFault = true := by
  obtain ⟨pl, hm⟩ := firstFault?_eq_some_iff.mp h
  exact hm.isFault

/-- The node that is reported for a tree with an error. -/
theorem getD_firstFault?_eq_root_iff : root.firstFault?.getD root = root ↔
    root.isFault = true ∨ ∀ m ∈ root.all, m.isFault = false := by
  rw [← firstFault?_eq_none_iff]
  constructor
  · intro h
    cases hfirst : root.firstFault? with
    | none => exact .inr rfl
    | some m =>
      rw [hfirst, Option.getD_some] at h
      exact .inl (h ▸ isFault_of_firstFault? hfirst)
  · rintro (hfault | hnone)
    · rw [firstFault?_eq_find?, all_eq, List.find?_cons_of_pos hfault, Option.getD_some]
    · rw [hnone, Option.getD_none]

end Node

open Node

variable {s : Source} {root : Node}

theorem syntaxError?_of_hasError (h : root.hasError = true) :
    syntaxError? s root = some (faultMessage s (root.firstFault?.getD root)) := if_pos h

theorem syntaxError?_eq_none_iff : syntaxError? s root = none ↔ root.hasError = false := by
  simp [syntaxError?]

/-- Whether a message ends with the line and the column at which a node begins. -/
def EndsAt (s : Source) (m : Node) (message : String) : Prop :=
  ∃ words : String, message = s!"{words} ({s.line m}:{s.column m.start})"

theorem endsAt_faultMessage (s : Source) (m : Node) : EndsAt s m (faultMessage s m) := by
  have hplace (words : String) : EndsAt s m s!"{words} {place s m}" :=
    ⟨words, String.toList_inj.mp (by simp [place, toString])⟩
  let part := snippet ((s.textOf? m).getD "")
  rw [faultMessage]
  dsimp only
  split
  · exact hplace s!"Missing {Text.quoted m.type}"
  split
  · exact hplace "Unexpected end of input"
  · exact hplace s!"Unexpected token {Text.quoted part}"

/-- A tree is refused exactly if its root has an error. What is reported is the first fault in the order of the
text, of all nodes, named or not; and it is the root if there is no fault. The message ends with the line and the
column of what is reported. To pass over children without an error does not change what is found. -/
theorem syntaxError?_reports_first_fault (s : Source) (root : Node) :
    ((∃ message, syntaxError? s root = some message) ↔ root.hasError = true) ∧
    (∀ message, syntaxError? s root = some message → ∃ m, message = faultMessage s m ∧
      EndsAt s m message ∧ ((∃ pl, root.IsFirstFault pl m) ∨ (m = root ∧ ∀ n ∈ root.all, n.isFault = false))) ∧
    root.firstFault? = searchFault? (fun _ => true) [root] ∧
    (∀ m, root.firstFault? = some m ↔ ∃ pl, root.IsFirstFault pl m) ∧
    (root.firstFault?.getD root = root ↔
      root.isFault = true ∨ ∀ n ∈ root.all, n.isFault = false) := by
  have hall : searchFault? (fun _ => true) [root] = root.all.find? isFault := by
    rw [searchFault?_eq_find? fun _ _ _ _ => rfl, List.flatMap_singleton]
  refine ⟨?_, fun message hmessage => ?_, (firstFault?_eq_find? root).trans hall.symm,
    fun m => firstFault?_eq_some_iff, getD_firstFault?_eq_root_iff⟩
  · simp [syntaxError?]
  · obtain ⟨_, rfl⟩ : root.hasError = true ∧ faultMessage s (root.firstFault?.getD root) = message := by
      simpa [syntaxError?] using hmessage
    refine ⟨_, rfl, endsAt_faultMessage s _, ?_⟩
    cases hfirst : root.firstFault? with
    | none => exact .inr ⟨rfl, firstFault?_eq_none_iff.mp hfirst⟩
    | some m => exact .inl (firstFault?_eq_some_iff.mp hfirst)

/-- A semicolon that is missing below the first statement comes before an error that stands higher in the tree. -/
example :
    let semicolon := Node.mk ⟨";", false, none, 1, 1, false, true, false, false⟩ []
    let error := Node.mk ⟨"ERROR", true, none, 2, 3, true, false, false, false⟩ []
    (Node.plain "program" none 0 3 [.plain "expression_statement" none 0 1 [semicolon], error]).firstFault? =
      some semicolon :=
  (firstFault?_eq_find? _).trans rfl

end CodeAtlas.Tree
