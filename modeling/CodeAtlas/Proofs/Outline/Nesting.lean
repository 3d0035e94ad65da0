import CodeAtlas.Outline.Parse
import CodeAtlas.Proofs.Outline.Script.Refusal
import CodeAtlas.Proofs.Tree.Fault

/-! # Walks that break off

The names of a pattern are read by one call inside another for each pattern inside another, and there is room
for a limited number of calls. Where an exported declaration needs more, the walk through a script breaks off
and nothing is returned, unless the walk has ended before with something that is refused. Every other file is
returned. -/

namespace CodeAtlas.Outline

open CodeAtlas.Tree

namespace Script

variable {path : String} {s : Source} {sourceType : SourceType} {root n : Node} {t : Trail}

/-! ## One visit -/

theorem isTooDeep_iff : isTooDeep n = true ↔
    ∃ pattern, n.child? "name" = some pattern ∧ nestingLimit < nesting pattern := by
  rw [isTooDeep]
  cases n.child? "name" <;> simp

/-- What nests too deep is an export of variables, one of which has a name that cannot be read. -/
theorem nestsTooDeep_iff : nestsTooDeep n = true ↔
    n.type = "export_statement" ∧ n.hasToken "default" = false ∧
      ∃ d, n.child? "declaration" = some d ∧ d.type ∈ variableDeclarations ∧
        ∃ declarator ∈ d.namedChildren, declarator.type = "variable_declarator" ∧
          ∃ pattern, declarator.child? "name" = some pattern ∧ nestingLimit < nesting pattern := by
  rw [nestsTooDeep, Bool.and_eq_true, Bool.and_eq_true, beq_iff_eq, Bool.not_eq_true', and_assoc]
  refine and_congr_right fun _ => and_congr_right fun _ => ?_
  cases n.child? "declaration" with
  | none => simp
  | some d => simp [isTooDeep_iff]

theorem isModular_of_nestsTooDeep (h : nestsTooDeep n = true) : IsModular n := .inr (nestsTooDeep_iff.mp h).1

/-- Only a module gets as far as the names of an export. -/
theorem refusal?_of_nestsTooDeep (h : nestsTooDeep n = true) :
    refusal? s sourceType (t, n) = none ↔ sourceType = .asModule := by
  have hmodular := isModular_of_nestsTooDeep h
  rw [refusal?, reportedKind?_of_isModular hmodular]
  cases sourceType <;> simp [hmodular]

theorem stop?_eq (path : String) (s : Source) (sourceType : SourceType) (v : Trail × Node) :
    stop? path s sourceType v.1.getLast? v.2 = ((refusal? s sourceType v).map Stop.refused).or
      (if nestsTooDeep v.2 then some .exceeded else none) := by
  rw [← failure?_findings path, stop?]
  cases findings path s sourceType v.1.getLast? v.2 <;> rfl

/-! ## The whole walk -/

/-- Whether a node is the one at which the walk through a module breaks off: the first that nests too deep, if
nothing before it is refused. -/
structure BreaksOffAt (s : Source) (sourceType : SourceType) (root : Node) (t : Trail) (n : Node) : Prop where
  reached : root.Reaches t n
  isModule : sourceType = .asModule
  tooDeep : nestsTooDeep n = true
  first : ∀ t' n', root.Reaches t' n' → t'.place < t.place →
    refusal? s sourceType (t', n') = none ∧ nestsTooDeep n' = false

theorem breaksOff_iff : breaksOff path s sourceType root = true ↔
    ∃ t n, BreaksOffAt s sourceType root t n := by
  have hstops : breaksOff path s sourceType root =
      ((root.tour.findSome? fun v => ((refusal? s sourceType v).map Stop.refused).or
        (if nestsTooDeep v.2 then some .exceeded else none)) == some .exceeded) := by
    rw [breaksOff, visits_eq, List.findSome?_map]
    exact congrArg (fun f => root.tour.findSome? f == some .exceeded) (funext (stop?_eq path s sourceType))
  have hnone (v : Trail × Node) : ((refusal? s sourceType v).map Stop.refused).or
      (if nestsTooDeep v.2 then some .exceeded else none) = none ↔
        refusal? s sourceType v = none ∧ nestsTooDeep v.2 = false := by simp
  rw [hstops, beq_iff_eq, Node.findSome?_tour_eq_some_iff]
  refine exists_congr fun t => exists_congr fun n => ?_
  constructor
  · rintro ⟨hn, hstop, hfirst⟩
    obtain ⟨hallowed, hdeep⟩ : refusal? s sourceType (t, n) = none ∧ nestsTooDeep n = true := by
      simpa [Option.or_eq_some_iff] using hstop
    exact ⟨hn, (refusal?_of_nestsTooDeep hdeep).mp hallowed, hdeep,
      fun t' n' hn' hlt => (hnone _).mp (hfirst t' n' hn' hlt)⟩
  · intro h
    refine ⟨h.reached, ?_, fun t' n' hn' hlt => (hnone _).mpr (h.first t' n' hn' hlt)⟩
    simp [(refusal?_of_nestsTooDeep h.tooDeep).mpr h.isModule, h.tooDeep]

/-- Where nothing is refused, the walk breaks off if any node nests too deep. -/
theorem breaksOff_iff_of_allowed (hallowed : ∀ t n, root.Reaches t n → refusal? s sourceType (t, n) = none) :
    breaksOff path s sourceType root = true ↔ ∃ t n, root.Reaches t n ∧ nestsTooDeep n = true := by
  rw [breaksOff_iff]
  constructor
  · rintro ⟨t, n, h⟩
    exact ⟨t, n, h.reached, h.tooDeep⟩
  · rintro ⟨t, n, hn, hdeep⟩
    -- of all nodes that nest too deep the walk comes to one first
    have hsome : root.tour.findSome? (fun v => if nestsTooDeep v.2 then some () else none) ≠ none := by
      rw [Ne, Node.findSome?_tour_eq_none_iff]
      exact fun h => by simpa [hdeep] using h t n hn
    obtain ⟨_, hfound⟩ := Option.ne_none_iff_exists'.mp hsome
    obtain ⟨t, n, hn, hdeep, hfirst⟩ := Node.findSome?_tour_eq_some_iff.mp hfound
    have hdeep : nestsTooDeep n = true := by simpa using hdeep
    exact ⟨t, n, hn, (refusal?_of_nestsTooDeep hdeep).mp (hallowed t n hn), hdeep,
      fun t' n' hn' hlt => ⟨hallowed t' n' hn', by simpa using hfirst t' n' hn' hlt⟩⟩

/-! ## A name inside many arrays -/

/-- A name inside a number of arrays, the outermost of which begins at a byte. -/
def nestedName (field? : Option String) (start : Nat) : Nat → Node
  | 0 => .plain "identifier" field? start (start + 1) []
  | k + 1 => .plain "array_pattern" field? start (start + 2 * k + 3) [nestedName none (start + 1) k]

theorem nesting_nestedName (field? : Option String) (start k : Nat) :
    nesting (nestedName field? start k) = k + 2 := by
  induction k generalizing field? start with
  | zero => rfl
  | succ k ih =>
    have hnamed : (nestedName none (start + 1) k).face.named = true := by cases k <;> rfl
    simp [nestedName, Node.plain, nesting, nestingInNamed, hnamed, ih]
    omega

def nestedDeclarator (k : Nat) : Node :=
  .plain "variable_declarator" none 13 (2 * k + 18) [nestedName (some "name") 13 k,
    nestedName (some "value") (2 * k + 17) 0]

def nestedDeclaration (k : Nat) : Node :=
  .plain "lexical_declaration" (some "declaration") 7 (2 * k + 18) [nestedDeclarator k]

def nestedExport (k : Nat) : Node := .plain "export_statement" none 0 (2 * k + 18) [nestedDeclaration k]

/-- A module with nothing but an export of a name inside so many arrays. -/
def nestedScript (k : Nat) : Node := .plain "program" none 0 (2 * k + 18) [nestedExport k]

def nestedText (k : Nat) : Source :=
  .ofString ("export const " ++ String.ofList (List.replicate k '[') ++ "a" ++ String.ofList (List.replicate k ']') ++
    " = x")

theorem nestsTooDeep_nestedExport {k : Nat} (h : nestingLimit < k + 2) : nestsTooDeep (nestedExport k) = true := by
  have hname : (nestedDeclarator k).child? "name" = some (nestedName (some "name") 13 k) := by cases k <;> rfl
  refine nestsTooDeep_iff.mpr ⟨rfl, rfl, nestedDeclaration k, rfl,
    (by decide : "lexical_declaration" ∈ variableDeclarations), nestedDeclarator k, ?_, rfl, _, hname, ?_⟩
  · exact List.mem_singleton_self _
  · rwa [nesting_nestedName]

theorem hasError_nestedName (field? : Option String) (start k : Nat) :
    (nestedName field? start k).hasError = false := by
  induction k generalizing field? start with
  | zero => rfl
  | succ k ih =>
    simp [nestedName, Node.hasError_plain, ih]

theorem hasError_nestedScript (k : Nat) : (nestedScript k).hasError = false := by
  simp [nestedScript, nestedExport, nestedDeclaration, nestedDeclarator, Node.hasError_plain, hasError_nestedName]

/-- Nothing that the walk through such a module comes to is reported. -/
theorem reportedKind?_of_nestedScript {k : Nat} (h : (nestedScript k).Reaches t n) : reportedKind? t n = none := by
  have hnode : n ∈ [nestedScript k, nestedExport k, nestedDeclaration k, nestedDeclarator k] ∨
      ∃ field? start j, n = nestedName field? start j := by
    induction h with
    | root => exact .inl List.mem_cons_self
    | child _ hc _ ih =>
      have hchild := List.mem_of_getElem? hc
      rcases ih with hmem | ⟨field?, start, _ | j, rfl⟩
      · simp only [List.mem_cons, List.not_mem_nil, or_false] at hmem
        rcases hmem with rfl | rfl | rfl | rfl
        · cases List.mem_singleton.mp hchild
          simp
        · cases List.mem_singleton.mp hchild
          simp
        · cases List.mem_singleton.mp hchild
          simp
        · rcases List.mem_cons.mp hchild with rfl | hchild
          · exact .inr ⟨_, _, _, rfl⟩
          · cases List.mem_singleton.mp hchild
            exact .inr ⟨_, _, _, rfl⟩
      · cases hchild
      · cases List.mem_singleton.mp hchild
        exact .inr ⟨_, _, _, rfl⟩
  rcases hnode with hmem | ⟨field?, start, _ | j, rfl⟩
  · simp only [List.mem_cons, List.not_mem_nil, or_false] at hmem
    rcases hmem with rfl | rfl | rfl | rfl <;> rfl
  · rfl
  · rfl

theorem breaksOff_nestedScript {k : Nat} (h : nestingLimit < k + 2) (path : String) (s : Source) :
    breaksOff path s .asModule (nestedScript k) = true := by
  refine (breaksOff_iff_of_allowed fun t n hn => ?_).mpr
    ⟨_, _, .child .root (rfl : (nestedScript k).children[0]? = _) rfl, nestsTooDeep_nestedExport h⟩
  simp [refusal?, reportedKind?_of_nestedScript hn]

end Script

/-! ## Files -/

variable {f : Family} {path language : String} {s : Source} {o : Options} {root : Node} {file : ParsedFile}
  {e : NestingError}

theorem Family.script_breaksOff_iff : Family.script.breaksOff path s o root = true ↔
    root.hasError = false ∧ ∃ t n, Script.BreaksOffAt s o.sourceType root t n := by
  rw [Family.breaksOff, Bool.and_eq_true, Option.isNone_iff_eq_none, syntaxError?_eq_none_iff,
    Script.breaksOff_iff]

theorem Family.tryRead_eq_error_iff :
    f.tryRead path language s o root = .error e ↔ f.breaksOff path s o root = true := by
  cases e
  simp [tryRead]

theorem Family.tryRead_eq_ok_iff : f.tryRead path language s o root = .ok file ↔
    f.breaksOff path s o root = false ∧ f.read path language s o root = file := by
  rw [tryRead]
  split <;> simp_all

/-- No file is returned for a name that is inside too many arrays. -/
theorem Family.tryRead_nestedScript {k : Nat} (h : Script.nestingLimit < k + 2) (path language : String) (s : Source)
    (hmodule : o.sourceType = .asModule) :
    Family.script.tryRead path language s o (Script.nestedScript k) = .error .exceeded := by
  refine tryRead_eq_error_iff.mpr ?_
  rw [breaksOff, hmodule, Script.breaksOff_nestedScript h, Bool.and_true, Option.isNone_iff_eq_none,
    syntaxError?_eq_none_iff]
  exact Script.hasError_nestedScript k

/-- Whether the reading of a source text breaks off. -/
def breaksOff (path source : String) (o : Options) : Bool :=
  match languageOfExtension? (Path.extension path) with
  | some l => l.family.breaksOff path (.ofString source) o (treeOf (l.family.grammarFor path) source)
  | none => false

theorem tryParse_eq (path source : String) (o : Options) : tryParse path source o =
    if breaksOff path source o then .error .exceeded else .ok (parse path source o) := by
  delta tryParse breaksOff parse
  cases languageOfExtension? (Path.extension path) <;> rfl

theorem tryParse_of_breaksOff {source : String} (h : breaksOff path source o = true) :
    tryParse path source o = .error .exceeded := by
  rw [tryParse_eq, if_pos h]

theorem tryParse_of_not_breaksOff {source : String} (h : breaksOff path source o = false) :
    tryParse path source o = .ok (parse path source o) := by
  rw [tryParse_eq, if_neg (by simp [h])]

end CodeAtlas.Outline
