import CodeAtlas.Proofs.Outline.Nesting

/-! # Refused files

A file is read as a whole or not at all. It is refused for a fault of its tree; a script is refused also for
what its nodes are, by the first of them in the order of the text that has something wrong. Nothing that was
found before is kept. -/

namespace CodeAtlas.Outline

open CodeAtlas.Tree

/-- Why a family refuses a file whose tree has no fault. -/
def Family.ownRefusal? (s : Source) (o : Options) (root : Node) : Family → Option String
  | .script => root.tour.findSome? (Script.refusal? s o.sourceType)
  | .php => none

/-- Why a file is refused, if it is. A fault of the tree comes before anything else. -/
def Family.refusal? (f : Family) (s : Source) (o : Options) (root : Node) : Option String :=
  (syntaxError? s root).or (f.ownRefusal? s o root)

variable {f : Family} {path language : String} {s : Source} {o : Options} {root : Node}

theorem Family.failure?_extract (f : Family) (path : String) (s : Source) (o : Options)
    (root : Node) : failure? (f.extract path s o root) = f.ownRefusal? s o root := by
  cases f with
  | script => exact Script.failure?_extract path s o.sourceType root
  | php => rfl

theorem Family.read_of_refused {message : String} (h : f.refusal? s o root = some message) :
    f.read path language s o root = .failed path language message := by
  rw [Family.refusal?] at h
  rw [Family.read]
  cases hfault : syntaxError? s root with
  | some m =>
    rw [hfault] at h
    cases h
    rfl
  | none =>
    rw [hfault, Option.none_or, ← failure?_extract f path] at h
    rw [failure?_eq_some_iff.mp h]

theorem Family.read_of_not_refused (path language : String) (h : f.refusal? s o root = none) :
    ∃ fs, f.extract path s o root = .ok fs ∧
      f.read path language s o root = .ofFindings path language fs := by
  rw [Family.refusal?, Option.or_eq_none_iff, ← failure?_extract f path] at h
  obtain ⟨fs, hfs⟩ := failure?_eq_none_iff.mp h.2
  refine ⟨fs, hfs, ?_⟩
  rw [Family.read, h.1, hfs]

/-- A file has errors exactly if it is refused. -/
theorem Family.hasErrors_read_iff : (f.read path language s o root).hasErrors = true ↔
    f.refusal? s o root ≠ none := by
  cases h : f.refusal? s o root with
  | some message => simp [read_of_refused h, ParsedFile.failed]
  | none =>
    obtain ⟨fs, _, hread⟩ := read_of_not_refused path language h
    simp [hread, ParsedFile.ofFindings]

theorem Family.refusal?_of_clean (h : (f.read path language s o root).hasErrors = false) :
    f.refusal? s o root = none := by
  by_contra hrefused
  rw [hasErrors_read_iff.mpr hrefused] at h
  cases h

/-- A file with errors has one message and no records, a file without errors no message. -/
theorem Family.read_cases (f : Family) (path language : String) (s : Source) (o : Options)
    (root : Node) :
    let file := f.read path language s o root
    (file.hasErrors = true ∧ ∃ message, file = ⟨path, language, [], [], [], true, some [message]⟩) ∨
      (file.hasErrors = false ∧ file.errors? = none) := by
  dsimp only
  cases h : f.refusal? s o root with
  | some message =>
    rw [read_of_refused h]
    exact .inl ⟨rfl, message, rfl⟩
  | none =>
    obtain ⟨fs, _, hread⟩ := read_of_not_refused path language h
    rw [hread]
    exact .inr ⟨rfl, rfl⟩

theorem Family.refusal?_of_hasError (h : root.hasError = true) :
    f.refusal? s o root = some (faultMessage s (root.firstFault?.getD root)) := by
  rw [Family.refusal?, syntaxError?_of_hasError h]
  rfl

/-- What a script can be refused for. -/
theorem Family.script_refused_iff : Family.script.refusal? s o root ≠ none ↔
    root.hasError = true ∨
      (o.sourceType = .asScript ∧ ∃ t n, root.Reaches t n ∧ Script.IsModular n) ∨
      ∃ t n, root.Reaches t n ∧ Script.reportedKind? t n = some .«class» ∧
        Script.HasUnknownModifier s n := by
  rw [Family.refusal?, Ne, Option.or_eq_none_iff, syntaxError?_eq_none_iff, Family.ownRefusal?,
    Node.findSome?_tour_eq_none_iff]
  simp only [Script.refusal?_eq_none_iff]
  constructor
  · intro h
    by_contra hnone
    simp only [not_or, not_and, not_exists, Bool.not_eq_true] at hnone
    exact h ⟨hnone.1, fun t n hn => ⟨fun hm => hnone.2.1 hm.1 t n hn hm.2,
      fun hm => hnone.2.2 t n hn hm.1 hm.2⟩⟩
  · rintro (h | ⟨hscript, t, n, hn, hm⟩ | ⟨t, n, hn, hclass, hm⟩) ⟨herror, hall⟩
    · exact absurd h (by simp [herror])
    · exact (hall t n hn).1 ⟨hscript, hm⟩
    · exact (hall t n hn).2 ⟨hclass, hm⟩

/-- What a PHP file can be refused for. -/
theorem Family.php_refused_iff : Family.php.refusal? s o root ≠ none ↔ root.hasError = true := by
  rw [Family.refusal?, Ne, Option.or_eq_none_iff, syntaxError?_eq_none_iff, Family.ownRefusal?]
  simp

/-- Of several reasons the first in the order of the text is given. -/
theorem Family.script_refusal?_of_first {t : Trail} {n : Node} {message : String}
    (herror : root.hasError = false) (hn : root.Reaches t n)
    (hmessage : Script.refusal? s o.sourceType (t, n) = some message)
    (hfirst : ∀ t' n', root.Reaches t' n' → t'.place < t.place →
      Script.refusal? s o.sourceType (t', n') = none) :
    Family.script.refusal? s o root = some message := by
  rw [Family.refusal?, syntaxError?_eq_none_iff.mpr herror]
  exact Node.findSome?_tour_eq_some_iff.mpr ⟨t, n, hn, hmessage, hfirst⟩

/-- What would be a script without errors is returned exactly if nothing in it nests too deep. -/
theorem Family.returned_iff_of_clean (hclean : (Family.script.read path language s o root).hasErrors = false) :
    Family.script.tryRead path language s o root = .ok (Family.script.read path language s o root) ↔
      ∀ t n, root.Reaches t n → Script.nestsTooDeep n = false := by
  obtain ⟨hfault, hallowed⟩ := Option.or_eq_none_iff.mp (refusal?_of_clean hclean)
  rw [tryRead_eq_ok_iff, and_iff_left rfl, breaksOff, hfault, Option.isNone_none, Bool.true_and,
    Bool.eq_false_iff, Ne, Script.breaksOff_iff_of_allowed (Node.findSome?_tour_eq_none_iff.mp hallowed)]
  simp

/-- The walk through a script breaks off exactly if its tree has no fault and the walk comes to a node that nests
too deep before anything else is wrong. Every other script is returned. It is refused exactly if its tree has a
fault, or it is no module and has an import or export, or one of its classes reports a member with a modifier that
is not known; the message is that of the fault, with its line and column at the end, or else that of the first node
in the order of the text that has something wrong. A PHP file is always returned, and refused exactly if its tree
has a fault. Whatever is refused has one message and no records, and nothing else has a message. -/
theorem refused_iff (path language : String) (s : Source) (o : Options) (root : Node) :
    (Family.script.tryRead path language s o root = .error .exceeded ↔
      root.hasError = false ∧ ∃ t n, Script.BreaksOffAt s o.sourceType root t n) ∧
    (∀ file, Family.script.tryRead path language s o root = .ok file →
      (file.hasErrors = true ↔ root.hasError = true ∨
        (o.sourceType = .asScript ∧ ∃ t n, root.Reaches t n ∧ Script.IsModular n) ∨
        ∃ t n, root.Reaches t n ∧ Script.reportedKind? t n = some .«class» ∧
          Script.HasUnknownModifier s n) ∧
      (root.hasError = false → ∀ t n message, root.Reaches t n →
        Script.refusal? s o.sourceType (t, n) = some message →
        (∀ t' n', root.Reaches t' n' → t'.place < t.place →
          Script.refusal? s o.sourceType (t', n') = none) →
        file.errors? = some [message])) ∧
    (∃ file, Family.php.tryRead path language s o root = .ok file ∧
      (file.hasErrors = true ↔ root.hasError = true)) ∧
    ∀ (f : Family) (file : ParsedFile), f.tryRead path language s o root = .ok file →
      ((file.hasErrors = true ∧
          ∃ message, file = ⟨path, language, [], [], [], true, some [message]⟩) ∨
        (file.hasErrors = false ∧ file.errors? = none)) ∧
      (root.hasError = true →
        let m := root.firstFault?.getD root;
        file.errors? = some [faultMessage s m] ∧ EndsAt s m (faultMessage s m)) := by
  have herrors {f : Family} {message : String} (h : f.refusal? s o root = some message) :
      (f.read path language s o root).errors? = some [message] := by
    rw [Family.read_of_refused h]
    rfl
  refine ⟨Family.tryRead_eq_error_iff.trans Family.script_breaksOff_iff, fun file hfile => ?_, ?_,
    fun f file hfile => ?_⟩
  · obtain ⟨_, rfl⟩ := Family.tryRead_eq_ok_iff.mp hfile
    refine ⟨Family.hasErrors_read_iff.trans Family.script_refused_iff, fun h t n message hn hmessage hfirst => ?_⟩
    exact herrors (Family.script_refusal?_of_first h hn hmessage hfirst)
  · exact ⟨_, Family.tryRead_eq_ok_iff.mpr ⟨rfl, rfl⟩, Family.hasErrors_read_iff.trans Family.php_refused_iff⟩
  · obtain ⟨_, rfl⟩ := Family.tryRead_eq_ok_iff.mp hfile
    exact ⟨Family.read_cases f path language s o root,
      fun h => ⟨herrors (Family.refusal?_of_hasError h), endsAt_faultMessage s _⟩⟩

def importStatement : Node := .plain "import_statement" none 0 11 []

/-- An import, and behind it a class with a method that is marked internal. -/
def importAndClass : Node :=
  .plain "program" none 0 39 [importStatement, .plain "class_declaration" none 12 39
    [.plain "identifier" (some "name") 18 19 [], .plain "class_body" (some "body") 20 39
      [.plain "method_definition" none 22 37 [.plain "accessibility_modifier" none 22 30 [],
        .plain "property_identifier" (some "name") 31 32 []]]]]

def importAndClassText : Source := .ofString "import 'm'; class A \x7b internal m() \x7b\x7d \x7d"

/-- As a script this has two things wrong, of which the import comes first. -/
theorem refused_of_importAndClass :
    Family.script.tryRead "a.js" "javascript" importAndClassText ⟨false, false, .asScript⟩ importAndClass =
      .ok ⟨"a.js", "javascript", [], [], [], true,
        some ["'import' and 'export' may appear only with 'sourceType: \"module\"' (1:0)"]⟩ := by
  obtain ⟨hbreaks, hscript, _, hcases⟩ := refused_iff "a.js" "javascript" importAndClassText
    ⟨false, false, .asScript⟩ importAndClass
  cases hfile : Family.script.tryRead "a.js" "javascript" importAndClassText ⟨false, false, .asScript⟩
      importAndClass with
  | error e =>
    cases e
    obtain ⟨_, _, _, hbreak⟩ := hbreaks.mp hfile
    cases hbreak.isModule
  | ok file =>
    have hreached : importAndClass.Reaches [(importAndClass, 0)] importStatement := .child .root rfl rfl
    have hfirst : ∀ v ∈ importAndClass.tour, Trail.place v.1 < [0] →
        Script.refusal? importAndClassText .asScript v = none := by decide +kernel
    have herrors := (hscript file hfile).2 (by decide +kernel) _ _
      "'import' and 'export' may appear only with 'sourceType: \"module\"' (1:0)" hreached
      (by decide +kernel) fun t n hn hlt => hfirst (t, n) (Node.mem_tour_iff.mpr hn) hlt
    rcases (hcases .script file hfile).1 with ⟨_, message, rfl⟩ | ⟨_, hnone⟩
    · cases herrors
      rfl
    · rw [hnone] at herrors
      cases herrors

/-- There is not always a file. -/
theorem not_always_returned : ¬ ∀ (path language : String) (s : Source) (o : Options) (root : Node),
    ∃ file, Family.script.tryRead path language s o root = .ok file := by
  intro h
  obtain ⟨file, hfile⟩ := h "a.js" "javascript" (Script.nestedText 1000) .default (Script.nestedScript 1000)
  rw [Family.tryRead_nestedScript (by decide) _ _ _ rfl] at hfile
  cases hfile

end CodeAtlas.Outline
