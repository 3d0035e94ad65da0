import CodeAtlas.Proofs.Outline.Php.Owners
import CodeAtlas.Proofs.Text.LastMark

/-! # What a PHP file imports

Only declarations of used names import anything, each of them at its own visit: one import for each of its clauses
that has a name, or for each such clause of its group if it has one. The use of a trait in a class and the variables
that a closure uses are other nodes and import nothing. -/

namespace CodeAtlas.Outline.Php

open CodeAtlas.Tree

variable {path language : String} {s : Source} {o : Options} {root n c c' clause : Node} {types : List String}
  {name text outer segment source : String} {i i' : Import}

/-! ## Children and texts -/

/-- Whether a child is the first one of some types. -/
def IsFirst (types : List String) (n c : Node) : Prop :=
  ∃ front back, n.children = front ++ c :: back ∧ c.type ∈ types ∧ ∀ d ∈ front, d.type ∉ types

/-- Whether a node has a text that is not empty. -/
def Reads (s : Source) (n : Node) (text : String) : Prop := s.textOf? n = some text ∧ text ≠ ""

theorem firstOfType?_eq_some_iff : n.firstOfType? types = some c ↔ IsFirst types n c := by
  rw [Node.firstOfType?, List.find?_eq_some_iff_append]
  simp only [List.contains_iff_mem, IsFirst]
  constructor
  · rintro ⟨htype, front, back, hsplit, hfront⟩
    exact ⟨front, back, hsplit, htype, fun d hd => by simpa using hfront d hd⟩
  · rintro ⟨front, back, hsplit, htype, hfront⟩
    exact ⟨htype, front, back, hsplit, fun d hd => by simpa using hfront d hd⟩

theorem nonempty?_eq_some_iff {text? : Option String} :
    nonempty? text? = some text ↔ text? = some text ∧ text ≠ "" := by
  rw [nonempty?, Option.filter_eq_some_iff]
  simp

/-- The text of a node that may not be there. -/
theorem nonempty?_bind_textOf? {n? : Option Node} :
    nonempty? (n?.bind s.textOf?) = some text ↔ ∃ n, n? = some n ∧ Reads s n text := by
  rw [nonempty?_eq_some_iff, Option.bind_eq_some_iff]
  constructor
  · rintro ⟨⟨n, hn, htext⟩, hne⟩
    exact ⟨n, hn, htext, hne⟩
  · rintro ⟨n, hn, htext, hne⟩
    exact ⟨⟨n, hn, htext⟩, hne⟩

/-! ## Clauses -/

/-- A clause with the declaration that it belongs to. -/
structure Use where
  declaration : Node
  clause : Node

/-- The clauses of a visited node, if it is a declaration of used names: those of its group, or else its own. -/
def uses (v : Trail × Node) : List Use :=
  if v.2.type = "namespace_use_declaration" then
    (((v.2.firstOfType? ["namespace_use_group"]).getD v.2).namedChildren.filter fun c =>
      c.type = "namespace_use_clause" ∨ c.type = "namespace_use_group_clause").map fun c => ⟨v.2, c⟩
  else []

/-- Whether a clause has a name: the first of its children that is a name of any kind. -/
def IsNamed (s : Source) (clause : Node) (name : String) : Prop :=
  ∃ c, IsFirst ["qualified_name", "namespace_name", "name"] clause c ∧ Reads s c name

/-- Whether a declaration puts a namespace before the names of its clauses. Only one with a group does. -/
def HasOuter (s : Source) (declaration : Node) (outer : String) : Prop :=
  (∃ group, IsFirst ["namespace_use_group"] declaration group) ∧
    ∃ c, IsFirst ["namespace_name"] declaration c ∧ Reads s c outer

/-- What a name in a clause of a declaration stands for. -/
inductive StandsIn (s : Source) (declaration : Node) (name : String) : String → Prop
  | grouped {outer : String} : HasOuter s declaration outer → StandsIn s declaration name (outer ++ "\\" ++ name)
  | plain : (∀ outer, ¬ HasOuter s declaration outer) → StandsIn s declaration name name

/-- Whether a clause gives its name an alias: in a field or, if there is no such field, in a clause of its own. -/
inductive HasAlias (s : Source) (clause : Node) (text : String) : Prop
  | field {c : Node} : clause.child? "alias" = some c → Reads s c text → HasAlias s clause text
  | clause {inner c : Node} : clause.child? "alias" = none → IsFirst ["namespace_aliasing_clause"] clause inner →
      IsFirst ["name"] inner c → Reads s c text → HasAlias s clause text

/-- Whether a part of a text stands behind its last backslash. It is the whole text if this has none. -/
def IsLastSegment (text segment : String) : Prop :=
  '\\' ∉ segment.toList ∧ (segment = text ∨ ∃ front, text = front ++ "\\" ++ segment)

/-- The name under which a file knows what it imports from a source. -/
inductive IsLocal (s : Source) (clause : Node) (source name : String) : String → Prop
  | aliased {text : String} : HasAlias s clause text → IsLocal s clause source name text
  | segment {text : String} : (∀ text, ¬ HasAlias s clause text) → IsLastSegment source text → text ≠ "" →
      IsLocal s clause source name text
  | whole : (∀ text, ¬ HasAlias s clause text) → IsLastSegment source "" → IsLocal s clause source name name

/-- Whether an import is that of a clause. -/
structure Imports (s : Source) (u : Use) (i : Import) : Prop where
  named : ∃ name, IsNamed s u.clause name ∧ StandsIn s u.declaration name i.source ∧
    ∃ text, IsLocal s u.clause i.source name text ∧ text ≠ "" ∧ i.names = [text]
  isDefault : i.isDefault = false
  isNamespace : i.isNamespace = false
  line : i.line = s.line u.clause

/-! ## Names -/

theorem isNamed_iff :
    IsNamed s clause name ↔ nonempty? ((clause.firstOfType? useNames).bind s.textOf?) = some name := by
  rw [nonempty?_bind_textOf?]
  simp only [firstOfType?_eq_some_iff]
  rfl

instance (s : Source) (clause : Node) : Decidable (∃ name, IsNamed s clause name) :=
  decidable_of_iff (nonempty? ((clause.firstOfType? useNames).bind s.textOf?)).isSome
    (Option.isSome_iff_exists.trans (exists_congr fun _ => isNamed_iff.symm))

theorem hasAlias_iff : HasAlias s clause text ↔ clauseAlias? s clause = some text := by
  rw [clauseAlias?, nonempty?_bind_textOf?]
  constructor
  · rintro (⟨hfield, htext⟩ | ⟨hfield, hinner, hc, htext⟩)
    · exact ⟨_, by rw [hfield], htext⟩
    · refine ⟨_, ?_, htext⟩
      rw [hfield]
      exact Option.bind_eq_some_iff.mpr ⟨_, firstOfType?_eq_some_iff.mpr hinner, firstOfType?_eq_some_iff.mpr hc⟩
  · rintro ⟨c, hc, htext⟩
    split at hc
    · next a hfield =>
      cases hc
      exact .field hfield htext
    · next hfield =>
      obtain ⟨inner, hinner, hc⟩ := Option.bind_eq_some_iff.mp hc
      exact .clause hfield (firstOfType?_eq_some_iff.mp hinner) (firstOfType?_eq_some_iff.mp hc) htext

theorem isLastSegment_iff : IsLastSegment text segment ↔ segment = lastSegment text := by
  have hwhole (h : '\\' ∉ text.toList) : lastSegment text = text := by
    rw [lastSegment, Text.takeWhile_reverse_of_unmarked h, List.reverse_reverse, String.ofList_toList]
  have hbehind {front back : List Char} (h : Text.SplitsLast '\\' text.toList front back) :
      lastSegment text = String.ofList back := by
    rw [lastSegment, h.takeWhile_reverse, List.reverse_reverse]
  constructor
  · rintro ⟨hmark, rfl | ⟨front, rfl⟩⟩
    · exact (hwhole hmark).symm
    · have hsplit : Text.SplitsLast '\\' (front ++ "\\" ++ segment).toList front.toList segment.toList :=
        ⟨by simp, hmark⟩
      rw [hbehind hsplit, String.ofList_toList]
  · rintro rfl
    rcases Text.unmarked_or_splitsLast '\\' text.toList with hmark | ⟨front, back, hsplit⟩
    · rw [hwhole hmark]
      exact ⟨hmark, .inl rfl⟩
    · rw [hbehind hsplit]
      refine ⟨by simpa using hsplit.unmarked, .inr ⟨String.ofList front, ?_⟩⟩
      rw [← String.toList_inj, hsplit.eq]
      simp

/-- A namespace before a name does not change what stands behind the last backslash. -/
theorem IsLastSegment.behind (h : IsLastSegment name segment) (outer : String) :
    IsLastSegment (outer ++ "\\" ++ name) segment := by
  refine ⟨h.1, .inr ?_⟩
  rcases h.2 with rfl | ⟨front, rfl⟩
  · exact ⟨outer, rfl⟩
  · exact ⟨outer ++ "\\" ++ front, by simp only [String.append_assoc]⟩

theorem StandsIn.isLastSegment (h : StandsIn s n name source) : IsLastSegment source (lastSegment name) := by
  cases h with
  | grouped _ => exact (isLastSegment_iff.mpr rfl).behind _
  | plain _ => exact isLastSegment_iff.mpr rfl

/-! ## One clause -/

/-- The namespace that a declaration puts before the names of its clauses, if it does. -/
def outer? (s : Source) (n : Node) : Option String :=
  if (n.firstOfType? ["namespace_use_group"]).isSome then (n.firstOfType? ["namespace_name"]).bind s.textOf? else none

theorem hasOuter_iff : HasOuter s n outer ↔ nonempty? (outer? s n) = some outer := by
  rw [HasOuter, outer?]
  simp only [← firstOfType?_eq_some_iff, ← Option.isSome_iff_exists]
  split
  · next hgroup => rw [nonempty?_bind_textOf?, and_iff_right hgroup]
  · next hgroup => simp [hgroup, nonempty?]

/-- What a clause adds to the imports. -/
def imported? (s : Source) (u : Use) : Option Import := importOf? s (outer? s u.declaration) u.clause

theorem isSome_imported?_iff (u : Use) : (imported? s u).isSome ↔ ∃ name, IsNamed s u.clause name := by
  rw [imported?, importOf?, Option.isSome_map, Option.isSome_iff_exists]
  exact exists_congr fun _ => isNamed_iff.symm

theorem standsIn_source (s : Source) (n : Node) (name : String) :
    StandsIn s n name (match nonempty? (outer? s n) with
      | some outer => outer ++ "\\" ++ name
      | none => name) := by
  split
  · next outer houter => exact .grouped (hasOuter_iff.mpr houter)
  · next hnone =>
    refine .plain fun outer houter => ?_
    rw [hasOuter_iff.mp houter] at hnone
    cases hnone

/-- The name under which a file knows what a clause with this name imports. -/
def localName (s : Source) (clause : Node) (name : String) : String :=
  (clauseAlias? s clause).getD ((nonempty? (some (lastSegment name))).getD name)

theorem HasAlias.ne (h : HasAlias s clause text) : text ≠ "" := by
  cases h with
  | field _ hreads => exact hreads.2
  | clause _ _ _ hreads => exact hreads.2

theorem isLocal_localName (clause : Node) (h : StandsIn s n name source) (hname : name ≠ "") :
    IsLocal s clause source name (localName s clause name) ∧ localName s clause name ≠ "" := by
  rw [localName]
  cases halias : clauseAlias? s clause with
  | some text =>
    have htext : HasAlias s clause text := hasAlias_iff.mpr halias
    exact ⟨.aliased htext, htext.ne⟩
  | none =>
    have hnone : ∀ text, ¬ HasAlias s clause text := fun text htext => by
      rw [hasAlias_iff.mp htext] at halias
      cases halias
    rw [Option.getD_none]
    cases hsegment : nonempty? (some (lastSegment name)) with
    | some segment =>
      obtain ⟨hlast, hne⟩ := nonempty?_eq_some_iff.mp hsegment
      cases hlast
      exact ⟨.segment hnone h.isLastSegment hne, hne⟩
    | none =>
      have hempty : lastSegment name = "" := by
        by_contra hne
        rw [nonempty?_eq_some_iff.mpr ⟨rfl, hne⟩] at hsegment
        cases hsegment
      exact ⟨.whole hnone (hempty ▸ h.isLastSegment), hname⟩

theorem imports_of_imported? {u : Use} (h : imported? s u = some i) : Imports s u i := by
  obtain ⟨name, hname, rfl⟩ := Option.map_eq_some_iff.mp h
  have hnamed : IsNamed s u.clause name := isNamed_iff.mpr hname
  have hsource := standsIn_source s u.declaration name
  obtain ⟨hlocal, hne⟩ := isLocal_localName u.clause hsource (nonempty?_eq_some_iff.mp hname).2
  exact ⟨⟨name, hnamed, hsource, _, hlocal, hne, rfl⟩, rfl, rfl, rfl⟩

/-! ## No other import -/

theorem StandsIn.eq {source' : String} (h : StandsIn s n name source) (h' : StandsIn s n name source') :
    source = source' := by
  cases h with
  | grouped houter =>
    cases h' with
    | grouped houter' =>
      rw [Option.some.inj ((hasOuter_iff.mp houter).symm.trans (hasOuter_iff.mp houter'))]
    | plain hnone => exact absurd houter (hnone _)
  | plain hnone =>
    cases h' with
    | grouped houter => exact absurd houter (hnone _)
    | plain _ => rfl

theorem IsLocal.eq {text' : String} (h : IsLocal s clause source name text)
    (h' : IsLocal s clause source name text') : text = text' := by
  cases h with
  | aliased halias =>
    cases h' with
    | aliased halias' => exact Option.some.inj ((hasAlias_iff.mp halias).symm.trans (hasAlias_iff.mp halias'))
    | segment hnone _ _ | whole hnone _ => exact absurd halias (hnone _)
  | segment hnone hlast hne =>
    cases h' with
    | aliased halias => exact absurd halias (hnone _)
    | segment _ hlast' _ => rw [isLastSegment_iff.mp hlast, isLastSegment_iff.mp hlast']
    | whole _ hempty => exact absurd ((isLastSegment_iff.mp hlast).trans (isLastSegment_iff.mp hempty).symm) hne
  | whole hnone hempty =>
    cases h' with
    | aliased halias => exact absurd halias (hnone _)
    | segment _ hlast hne => exact absurd ((isLastSegment_iff.mp hlast).trans (isLastSegment_iff.mp hempty).symm) hne
    | whole _ _ => rfl

/-- There is but one import that is that of a clause. -/
theorem Imports.eq {u : Use} (h : Imports s u i) (h' : Imports s u i') : i = i' := by
  obtain ⟨⟨name, hname, hsource, text, hlocal, _, hnames⟩, hdefault, hnamespace, hline⟩ := h
  obtain ⟨⟨name', hname', hsource', text', hlocal', _, hnames'⟩, hdefault', hnamespace', hline'⟩ := h'
  obtain rfl : name = name' := Option.some.inj ((isNamed_iff.mp hname).symm.trans (isNamed_iff.mp hname'))
  have hsame : i.source = i'.source := hsource.eq hsource'
  have htext : text = text' := hlocal.eq (hsame ▸ hlocal')
  obtain ⟨source, names, isDefault, isNamespace, line⟩ := i
  obtain ⟨source', names', isDefault', isNamespace', line'⟩ := i'
  simp_all

/-! ## One visit -/

theorem role_eq_useImport_iff : Role.of n = .useImport ↔ n.type = "namespace_use_declaration" := by
  fun_cases Role.of n
  all_goals simp_all

theorem importsOf_eq {v : Trail × Node} (h : v.2.type = "namespace_use_declaration") :
    importsOf s v.2 = (uses v).filterMap (imported? s) := by
  have hclause : (fun c : Node => useClauses.contains c.type) = fun c =>
      decide (c.type = "namespace_use_clause" ∨ c.type = "namespace_use_group_clause") :=
    funext fun c => by simp [useClauses]
  rw [importsOf, uses, if_pos h, List.filterMap_map, hclause]
  cases hgroup : v.2.firstOfType? ["namespace_use_group"] with
  | none =>
    have houter : outer? s v.2 = none := by rw [outer?, hgroup]; rfl
    simp only [Option.getD_none, Function.comp_def, imported?, houter]
  | some group =>
    have houter : outer? s v.2 = (v.2.firstOfType? ["namespace_name"]).bind s.textOf? := by rw [outer?, hgroup]; rfl
    simp only [Option.getD_some, Function.comp_def, imported?, houter]

theorem uses_of_role_ne {v : Trail × Node} (h : Role.of v.2 ≠ .useImport) : uses v = [] :=
  if_neg fun htype => h (role_eq_useImport_iff.mpr htype)

/-- What a visit imports is what the clauses of the node import. -/
theorem imports_of_findings (path : String) (s : Source) (enclosing : Option String) (v : Trail × Node) :
    (findings path s enclosing v.2).filterMap Finding.import? = (uses v).filterMap (imported? s) := by
  rw [findings]
  cases hrole : Role.of v.2 with
  | useImport =>
    dsimp only
    rw [List.filterMap_map, ← importsOf_eq (role_eq_useImport_iff.mp hrole)]
    exact List.filterMap_some
  | property =>
    rw [uses_of_role_ne (by simp [hrole])]
    exact (List.filterMap_map ..).trans (List.filterMap_none _)
  | classLike | interface | method | function | other =>
    rw [uses_of_role_ne (by simp [hrole])]
    rfl

/-! ## The file -/

theorem forall₂_imports (s : Source) (us : List Use) :
    List.Forall₂ (Imports s) (us.filter fun u => ∃ name, IsNamed s u.clause name) (us.filterMap (imported? s)) := by
  induction us with
  | nil => exact .nil
  | cons u us ih =>
    cases himport : imported? s u with
    | none =>
      have hno : ¬ ∃ name, IsNamed s u.clause name := fun h => by
        rw [← isSome_imported?_iff, himport] at h
        cases h
      rw [List.filterMap_cons_none himport, List.filter_cons_of_neg (by simpa using hno)]
      exact ih
    | some i =>
      have hyes : ∃ name, IsNamed s u.clause name := (isSome_imported?_iff u).mp (by rw [himport]; rfl)
      rw [List.filterMap_cons_some himport, List.filter_cons_of_pos (by simpa using hyes)]
      exact .cons (imports_of_imported? himport) ih

theorem imports_read (path language : String) (s : Source) (o : Options) (root : Node)
    (herror : root.hasError = false) :
    (Family.php.read path language s o root).hasErrors = false ∧
      (Family.php.read path language s o root).imports = (root.tour.flatMap uses).filterMap (imported? s) := by
  have hrefusal : Family.php.refusal? s o root = none := by
    by_contra hrefused
    rw [Family.php_refused_iff.mp hrefused] at herror
    cases herror
  obtain ⟨fs, hextract, hread⟩ := Family.read_of_not_refused path language hrefusal
  cases hextract
  rw [hread]
  refine ⟨rfl, ?_⟩
  change (extract path s root).filterMap Finding.import? = _
  rw [extract, visits_eq, List.flatMap_map, List.filterMap_flatMap, List.filterMap_flatMap]
  simp only [imports_of_findings]

/-- A PHP file without a fault imports what the clauses of its declarations of used names import that have a name, and
nothing else: one import for each such clause, in the order in which the walk comes to the declarations and then in
that of the clauses. A clause has but one import. -/
theorem imports_follow_clauses (path language : String) (s : Source) (o : Options) (root : Node)
    (herror : root.hasError = false) :
    let file := Family.php.read path language s o root;
    file.hasErrors = false ∧ ∃ visited,
      Node.Walked (fun enclosing n _ => scopeBelow s enclosing n) none root visited ∧
      List.Forall₂ (Imports s) ((visited.flatMap uses).filter fun u => ∃ name, IsNamed s u.clause name) file.imports ∧
      ∀ u i i', Imports s u i → Imports s u i' → i = i' := by
  intro file
  obtain ⟨hclean, himports⟩ := imports_read path language s o root herror
  refine ⟨hclean, root.tour, Node.walked_tour _ _ _, ?_, fun _ _ _ => Imports.eq⟩
  rw [himports]
  exact forall₂_imports s _

/-- A declaration with a group of two clauses, one with an alias, another declaration with an alias in a clause of its
own, and a class that uses a trait. -/
def groupedUses : Node :=
  .plain "program" none 0 50
    [.plain "namespace_use_declaration" none 0 18
      [.plain "namespace_name" none 4 5 [], .plain "namespace_use_group" (some "body") 6 17
        [.plain "namespace_use_clause" none 7 13 [.plain "name" none 7 8 [], .plain "name" (some "alias") 12 13 []],
          .plain "namespace_use_clause" none 15 16 [.plain "name" none 15 16 []]]],
      .plain "namespace_use_declaration" none 19 32
        [.plain "namespace_use_clause" none 23 31
          [.plain "qualified_name" none 23 26 [], .plain "namespace_aliasing_clause" none 27 31
            [.plain "name" none 30 31 []]]],
      .plain "class_declaration" none 33 50
        [.plain "name" (some "name") 39 40 [], .plain "declaration_list" (some "body") 41 50
          [.plain "use_declaration" none 42 48 [.plain "name" none 46 47 []]]]]

def groupedUsesText : Source :=
  .ofString "use A\\\x7bB as C, D\x7d;\nuse E\\F as G;\nclass T \x7buse U; \x7d"

theorem imports_follow_clauses_of_groupedUses :
    let file := Family.php.read "a.php" "php" groupedUsesText .default groupedUses;
    file.hasErrors = false ∧ ∃ us, us.map (·.clause.start) = [7, 15, 23] ∧
      List.Forall₂ (Imports groupedUsesText) us file.imports ∧
      file.imports = [⟨"A\\B", ["C"], false, false, 1⟩, ⟨"A\\D", ["D"], false, false, 1⟩,
        ⟨"E\\F", ["G"], false, false, 2⟩] := by
  obtain ⟨hclean, visited, hwalked, himports, _⟩ := imports_follow_clauses "a.php" "php" groupedUsesText .default
    groupedUses (by decide +kernel)
  rw [hwalked.eq_tour] at himports
  exact ⟨hclean, _, by decide +kernel, himports, by decide +kernel⟩

end CodeAtlas.Outline.Php
