import CodeAtlas.Proofs.Outline.Refusal
import Mathlib.Data.List.Induction

/-! # The members of PHP scopes

A PHP file lists exactly what the nodes of its tree declare, and a method or property belongs to the innermost
scope above it. The walk hands scopes down with the nodes that it has still to visit, so that a scope ends
where the nodes below it end. -/

namespace CodeAtlas.Outline.Php

open CodeAtlas.Tree

/-! ## What is declared -/

/-- What a node is reported as. An object that is created with a body of its own is a class. -/
def reportedKind? (n : Node) : Option EntityKind :=
  match n.type with
  | "class_declaration" | "anonymous_class" => some .«class»
  | "object_creation_expression" =>
    if n.children.any (·.type == "declaration_list") then some .«class» else none
  | "interface_declaration" => some .interface
  | "method_declaration" => some .method
  | "function_definition" => some .function
  | _ => none

/-- The name under which a node owns what is below it, if it does. A trait or enum does so only by a name of
its own. -/
def scopeName? (s : Source) (n : Node) : Option String :=
  if n.type = "trait_declaration" ∨ n.type = "enum_declaration" then
    nonempty? (s.fieldText? n "name")
  else match reportedKind? n with
    | some .«class» => some (nameOr s n "AnonymousClass")
    | some .interface => some (nameOr s n "AnonymousInterface")
    | _ => none

/-- The name of the innermost owner above a node. -/
def owner? (s : Source) (above : Trail) : Option String :=
  above.reverse.findSome? fun step => scopeName? s step.1

/-- What a visited node declares: itself if it is reported, or the properties that are named right below it. -/
def declared (s : Source) (v : Trail × Node) : List Declaration :=
  match reportedKind? v.2 with
  | some .method => [⟨v.1, v.2, .method, owner? s v.1⟩]
  | some kind => [⟨v.1, v.2, kind, none⟩]
  | none =>
    if v.2.type = "property_declaration" then
      (v.2.numbered.filter (·.1.type == "property_element")).map fun (m, i) =>
        ⟨v.1 ++ [(v.2, i)], m, .property, owner? s v.1⟩
    else []

variable {path : String} {s : Source} {root n : Node} {v : Trail × Node} {d : Declaration}

theorem reportedKind?_eq (n : Node) : reportedKind? n =
    match Role.of n with
    | .classLike => some .«class»
    | .interface => some .interface
    | .method => some .method
    | .function => some .function
    | _ => none := by
  have hbody : (n.firstOfType? ["declaration_list"]).isSome =
      n.children.any (·.type == "declaration_list") := by
    rw [Node.firstOfType?, Bool.eq_iff_iff, List.find?_isSome, List.any_eq_true]
    simp
  rw [reportedKind?, ← hbody]
  fun_cases Role.of n
  all_goals simp_all

theorem role_eq_property_iff : Role.of n = .property ↔ n.type = "property_declaration" := by
  fun_cases Role.of n
  all_goals simp_all

/-! ## Scopes -/

theorem scopeBelow_eq (s : Source) (enclosing : Option String) (n : Node) :
    scopeBelow s enclosing n = (scopeName? s n).or enclosing := by
  rw [scopeBelow, scopeName?]
  by_cases htype : n.type = "trait_declaration" ∨ n.type = "enum_declaration"
  · have hother : Role.of n = .other := by
      rcases htype with h | h <;> simp [Role.of, h]
    have hpos : (n.type == "trait_declaration" || n.type == "enum_declaration") = true := by
      simpa using htype
    rw [hother, if_pos htype]
    exact (if_pos hpos).trans (Option.orElse_eq_or ..)
  · have hneg : ¬ (n.type == "trait_declaration" || n.type == "enum_declaration") = true := by
      simpa using htype
    rw [reportedKind?_eq, if_neg htype]
    cases Role.of n with
    | other => exact if_neg hneg
    | _ => rfl

/-- The innermost scope above a child is its parent, if this is one, and else the one above its parent; scopes
beside it do not matter. -/
theorem owner?_append (s : Source) (above : Trail) (n : Node) (i : Nat) :
    owner? s (above ++ [(n, i)]) = (scopeName? s n).or (owner? s above) := by
  rw [owner?, List.reverse_append, List.reverse_singleton, List.singleton_append,
    List.findSome?_cons]
  cases scopeName? s n <;> rfl

theorem handed_eq_owner? (s : Source) (t : Trail) :
    Node.handed (fun enclosing n _ => scopeBelow s enclosing n) none t = owner? s t := by
  induction t using List.reverseRecOn with
  | nil => rfl
  | append_singleton t step ih =>
    rw [Node.handed_append, ih, scopeBelow_eq, owner?_append]

theorem visits_eq (s : Source) (root : Node) :
    visits s root = root.tour.map fun v => (owner? s v.1, v.2) := by
  rw [visits, Node.walk_eq_map_tour]
  exact congrArg (List.map · root.tour) (funext fun v => by rw [handed_eq_owner?])

/-! ## One visit -/

theorem propertyElements_eq (n : Node) : propertyElements n =
    (n.numbered.filter (·.1.type == "property_element")).map Prod.fst := by
  rw [propertyElements, Node.namedChildren_eq_map_numbered, List.filter_map]
  rfl

/-- What a visit finds is what the node declares. -/
theorem tells_findings (path : String) (s : Source) (v : Trail × Node) :
    Tells path s (declared s v) (findings path s (owner? s v.1) v.2) := by
  rw [declared, findings, reportedKind?_eq]
  cases hrole : Role.of v.2 with
  | classLike => exact Tells.nil.sight (d := ⟨v.1, v.2, .«class», none⟩) rfl
  | interface => exact Tells.nil.sight (d := ⟨v.1, v.2, .interface, none⟩) rfl
  | method => exact Tells.nil.sight (d := ⟨v.1, v.2, .method, owner? s v.1⟩) rfl
  | function => exact Tells.nil.sight (d := ⟨v.1, v.2, .function, none⟩) rfl
  | property =>
    dsimp only
    rw [if_pos (role_eq_property_iff.mp hrole), propertyElements_eq, List.map_map]
    refine .map fun w _ => ?_
    exact Tells.nil.sight (d := ⟨v.1 ++ [(v.2, w.2)], w.1, .property, owner? s v.1⟩) rfl
  | useImport =>
    have htype : v.2.type ≠ "property_declaration" := by
      rw [Ne, ← role_eq_property_iff, hrole]
      exact nofun
    dsimp only
    rw [if_neg htype]
    refine .of_no_entity ?_
    rw [List.filterMap_map]
    exact List.filterMap_none _
  | other =>
    have htype : v.2.type ≠ "property_declaration" := by
      rw [Ne, ← role_eq_property_iff, hrole]
      exact nofun
    dsimp only
    rw [if_neg htype]
    exact .nil

theorem tells_extract (path : String) (s : Source) (root : Node) :
    Tells path s (root.tour.flatMap (declared s)) (extract path s root) := by
  rw [extract, visits_eq, List.flatMap_map]
  exact .flatMap fun v _ => tells_findings path s v

/-! ## No node twice -/

/-- All that a visited node can declare. -/
theorem mem_declared (h : d ∈ declared s v) :
    (∃ kind, reportedKind? v.2 = some kind ∧
      d = ⟨v.1, v.2, kind, if kind = .method then owner? s v.1 else none⟩) ∨
    v.2.type = "property_declaration" ∧ ∃ m i, (m, i) ∈ v.2.numbered ∧ m.type = "property_element" ∧
      d = ⟨v.1 ++ [(v.2, i)], m, .property, owner? s v.1⟩ := by
  rw [declared] at h
  split at h
  · next hkind => exact .inl ⟨_, hkind, List.mem_singleton.mp h⟩
  · next kind hmethod hkind =>
    refine .inl ⟨kind, hkind, ?_⟩
    rw [if_neg hmethod]
    exact List.mem_singleton.mp h
  · split at h
    · next htype =>
      obtain ⟨⟨m, i⟩, hm, rfl⟩ := List.mem_map.mp h
      obtain ⟨hm, helement⟩ := List.mem_filter.mp hm
      exact .inr ⟨htype, m, i, hm, eq_of_beq helement, rfl⟩
    · cases h

/-- What a visited node declares is reached through named children. -/
theorem reaches_of_mem_declared (hv : root.Reaches v.1 v.2) (h : d ∈ declared s v) :
    root.Reaches d.above d.node := by
  rcases mem_declared h with ⟨kind, _, rfl⟩ | ⟨_, m, i, hm, _, rfl⟩
  · exact hv
  · exact .child hv (Node.getElem?_of_mem_numbered hm) (List.mem_filter.mp hm).2

theorem at?_of_mem_declared (hv : root.Reaches v.1 v.2) (h : d ∈ declared s v) :
    root.at? d.place = some d.node := (reaches_of_mem_declared hv h).at?_place

/-- How far above a node the visit is that would declare it. -/
def depth (m : Node) : Nat := if m.type = "property_element" then 1 else 0

theorem depth_of_reported {kind : EntityKind} (h : reportedKind? n = some kind) : depth n = 0 := by
  refine if_neg fun htype => ?_
  simp [reportedKind?, htype] at h

theorem depth_of_mem_declared (h : d ∈ declared s v) :
    ∃ rest, rest.length = depth d.node ∧ d.place = v.1.place ++ rest := by
  rcases mem_declared h with ⟨kind, hkind, rfl⟩ | ⟨_, m, i, _, htype, rfl⟩
  · exact ⟨[], (depth_of_reported hkind).symm, (List.append_nil _).symm⟩
  · exact ⟨[i], (if_pos htype).symm, List.map_append⟩

theorem nodup_declared (s : Source) (v : Trail × Node) :
    ((declared s v).map Declaration.place).Nodup := by
  rw [declared]
  split
  · exact List.nodup_singleton _
  · exact List.nodup_singleton _
  · split
    · rw [List.map_map]
      refine List.pairwise_map.mpr (((Node.pairwise_numbered v.2).filter _).imp fun hne he => hne ?_)
      simpa [Declaration.place, Trail.place] using he
    · exact .nil

/-! ## The file -/

/-- The walk of a PHP tree comes to every node that named children lead to, once, in the order of the text, each
time with the name of the innermost scope above the node, and ends. The file then lists, sorted by where they
begin, what these nodes declare one after the other, methods and properties under that name, and lists no node
twice. -/
theorem lists_under_owners (path language : String) (s : Source) (o : Options) (root : Node)
    (herror : root.hasError = false) :
    let file := Family.php.read path language s o root;
    file.hasErrors = false ∧ ∃ visited,
      Node.Walked (fun enclosing n _ => scopeBelow s enclosing n) none root visited ∧
      visits s root = visited.map (fun v => (owner? s v.1, v.2)) ∧
      (∀ above n i, owner? s (above ++ [(n, i)]) = (scopeName? s n).or (owner? s above)) ∧
      Lists path s root (visited.flatMap (declared s)) file := by
  intro file
  have hrefusal : Family.php.refusal? s o root = none := by
    by_contra hrefused
    rw [Family.php_refused_iff.mp hrefused] at herror
    cases herror
  obtain ⟨fs, hextract, hread⟩ := Family.read_of_not_refused path language hrefusal
  cases hextract
  have hfile : file = .ofFindings path language (extract path s root) := hread
  rw [hfile]
  exact ⟨rfl, root.tour, Node.walked_tour _ _ _, visits_eq s root, owner?_append s,
    (tells_extract path s root).lists depth (fun _ hv _ hd => at?_of_mem_declared hv hd)
      (fun _ _ hd => depth_of_mem_declared hd) (nodup_declared s)⟩

/-- A class with a method that creates an object of a class without a name, and a property behind it. -/
def nestedClass : Node :=
  .plain "program" none 0 65 [.plain "class_declaration" none 0 65
    [.plain "name" (some "name") 6 7 [], .plain "declaration_list" (some "body") 8 65
      [.plain "method_declaration" none 10 52
        [.plain "name" (some "name") 19 20 [], .plain "compound_statement" (some "body") 23 52
          [.plain "object_creation_expression" none 25 49 [.plain "declaration_list" none 35 49
            [.plain "property_declaration" none 37 47 [.plain "property_element" none 44 46 []]]]]],
        .plain "property_declaration" none 53 63 [.plain "property_element" none 60 62 []]]]]

def nestedClassText : Source :=
  .ofString "class A \x7b function f() \x7b new class \x7b public $x; \x7d; \x7d public $y; \x7d"

/-- Behind the inner class the outer one owns again. -/
theorem lists_under_owners_of_nestedClass :
    let file := Family.php.read "a.php" "php" nestedClassText .default nestedClass;
    file.hasErrors = false ∧ ∃ visited,
      Node.Walked (fun enclosing n _ => scopeBelow nestedClassText enclosing n) none nestedClass
        visited ∧
      Lists "a.php" nestedClassText nestedClass (visited.flatMap (declared nestedClassText)) file ∧
      ((visited.flatMap (declared nestedClassText)).map fun d => (d.node.start, d.kind, d.owner?)) =
        [(0, .«class», none), (10, .method, some "A"), (25, .«class», none),
          (44, .property, some "AnonymousClass"), (60, .property, some "A")] := by
  obtain ⟨hclean, visited, hwalked, _, _, hlists⟩ := lists_under_owners "a.php" "php"
    nestedClassText .default nestedClass (by decide +kernel)
  refine ⟨hclean, visited, hwalked, hlists, ?_⟩
  rw [hwalked.eq_tour]
  decide +kernel

end CodeAtlas.Outline.Php
