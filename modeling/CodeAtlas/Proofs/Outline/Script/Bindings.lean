import CodeAtlas.Proofs.Outline.Script.Exports
import Mathlib.Data.List.Sort

/-! # Names that a declaration of variables exports

A pattern binds the names at its leaves. The way to them goes through all parts of an object or array, but from a pair
only to its value and from an assignment only to its left side, so that keys and defaults bind nothing. An export
statement lists the names that the declarators of its declaration bind, each leaf once, in the order of the text. -/

namespace CodeAtlas.Outline.Script

open CodeAtlas.Tree

variable {s : Source} {n m c d : Node} {pl : Place} {i : Nat}

/-! ## Patterns -/

/-- Whether a node is a name that a pattern binds. -/
def IsName (n : Node) : Prop := n.type = "identifier" ∨ n.type = "shorthand_property_identifier_pattern"

instance (n : Node) : Decidable (IsName n) := inferInstanceAs (Decidable (_ ∨ _))

/-- Whether a pattern binds the name that stands at a place in it. -/
inductive Binds : Node → Place → Node → Prop
  | name {n : Node} : IsName n → Binds n [] n
  | element {n c m : Node} {i : Nat} {pl : Place} :
      n.type = "object_pattern" ∨ n.type = "array_pattern" ∨ n.type = "rest_pattern" →
      n.children[i]? = some c → c.face.named = true → Binds c pl m → Binds n (i :: pl) m
  | value {n c m : Node} {i : Nat} {pl : Place} : n.type = "pair_pattern" →
      n.numberedChild? "value" = some (c, i) → Binds c pl m → Binds n (i :: pl) m
  | left {n c m : Node} {i : Nat} {pl : Place} :
      n.type = "assignment_pattern" ∨ n.type = "object_assignment_pattern" →
      n.numberedChild? "left" = some (c, i) → Binds c pl m → Binds n (i :: pl) m

/-- Whether a declaration of variables binds the name that stands at a place in it: that of one of its declarators, or
one in the pattern that the declarator has for a name. -/
def BindsIn (d : Node) (pl : Place) (m : Node) : Prop :=
  ∃ declarator i pattern j rest, pl = i :: j :: rest ∧ d.children[i]? = some declarator ∧
    declarator.face.named = true ∧ declarator.type = "variable_declarator" ∧
    declarator.numberedChild? "name" = some (pattern, j) ∧ Binds pattern rest m

/-- Whether a list holds all that a declaration of variables binds, each name once, in the order of the text. -/
structure AreBound (d : Node) (bound : List (Place × Node)) : Prop where
  mem_iff : ∀ pl m, (pl, m) ∈ bound ↔ BindsIn d pl m
  ordered : bound.Pairwise fun v w => v.1 < w.1

/-- There is but one such list. -/
theorem AreBound.eq {bound bound' : List (Place × Node)} (h : AreBound d bound) (h' : AreBound d bound') :
    bound = bound' := by
  have : Std.Irrefl fun v w : Place × Node => v.1 < w.1 := ⟨fun v => List.lt_irrefl v.1⟩
  have : Std.Antisymm fun v w : Place × Node => v.1 < w.1 := ⟨fun v w hvw hwv => absurd hwv (List.lt_asymm hvw)⟩
  exact h.ordered.eq_of_mem_iff h'.ordered fun v => (h.mem_iff v.1 v.2).trans (h'.mem_iff v.1 v.2).symm

/-- The texts of some nodes that are not empty. -/
def names (s : Source) (bound : List (Place × Node)) : List String :=
  bound.filterMap fun v => nonempty? (s.textOf? v.2)

/-! ## Below a node -/

/-- What is found in some of the children of a node, with its place below the node. -/
def below (find : Node → List (Place × Node)) (children : List (Node × Nat)) : List (Place × Node) :=
  children.flatMap fun c => (find c.1).map fun v => (c.2 :: v.1, v.2)

variable {find : Node → List (Place × Node)} {children : List (Node × Nat)}

theorem mem_below_iff : (pl, m) ∈ below find children ↔
    ∃ c i rest, (c, i) ∈ children ∧ pl = i :: rest ∧ (rest, m) ∈ find c := by
  rw [below, List.mem_flatMap]
  constructor
  · rintro ⟨c, hc, hm⟩
    obtain ⟨v, hv, he⟩ := List.mem_map.mp hm
    cases he
    exact ⟨c.1, c.2, v.1, hc, rfl, hv⟩
  · rintro ⟨c, i, rest, hc, rfl, hm⟩
    exact ⟨(c, i), hc, List.mem_map.mpr ⟨(rest, m), hm, rfl⟩⟩

theorem pairwise_below (hchildren : children.Pairwise fun c c' => c.2 < c'.2)
    (hfind : ∀ c ∈ children, (find c.1).Pairwise fun v w => v.1 < w.1) :
    (below find children).Pairwise fun v w => v.1 < w.1 := by
  rw [below, List.pairwise_flatMap]
  refine ⟨fun c hc => List.pairwise_map.mpr ((hfind c hc).imp fun h => ?_), hchildren.imp fun hlt v hv w hw => ?_⟩
  · exact List.cons_lt_cons_iff.mpr (.inr ⟨rfl, h⟩)
  · obtain ⟨v', _, rfl⟩ := List.mem_map.mp hv
    obtain ⟨w', _, rfl⟩ := List.mem_map.mp hw
    exact List.cons_lt_cons_iff.mpr (.inl hlt)

theorem names_below : names s (below find children) = children.flatMap fun c => names s (find c.1) := by
  rw [names, below, List.filterMap_flatMap]
  exact congrArg (List.flatMap · children) (funext fun c => List.filterMap_map ..)

theorem sorted_toList (c? : Option (Node × Nat)) : c?.toList.Pairwise fun c c' => c.2 < c'.2 := by
  cases c? with
  | none => exact .nil
  | some c => exact List.pairwise_singleton _ c

/-! ## Leaves of patterns -/

/-- The children of a pattern in which it binds names, each with its number. -/
def parts (n : Node) : List (Node × Nat) :=
  match n.type with
  | "object_pattern" | "array_pattern" | "rest_pattern" => n.numbered
  | "pair_pattern" => (n.numberedChild? "value").toList
  | "assignment_pattern" | "object_assignment_pattern" => (n.numberedChild? "left").toList
  | _ => []

theorem mem_parts_iff : (c, i) ∈ parts n ↔
    ((n.type = "object_pattern" ∨ n.type = "array_pattern" ∨ n.type = "rest_pattern") ∧
      n.children[i]? = some c ∧ c.face.named = true) ∨
    (n.type = "pair_pattern" ∧ n.numberedChild? "value" = some (c, i)) ∨
    ((n.type = "assignment_pattern" ∨ n.type = "object_assignment_pattern") ∧
      n.numberedChild? "left" = some (c, i)) := by
  rw [parts]
  split <;> simp_all [Node.mem_numbered_iff]

theorem sorted_parts (n : Node) : (parts n).Pairwise fun c c' => c.2 < c'.2 := by
  rw [parts]
  split
  case h_7 => exact .nil
  case h_4 | h_5 | h_6 => exact sorted_toList _
  all_goals exact Node.sorted_numbered n

theorem sizeOf_lt_of_mem_parts (h : (c, i) ∈ parts n) : sizeOf c < sizeOf n := by
  have hchild : n.children[i]? = some c := by
    rcases mem_parts_iff.mp h with ⟨_, hc, _⟩ | ⟨_, hc⟩ | ⟨_, hc⟩
    · exact hc
    all_goals exact Node.getElem?_of_numberedChild? hc
  have hlt := List.sizeOf_lt_of_mem (List.mem_of_getElem? hchild)
  cases n with
  | mk f cs =>
    rw [Node.children] at hlt
    rw [Node.mk.sizeOf_spec]
    omega

/-- The names that a pattern binds, with their places, in the order of the text. -/
def leaves (n : Node) : List (Place × Node) :=
  if IsName n then [([], n)]
  else (parts n).attach.flatMap fun c => (leaves c.1.1).map fun v => (c.1.2 :: v.1, v.2)
termination_by sizeOf n
decreasing_by exact sizeOf_lt_of_mem_parts c.2

theorem leaves_of_isName (h : IsName n) : leaves n = [([], n)] := by
  rw [leaves, if_pos h]

theorem leaves_of_not_isName (h : ¬ IsName n) : leaves n = below leaves (parts n) := by
  rw [leaves, if_neg h, below]
  conv => rhs; rw [← List.attach_map_subtype_val (parts n), List.flatMap_map]

theorem parts_of_isName (h : IsName n) : parts n = [] := by
  rcases h with h | h <;> simp [parts, h]

/-- A name binds itself, any other node what its parts bind. -/
theorem binds_iff : Binds n pl m ↔
    (IsName n ∧ pl = [] ∧ m = n) ∨ ∃ c i rest, (c, i) ∈ parts n ∧ pl = i :: rest ∧ Binds c rest m := by
  constructor
  · intro h
    cases h with
    | name h => exact .inl ⟨h, rfl, rfl⟩
    | element hn hc hnamed h => exact .inr ⟨_, _, _, mem_parts_iff.mpr (.inl ⟨hn, hc, hnamed⟩), rfl, h⟩
    | value hn hc h => exact .inr ⟨_, _, _, mem_parts_iff.mpr (.inr (.inl ⟨hn, hc⟩)), rfl, h⟩
    | left hn hc h => exact .inr ⟨_, _, _, mem_parts_iff.mpr (.inr (.inr ⟨hn, hc⟩)), rfl, h⟩
  · rintro (⟨h, rfl, rfl⟩ | ⟨c, i, rest, hc, rfl, h⟩)
    · exact .name h
    · rcases mem_parts_iff.mp hc with ⟨hn, hc, hnamed⟩ | ⟨hn, hc⟩ | ⟨hn, hc⟩
      · exact .element hn hc hnamed h
      · exact .value hn hc h
      · exact .left hn hc h

theorem mem_leaves_iff : (pl, m) ∈ leaves n ↔ Binds n pl m := by
  -- the induction goes down the parts, so that one step of a way is taken off at a time
  induction n using leaves.induct generalizing pl with
  | case1 n h =>
    rw [leaves_of_isName h, binds_iff, parts_of_isName h]
    simp [h]
  | case2 n h ih =>
    rw [leaves_of_not_isName h, mem_below_iff, binds_iff, or_iff_right fun hname => h hname.1]
    exact exists_congr fun c => exists_congr fun i => exists_congr fun rest =>
      and_congr_right fun hc => and_congr_right fun _ => ih ⟨(c, i), hc⟩

theorem pairwise_leaves (n : Node) : (leaves n).Pairwise fun v w => v.1 < w.1 := by
  induction n using leaves.induct with
  | case1 n h =>
    rw [leaves_of_isName h]
    exact List.pairwise_singleton _ _
  | case2 n h ih =>
    rw [leaves_of_not_isName h]
    exact pairwise_below (sorted_parts n) fun c hc => ih ⟨c, hc⟩

/-! ## Names -/

theorem boundInNamed_eq (s : Source) (cs : List Node) :
    boundInNamed s cs = (cs.filter (·.face.named)).flatMap (boundNames s) := by
  induction cs with
  | nil => rw [boundInNamed, List.filter_nil, List.flatMap_nil]
  | cons c cs ih =>
    rw [boundInNamed, ih, List.filter_cons]
    split <;> rfl

theorem boundInField_eq (s : Source) (field : String) (cs : List Node) :
    boundInField s field cs = (cs.find? (·.face.field? == some field)).toList.flatMap (boundNames s) := by
  induction cs with
  | nil => rw [boundInField, List.find?_nil, Option.toList_none, List.flatMap_nil]
  | cons c cs ih =>
    rw [boundInField, List.find?_cons]
    split
    · next h => rw [h, Option.toList_some, List.flatMap_singleton]
    · next h => rw [ih, Bool.eq_false_iff.mpr h]

theorem boundNames_of_isName (h : IsName n) : boundNames s n = (nonempty? (s.textOf? n)).toList := by
  cases n with
  | mk f cs =>
    rw [boundNames, if_pos]
    rw [Bool.or_eq_true, beq_iff_eq, beq_iff_eq]
    exact h

theorem boundNames_of_not_isName (h : ¬ IsName n) :
    boundNames s n = (parts n).flatMap fun c => boundNames s c.1 := by
  have hfield (field : String) : boundInField s field n.children =
      (n.numberedChild? field).toList.flatMap fun c => boundNames s c.1 := by
    rw [boundInField_eq, ← Node.child?, Node.child?_eq_map_numberedChild?]
    cases n.numberedChild? field <;> rfl
  have hnamed : boundInNamed s n.children = n.numbered.flatMap fun c => boundNames s c.1 := by
    rw [boundInNamed_eq, ← Node.namedChildren, Node.namedChildren_eq_map_numbered, List.flatMap_map]
  -- a node of any other type is no pattern: it has no parts, and nothing is bound in it
  obtain ⟨hidentifier, hshorthand⟩ := not_or.mp h
  cases n with
  | mk f cs =>
    rw [parts]
    split
    all_goals simp_all [boundNames, Node.type, Node.face, Node.children]

/-- The names that are read off a pattern are those at its leaves. -/
theorem boundNames_eq (s : Source) (n : Node) : boundNames s n = names s (leaves n) := by
  induction n using leaves.induct with
  | case1 n h =>
    rw [boundNames_of_isName h, leaves_of_isName h, names, List.filterMap_cons, List.filterMap_nil]
    cases nonempty? (s.textOf? n) <;> rfl
  | case2 n h ih =>
    rw [boundNames_of_not_isName h, leaves_of_not_isName h, names_below]
    exact List.flatMap_congr fun c hc => ih ⟨c, hc⟩

/-! ## Calls -/

theorem nesting_le_nestingInNamed {cs : List Node} (hc : c ∈ cs) (hnamed : c.face.named = true) :
    nesting c ≤ nestingInNamed cs := by
  induction cs with
  | nil => cases hc
  | cons c' cs ih =>
    rw [nestingInNamed]
    rcases List.mem_cons.mp hc with rfl | hc
    · rw [if_pos hnamed]
      exact Nat.le_max_left ..
    · split
      · exact Nat.le_trans (ih hc) (Nat.le_max_right ..)
      · exact ih hc

theorem nestingInField_of_find? {field : String} {cs : List Node}
    (hc : cs.find? (·.face.field? == some field) = some c) : nestingInField field cs = nesting c := by
  induction cs with
  | nil => cases hc
  | cons c' cs ih =>
    rw [nestingInField]
    rw [List.find?_cons] at hc
    split at hc
    · next h =>
      cases hc
      rw [if_pos h]
    · next h =>
      rw [if_neg (Bool.eq_false_iff.mp h)]
      exact ih hc

theorem nesting_of_isName (h : IsName n) : nesting n = 2 := by
  cases n with
  | mk f cs =>
    rw [nesting, if_pos]
    rw [Bool.or_eq_true, beq_iff_eq, beq_iff_eq]
    exact h

/-- Each step down a pattern takes a call. -/
theorem nesting_lt_of_mem_parts (h : (c, i) ∈ parts n) : nesting c < nesting n := by
  have hfield {field : String} (hc : n.numberedChild? field = some (c, i)) :
      nestingInField field n.children = nesting c := by
    refine nestingInField_of_find? ?_
    rw [← Node.child?, Node.child?_eq_map_numberedChild?, hc, Option.map_some]
  cases n with
  | mk f cs =>
    rcases mem_parts_iff.mp h with ⟨hn, hc, hnamed⟩ | ⟨hn, hc⟩ | ⟨hn, hc⟩
    · have hle := nesting_le_nestingInNamed (List.mem_of_getElem? hc) hnamed
      rcases hn with hn | hn | hn
      all_goals simp_all [nesting, Node.type, Node.face, Node.children]; omega
    · have heq := hfield hc
      simp_all [nesting, Node.type, Node.face, Node.children]
    · have heq := hfield hc
      rcases hn with hn | hn
      all_goals simp_all [nesting, Node.type, Node.face, Node.children]

/-- A name that stands deep in a pattern takes as many calls as there are steps down to it, and two. -/
theorem length_add_two_le_nesting (h : Binds n pl m) : pl.length + 2 ≤ nesting n := by
  induction pl generalizing n with
  | nil =>
    rcases binds_iff.mp h with ⟨hn, _, _⟩ | ⟨_, _, _, _, hpl, _⟩
    · exact (nesting_of_isName hn).ge
    · cases hpl
  | cons i pl ih =>
    rcases binds_iff.mp h with ⟨_, hpl, _⟩ | ⟨c, _, _, hc, hpl, hm⟩
    · cases hpl
    · cases hpl
      exact Nat.lt_of_le_of_lt (ih hm) (nesting_lt_of_mem_parts hc)

/-! ## Declarations of variables -/

/-- The declarators of a declaration, each with its number. -/
def declarators (d : Node) : List (Node × Nat) := d.numbered.filter (·.1.type == "variable_declarator")

/-- The names that a declaration of variables binds, with their places, in the order of the text. -/
def boundIn (d : Node) : List (Place × Node) :=
  below (fun declarator => below leaves (declarator.numberedChild? "name").toList) (declarators d)

theorem areBound_boundIn (d : Node) : AreBound d (boundIn d) where
  mem_iff pl m := by
    rw [boundIn, mem_below_iff]
    constructor
    · rintro ⟨declarator, i, _, hdeclarator, rfl, hname⟩
      obtain ⟨pattern, j, rest, hpattern, rfl, hm⟩ := mem_below_iff.mp hname
      obtain ⟨hchild, htype⟩ := List.mem_filter.mp hdeclarator
      obtain ⟨hchild, hnamed⟩ := Node.mem_numbered_iff.mp hchild
      exact ⟨declarator, i, pattern, j, rest, rfl, hchild, hnamed, eq_of_beq htype, Option.mem_toList.mp hpattern,
        mem_leaves_iff.mp hm⟩
    · rintro ⟨declarator, i, pattern, j, rest, rfl, hchild, hnamed, htype, hpattern, hm⟩
      refine ⟨declarator, i, _, List.mem_filter.mpr ⟨Node.mem_numbered_iff.mpr ⟨hchild, hnamed⟩, ?_⟩, rfl, ?_⟩
      · exact beq_iff_eq.mpr htype
      · exact mem_below_iff.mpr ⟨pattern, j, rest, Option.mem_toList.mpr hpattern, rfl, mem_leaves_iff.mpr hm⟩
  ordered :=
    pairwise_below ((Node.sorted_numbered d).filter _) fun _ _ =>
      pairwise_below (sorted_toList _) fun pattern _ => pairwise_leaves pattern.1

theorem declaredNames_of_variables (s : Source)
    (h : d.type = "lexical_declaration" ∨ d.type = "variable_declaration") :
    declaredNames s d = names s (boundIn d) := by
  have hdeclarators : d.namedChildren.filter (·.type == "variable_declarator") = (declarators d).map Prod.fst := by
    rw [Node.namedChildren_eq_map_numbered, List.filter_map]
    rfl
  rw [declaredNames, if_pos (by simpa [variableDeclarations] using h), hdeclarators, List.flatMap_map, boundIn,
    names_below]
  refine List.flatMap_congr fun declarator _ => ?_
  rw [names_below, Node.child?_eq_map_numberedChild?]
  cases declarator.1.numberedChild? "name" with
  | none => rfl
  | some pattern => exact (boundNames_eq s pattern.1).trans (List.flatMap_singleton ..).symm

/-- An export of variables nests too deep exactly if a declarator has a pattern that takes too many calls. -/
theorem nestsTooDeep_of_variables (hexport : n.type = "export_statement") (hnamed : n.hasToken "default" = false)
    (hd : n.child? "declaration" = some d)
    (hvariables : d.type = "lexical_declaration" ∨ d.type = "variable_declaration") : nestsTooDeep n = true ↔
      ∃ declarator ∈ d.namedChildren, declarator.type = "variable_declarator" ∧
        ∃ pattern, declarator.child? "name" = some pattern ∧ nestingLimit < nesting pattern := by
  rw [nestsTooDeep_iff, and_iff_right hexport, and_iff_right hnamed]
  constructor
  · rintro ⟨_, hd', _, h⟩
    cases hd.symm.trans hd'
    exact h
  · exact fun h => ⟨d, hd, by simpa [variableDeclarations] using hvariables, h⟩

/-- An export of a name that stands too many steps below its declaration nests too deep. -/
theorem nestsTooDeep_of_bindsIn (hexport : n.type = "export_statement") (hnamed : n.hasToken "default" = false)
    (hd : n.child? "declaration" = some d)
    (hvariables : d.type = "lexical_declaration" ∨ d.type = "variable_declaration") (hm : BindsIn d pl m)
    (hlong : nestingLimit < pl.length) : nestsTooDeep n = true := by
  obtain ⟨declarator, i, pattern, j, rest, rfl, hchild, hdeclarator, htype, hpattern, hm⟩ := hm
  refine (nestsTooDeep_of_variables hexport hnamed hd hvariables).mpr ⟨declarator, ?_, htype, pattern, ?_, ?_⟩
  · exact List.mem_filter.mpr ⟨List.mem_of_getElem? hchild, hdeclarator⟩
  · rw [Node.child?_eq_map_numberedChild?, hpattern, Option.map_some]
  · exact Nat.lt_of_lt_of_le hlong (length_add_two_le_nesting hm)

/-- What an export statement lists for a declaration of variables are the texts of the names that the declaration
binds, of each such name once and in the order of the text, wherever the statement stands in a script that is
returned and not refused. Behind them it lists the names that it passes on. But if one of the patterns nests too deep,
as it does if a name stands too many steps below the declaration, there is no such script: the walk breaks off at
the statement if it gets that far. -/
theorem exports_bound_names (s : Source) (n d : Node) (hexport : n.type = "export_statement")
    (hnamed : n.hasToken "default" = false) (hd : n.child? "declaration" = some d)
    (hvariables : d.type = "lexical_declaration" ∨ d.type = "variable_declaration") :
    (nestsTooDeep n = true ↔ ∃ declarator ∈ d.namedChildren, declarator.type = "variable_declarator" ∧
      ∃ pattern, declarator.child? "name" = some pattern ∧ nestingLimit < nesting pattern) ∧
    ∃ bound, AreBound d bound ∧
      (∀ v ∈ bound, nestingLimit < v.1.length → nestsTooDeep n = true) ∧
      (nestsTooDeep n = false → exportsOf s n = (names s bound ++ passedOn s n).map (named s n)) ∧
      ∀ (path language : String) (o : Options) (root : Node) (t : Trail), root.Reaches t n →
        (root.hasError = false → BreaksOffAt s o.sourceType root t n →
          Family.script.tryRead path language s o root = .error .exceeded) ∧
        ∀ file, Family.script.tryRead path language s o root = .ok file → file.hasErrors = false →
          nestsTooDeep n = false ∧
          AddedAt (exported s) root t n ((names s bound ++ passedOn s n).map (named s n)) file.exports := by
  have hadded : exportsOf s n = (names s (boundIn d) ++ passedOn s n).map (named s n) := by
    rw [exportsOf_of_declaration hnamed hd, declaredNames_of_variables s hvariables]
  refine ⟨nestsTooDeep_of_variables hexport hnamed hd hvariables, boundIn d, areBound_boundIn d,
    fun v hv => ?_, fun _ => hadded, fun path language o root t hn => ⟨fun herror hbreak => ?_,
    fun file hfile hclean => ?_⟩⟩
  · exact nestsTooDeep_of_bindsIn hexport hnamed hd hvariables (((areBound_boundIn d).mem_iff v.1 v.2).mp hv)
  · exact Family.tryRead_eq_error_iff.mpr (Family.script_breaksOff_iff.mpr ⟨herror, t, n, hbreak⟩)
  · obtain ⟨_, rfl⟩ := Family.tryRead_eq_ok_iff.mp hfile
    rw [← hadded]
    exact ⟨(Family.returned_iff_of_clean hclean).mp hfile t n hn, exports_addedAt hexport hn hclean⟩

/-- Two declarators, the patterns of which hold a key and a default, and one name twice. -/
def destructured : Node :=
  .plain "lexical_declaration" (some "declaration") 7 46
    [.plain "variable_declarator" none 13 37
      [.plain "object_pattern" (some "name") 13 33
        [.plain "pair_pattern" none 14 24
          [.plain "property_identifier" (some "key") 14 15 [],
            .plain "array_pattern" (some "value") 17 24 [.plain "assignment_pattern" none 18 23
              [.plain "identifier" (some "left") 18 19 [], .plain "identifier" (some "right") 22 23 []]]],
          .plain "rest_pattern" none 26 32 [.plain "object_pattern" none 29 32
            [.plain "shorthand_property_identifier_pattern" none 30 31 []]]],
        .plain "identifier" (some "value") 36 37 []],
      .plain "variable_declarator" none 39 46
        [.plain "object_pattern" (some "name") 39 42
          [.plain "shorthand_property_identifier_pattern" none 40 41 []],
        .plain "identifier" (some "value") 45 46 []]]

def destructuredExport : Node := .plain "export_statement" none 0 46 [destructured]

def destructuredScript : Node := .plain "program" none 0 46 [destructuredExport]

def destructuredText : Source :=
  .ofString "export const \x7bk: [a = b], ...\x7bc\x7d\x7d = o, \x7ba\x7d = q"

/-- Neither the key nor the default nor a value is listed, and the repeated name is listed twice. -/
theorem exports_bound_names_of_destructured : ∃ file,
    Family.script.tryRead "a.js" "javascript" destructuredText .default destructuredScript = .ok file ∧
    file.hasErrors = false ∧ file.exports.map Export.name = ["a", "c", "a"] ∧
      ∃ bound, AreBound destructured bound ∧ names destructuredText bound = ["a", "c", "a"] ∧
        AddedAt (exported destructuredText) destructuredScript [(destructuredScript, 0)] destructuredExport
          ((names destructuredText bound).map (named destructuredText destructuredExport)) file.exports := by
  have hfile : Family.script.tryRead "a.js" "javascript" destructuredText .default destructuredScript =
      .ok (Family.script.read "a.js" "javascript" destructuredText .default destructuredScript) :=
    Family.tryRead_eq_ok_iff.mpr ⟨by decide +kernel, rfl⟩
  have hclean : (Family.script.read "a.js" "javascript" destructuredText .default destructuredScript).hasErrors =
      false := by decide +kernel
  have hnothing : passedOn destructuredText destructuredExport = [] := by decide +kernel
  obtain ⟨_, bound, hbound, _, hadded, hlists⟩ := exports_bound_names destructuredText destructuredExport destructured
    rfl (by decide +kernel) (by rfl) (.inl rfl)
  obtain ⟨hshallow, hlisted⟩ := (hlists "a.js" "javascript" .default destructuredScript [(destructuredScript, 0)]
    (.child .root rfl rfl)).2 _ hfile hclean
  have hadded := hadded hshallow
  rw [hnothing, List.append_nil] at hadded hlisted
  refine ⟨_, hfile, hclean, by decide +kernel, bound, hbound, ?_, hlisted⟩
  have hnames := congrArg (List.map Export.name) hadded
  rw [List.map_map] at hnames
  exact (List.map_id _).symm.trans (hnames.symm.trans (by decide +kernel))

/-- Not every name that a declaration of a module binds is listed. -/
theorem not_every_name_listed : ¬ ∀ (path language : String) (s : Source) (o : Options) (root n d : Node)
    (t : Trail), n.type = "export_statement" → n.hasToken "default" = false → n.child? "declaration" = some d →
    d.type = "lexical_declaration" → root.Reaches t n → root.hasError = false → o.sourceType = .asModule →
    ∃ file bound, Family.script.tryRead path language s o root = .ok file ∧ AreBound d bound ∧
      AddedAt (exported s) root t n ((names s bound ++ passedOn s n).map (named s n)) file.exports := by
  intro h
  obtain ⟨_, _, hfile, _⟩ := h "a.js" "javascript" (nestedText 1000) .default (nestedScript 1000) (nestedExport 1000)
    (nestedDeclaration 1000) _ rfl rfl rfl rfl (.child .root (rfl : (nestedScript 1000).children[0]? = _) rfl)
    (hasError_nestedScript 1000) rfl
  rw [Family.tryRead_nestedScript (by decide) _ _ _ rfl] at hfile
  cases hfile

end CodeAtlas.Outline.Script
