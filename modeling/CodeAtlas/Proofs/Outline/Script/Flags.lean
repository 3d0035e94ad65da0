import CodeAtlas.Proofs.Outline.Recorded
import CodeAtlas.Proofs.Outline.Script.Declarations

/-! # Flags and exports

Whether an entity is exported is told by what stands above its node, and which exports a file has is told by what stands
below its export statements. The two agree: the entity of what an export statement exports is flagged and goes by the
name that the statement lists, unless it has no name of its own. -/

namespace CodeAtlas.Outline.Script

open CodeAtlas.Tree

variable {path : String} {s : Source} {sourceType : SourceType} {above : Trail} {n m x d : Node} {i : Nat}
  {owner : String} {kind : EntityKind} {fs : List Finding} {v : Trail × Node}

/-! ## What an entity shows -/

/-- Whether what is declared is flagged: it is no member of a class and no arrow function. -/
def IsFlagged (d : Declaration) : Prop := d.owner? = none ∧ d.node.type ≠ "arrow_function"

/-- Whether an entity shows the name of its node, and whether this stands right below an `export`. -/
structure Shows (s : Source) (d : Declaration) (e : Entity) : Prop where
  flag : IsFlagged d → e.isExported? = some (isExported d.above)
  name : IsFlagged d → e.name = nameOr s d.node (unnamed d.kind)
  unflagged : ¬ IsFlagged d → e.isExported? = none

namespace Shows

variable {declaration : Declaration} {e : Entity}

theorem of_flagged (h : IsFlagged declaration) (hflag : e.isExported? = some (isExported declaration.above))
    (hname : e.name = nameOr s declaration.node (unnamed declaration.kind)) : Shows s declaration e :=
  ⟨fun _ => hflag, fun _ => hname, absurd h⟩

theorem of_not_flagged (h : ¬ IsFlagged declaration) (hnone : e.isExported? = none) : Shows s declaration e :=
  ⟨fun h' => absurd h' h, fun h' => absurd h' h, fun _ => hnone⟩

end Shows

theorem shows_member (above : Trail) (h : member path s owner v.2 = .ok fs) :
    List.Forall₂ (Shows s) (declaredMember? above owner v).toList (fs.filterMap Finding.entity?) := by
  rw [declaredMember?]
  rcases member_eq path s owner v.2 with ⟨hkind, hmember⟩ | ⟨kind, hkind, t, htraits, hmember⟩
  · cases hmember.symm.trans h
    rw [hkind]
    exact .nil
  · obtain ⟨visibility, _, rfl⟩ := exists_of_map_ok (hmember.symm.trans h)
    rw [hkind]
    exact .cons (.of_not_flagged (fun h => absurd h.1 (Option.some_ne_none owner)) (htraits visibility).2) .nil

theorem shows_members (above : Trail) (h : members path s owner (n.child? "body") = .ok fs) :
    List.Forall₂ (Shows s) ((inBody n).filterMap (declaredMember? above owner)) (fs.filterMap Finding.entity?) := by
  rw [members_eq] at h
  obtain ⟨r, hr, rfl⟩ := exists_of_map_ok h
  rw [List.filterMap_eq_flatMap_toList]
  exact forall₂_flatten_of_mapM_ok (fun v fs hfs => shows_member above hfs) hr

/-- The entities of a visit show what the node declares. -/
theorem shows_findings (h : findings path s sourceType v.1.getLast? v.2 = .ok fs) :
    List.Forall₂ (Shows s) (declared s v) (fs.filterMap Finding.entity?) := by
  by_cases harrow : v.2.type = "arrow_function"
  · have hkind : reportedKind? v.1 v.2 = some .function := by simp [reportedKind?, harrow]
    rw [findings_of_arrow harrow] at h
    cases h
    rw [declared_of_kind hkind (by decide)]
    exact .cons (.of_not_flagged (fun h => h.2 harrow) rfl) .nil
  by_cases hmodular : IsModular v.2
  · have hkind : reportedKind? v.1 v.2 = none := reportedKind?_of_isModular hmodular
    have htells := tells_findings h
    rw [Tells, declared_of_none hkind, List.forall₂_nil_left_iff] at htells
    rw [declared_of_none hkind, htells]
    exact .nil
  rw [findings_eq harrow hmodular] at h
  split at h
  · next hkind =>
    cases h
    rw [declared_of_none hkind]
    exact .nil
  · next hkind =>
    obtain ⟨inside, hinside, rfl⟩ := exists_of_map_ok h
    rw [declared_of_class hkind]
    exact .cons (.of_flagged ⟨rfl, harrow⟩ rfl rfl) (shows_members v.1 hinside)
  · next kind hclass hkind =>
    cases h
    rw [declared_of_kind hkind hclass]
    exact .cons (.of_flagged ⟨rfl, harrow⟩ rfl rfl) .nil

/-- A script that is not refused lists an entity for everything that is declared, and each entity shows it. -/
theorem exists_shown {path language : String} {o : Options} {root : Node}
    (hclean : (Family.script.read path language s o root).hasErrors = false) :
    ∃ ds listed, ds.Perm (Family.script.declared s root) ∧
      Recorded path s ds (Family.script.read path language s o root).entities listed ∧
      ∀ v ∈ listed, Shows s v.1 v.2 := by
  rcases Family.exists_sorted .script path language s o root with
    ⟨hrefused, _⟩ | ⟨fs, recorded, listed, hextract, hrecorded, hperm, hlisted⟩
  · exact absurd (Family.refusal?_of_clean hclean) hrefused
  change extract path s o.sourceType root = .ok fs at hextract
  rw [extract_eq] at hextract
  obtain ⟨fss, hfss, rfl⟩ := exists_of_map_ok hextract
  have hshows : List.Forall₂ (Shows s) (recorded.map Prod.fst) (recorded.map Prod.snd) := by
    rw [hrecorded.declarations, hrecorded.entities]
    exact forall₂_flatten_of_mapM_ok (fun v fs hfs => shows_findings hfs) hfss
  rw [List.forall₂_map_left_iff, List.forall₂_map_right_iff, List.forall₂_same] at hshows
  exact ⟨_, listed, hrecorded.declarations ▸ hperm.map Prod.fst, hlisted,
    fun v hv => hshows v (hperm.mem_iff.mp hv)⟩

/-! ## What is exported -/

/-- Whether a child of a statement is what it exports: its declaration, or the value of a default export that has no
declaration. -/
inductive IsTarget (x d : Node) (i : Nat) : Prop
  | declaration : x.numberedChild? "declaration" = some (d, i) → IsTarget x d i
  | value : x.hasToken "default" = true → x.child? "declaration" = none →
      x.numberedChild? "value" = some (d, i) → IsTarget x d i

/-- Whether an entity and what an export statement adds to the exports agree on the node that is exported. -/
structure Agrees (s : Source) (x d : Node) (e : Entity) (added : List Export) : Prop where
  flag : e.isExported? = some true
  named : ∀ name, ownNames s d = [name] → e.name = name ∧ ⟨name, x.hasToken "default", s.line x⟩ ∈ added
  namelessDefault : ownNames s d = [] → x.hasToken "default" = true → added = [⟨"default", true, s.line x⟩]
  nameless : ownNames s d = [] → x.hasToken "default" = false → added = (passedOn s x).map (Script.named s x)

theorem IsTarget.getElem? (h : IsTarget x d i) : x.children[i]? = some d := by
  cases h with
  | declaration h => exact Node.getElem?_of_numberedChild? h
  | value _ _ h => exact Node.getElem?_of_numberedChild? h

theorem child?_of_numberedChild? {field : String} (h : x.numberedChild? field = some (d, i)) :
    x.child? field = some d := by
  rw [Node.child?_eq_map_numberedChild?, h, Option.map_some]

/-- Neither a plain name nor a declaration of variables is reported. -/
theorem type_ne_of_reported (h : reportedKind? above n = some kind) :
    n.type ≠ "identifier" ∧ n.type ∉ variableDeclarations := by
  constructor
  · intro htype
    simp [reportedKind?, htype] at h
  · intro htype
    rcases List.mem_pair.mp htype with htype | htype <;> simp [reportedKind?, htype] at h

theorem nameOr_eq (s : Source) (d : Node) (other : String) : nameOr s d other = (ownNames s d).headD other := by
  rw [nameOr, ownNames]
  cases nonempty? (s.fieldText? d "name") <;> rfl

theorem IsTarget.defaultName_eq (h : IsTarget x d i) (htype : d.type ≠ "identifier") :
    defaultName s x = (ownNames s d).headD "default" := by
  have htarget : (x.child? "declaration" <|> x.child? "value") = some d := by
    cases h with
    | declaration h =>
      rw [child?_of_numberedChild? h]
      rfl
    | value _ hnone h =>
      rw [hnone, child?_of_numberedChild? h]
      rfl
  rw [defaultName, htarget]
  dsimp only
  rw [if_neg (by simpa using htype), nameOr_eq]

/-- What a statement adds for a reported node: a default export, or the name of the node if it has one. -/
theorem IsTarget.exportsOf_eq (h : IsTarget x d i) (hkind : reportedKind? above d = some kind) :
    exportsOf s x = if x.hasToken "default" = true then [⟨(ownNames s d).headD "default", true, s.line x⟩]
      else (ownNames s d ++ passedOn s x).map (named s x) := by
  obtain ⟨hidentifier, hvariables⟩ := type_ne_of_reported hkind
  split
  · next hdefault => rw [exportsOf_of_default hdefault, h.defaultName_eq hidentifier]
  · next hdefault =>
    cases h with
    | declaration hd =>
      rw [exportsOf_of_declaration (by simpa using hdefault) (child?_of_numberedChild? hd),
        declaredNames_of_not_variables hvariables]
    | value h _ _ => exact absurd h hdefault

theorem IsTarget.agrees {e : Entity} (h : IsTarget x d i) (hkind : reportedKind? above d = some kind)
    (hflag : e.isExported? = some true) (hname : e.name = nameOr s d (unnamed kind)) :
    Agrees s x d e (exportsOf s x) := by
  rw [nameOr_eq] at hname
  rw [h.exportsOf_eq hkind]
  refine ⟨hflag, fun name hown => ?_, fun hown hdefault => ?_, fun hown hdefault => ?_⟩
  · rw [hown] at hname ⊢
    refine ⟨hname, ?_⟩
    cases hdefault : x.hasToken "default" with
    | true => exact List.mem_singleton_self _
    | false => exact List.mem_cons_self
  · rw [hown, if_pos hdefault]
    rfl
  · rw [hown, if_neg (by simp [hdefault])]
    rfl

/-! ## Flags and exports -/

theorem exists_of_isExported (h : isExported above = true) :
    ∃ t x i, above = t ++ [(x, i)] ∧ x.type = "export_statement" := by
  obtain ⟨step, hstep, htype⟩ := Option.any_eq_true _ _ |>.mp h
  obtain ⟨t, rfl⟩ := List.getLast?_eq_some_iff.mp hstep
  exact ⟨t, step.1, step.2, rfl, eq_of_beq htype⟩

theorem isExported_append (t : Trail) (i : Nat) (hexport : x.type = "export_statement") :
    isExported (t ++ [(x, i)]) = true := by
  simp [isExported, hexport]

theorem mem_exportsOf {r : Export} (h : r ∈ exportsOf s x) :
    r.line = s.line x ∧ r.isDefault = x.hasToken "default" := by
  cases hdefault : x.hasToken "default" with
  | true =>
    rw [exportsOf_of_default hdefault, List.mem_singleton] at h
    rw [h]
    exact ⟨rfl, rfl⟩
  | false =>
    rw [exportsOf_of_named hdefault] at h
    obtain ⟨name, _, rfl⟩ := List.mem_map.mp h
    exact ⟨rfl, rfl⟩

/-- In a script that is not refused, an entity is flagged as exported only if its node stands right below an export
statement. All that a statement adds to the exports has its line and is marked as a default if the statement says so, in
which case it adds but one export. If the statement exports a function other than an arrow function, a class or a type,
then the entity of this is flagged and goes by the name that the statement lists; if it has no name of its own, then the
statement lists `default` or nothing for it. -/
theorem flags_agree_with_exports (path language : String) (s : Source) (o : Options) (root : Node)
    (hclean : (Family.script.read path language s o root).hasErrors = false) :
    let file := Family.script.read path language s o root;
    ∃ ds listed, ds.Perm (Family.script.declared s root) ∧ Recorded path s ds file.entities listed ∧
      (∀ v ∈ listed, v.2.isExported? = some true →
        ∃ t x i, v.1.above = t ++ [(x, i)] ∧ x.type = "export_statement") ∧
      ∀ t x, root.Reaches t x → x.type = "export_statement" →
        ∃ added, AddedAt (exported s) root t x added file.exports ∧
          (∀ r ∈ added, r.line = s.line x ∧ r.isDefault = x.hasToken "default") ∧
          (x.hasToken "default" = true → added.length = 1) ∧
          ∀ d i kind, IsTarget x d i → d.face.named = true → reportedKind? (t ++ [(x, i)]) d = some kind →
            d.type ≠ "arrow_function" →
            ∃ v ∈ listed, v.1 = ⟨t ++ [(x, i)], d, kind, none⟩ ∧ Agrees s x d v.2 added := by
  intro file
  obtain ⟨ds, listed, hperm, hlisted, hshows⟩ := exists_shown hclean
  refine ⟨ds, listed, hperm, hlisted, fun v hv hflag => ?_, fun t x hx hexport => ?_⟩
  · by_cases hflagged : IsFlagged v.1
    · exact exists_of_isExported (Option.some.inj (((hshows v hv).flag hflagged).symm.trans hflag))
    · cases ((hshows v hv).unflagged hflagged).symm.trans hflag
  · refine ⟨exportsOf s x, exports_addedAt hexport hx hclean, fun r hr => mem_exportsOf hr, fun hdefault => ?_, ?_⟩
    · rw [exportsOf_of_default hdefault]
      rfl
    intro d i kind htarget hnamed hkind harrow
    -- what is exported is visited right below the statement, so there is an entity for it
    have hd : root.Reaches (t ++ [(x, i)]) d := .child hx htarget.getElem? hnamed
    have hdeclared : ⟨t ++ [(x, i)], d, kind, none⟩ ∈ Family.script.declared s root :=
      List.mem_flatMap.mpr ⟨(t ++ [(x, i)], d), Node.mem_tour_iff.mpr hd, mem_declared_of_reported hkind⟩
    obtain ⟨v, hv, hdeclaration⟩ := hlisted.exists_of_declaration (hperm.mem_iff.mpr hdeclared)
    have hshown := hshows v hv
    rw [hdeclaration] at hshown
    have hflag := hshown.flag ⟨rfl, harrow⟩
    rw [isExported_append t i hexport] at hflag
    exact ⟨v, hv, hdeclaration, htarget.agrees hkind hflag (hshown.name ⟨rfl, harrow⟩)⟩

def exportedFunction : Node :=
  .plain "function_declaration" (some "declaration") 7 22
    [.plain "identifier" (some "name") 16 17 [], .plain "formal_parameters" (some "parameters") 17 19 [],
      .plain "statement_block" (some "body") 20 22 []]

def functionExport : Node := .plain "export_statement" none 0 22 [exportedFunction]

def namelessClass : Node :=
  .plain "class" (some "value") 38 46 [.plain "class_body" (some "body") 44 46 []]

def defaultExport : Node :=
  .plain "export_statement" none 23 46
    [.mk ⟨"default", false, none, 30, 37, false, false, false, false⟩ [], namelessClass]

/-- A function that is exported by its name, and a class without a name that is the default. -/
def twoExports : Node := .plain "program" none 0 46 [functionExport, defaultExport]

def twoExportsText : Source :=
  .ofString "export function f() \x7b\x7d\nexport default class \x7b\x7d"

/-- Both are flagged; the function is listed by its name, and the class as the default. -/
theorem flags_agree_with_exports_of_twoExports :
    let file := Family.script.read "a.js" "javascript" twoExportsText .default twoExports;
    file.hasErrors = false ∧
      file.exports = [⟨"f", false, 1⟩, ⟨"default", true, 2⟩] ∧
      ∃ ds listed, Recorded "a.js" twoExportsText ds file.entities listed ∧
        (∃ v ∈ listed, v.1.node = exportedFunction ∧
          Agrees twoExportsText functionExport exportedFunction v.2 [⟨"f", false, 1⟩]) ∧
        ∃ v ∈ listed, v.1.node = namelessClass ∧
          Agrees twoExportsText defaultExport namelessClass v.2 [⟨"default", true, 2⟩] := by
  intro file
  have hclean : file.hasErrors = false := by decide +kernel
  obtain ⟨ds, listed, _, hlisted, _, hstatements⟩ :=
    flags_agree_with_exports "a.js" "javascript" twoExportsText .default twoExports hclean
  have hfunction : twoExports.Reaches [(twoExports, 0)] functionExport := .child .root rfl rfl
  have hclass : twoExports.Reaches [(twoExports, 1)] defaultExport := .child .root rfl rfl
  refine ⟨hclean, by decide +kernel, ds, listed, hlisted, ?_, ?_⟩
  · obtain ⟨added, hadded, _, _, htargets⟩ := hstatements _ _ hfunction rfl
    obtain ⟨v, hv, hdeclaration, hagrees⟩ :=
      htargets exportedFunction 0 .function (.declaration rfl) rfl rfl (by decide)
    have hlist : exportsOf twoExportsText functionExport = [⟨"f", false, 1⟩] := by decide +kernel
    exact ⟨v, hv, congrArg Declaration.node hdeclaration,
      hlist ▸ hadded.eq (exports_addedAt rfl hfunction hclean) ▸ hagrees⟩
  · obtain ⟨added, hadded, _, _, htargets⟩ := hstatements _ _ hclass rfl
    obtain ⟨v, hv, hdeclaration, hagrees⟩ :=
      htargets namelessClass 1 .«class» (.value (by decide +kernel) rfl rfl) rfl rfl (by decide)
    have hlist : exportsOf twoExportsText defaultExport = [⟨"default", true, 2⟩] := by decide +kernel
    exact ⟨v, hv, congrArg Declaration.node hdeclaration,
      hlist ▸ hadded.eq (exports_addedAt rfl hclass hclean) ▸ hagrees⟩

end CodeAtlas.Outline.Script
