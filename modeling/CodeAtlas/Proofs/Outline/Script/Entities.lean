import CodeAtlas.Proofs.Outline.Refusal

/-! # The entities of a script

A script that is not refused lists exactly what the nodes of its tree declare. A class lists its members at
its own visit; their own visits find nothing, so no node is listed twice. -/

namespace CodeAtlas.Outline.Script

open CodeAtlas.Tree

variable {path : String} {s : Source} {sourceType : SourceType} {root n : Node} {owner : String}
  {v w : Trail × Node} {fs : List Finding} {d : Declaration}

/-! ## One visit -/

theorem tells_member (above : Trail) (h : member path s owner v.2 = .ok fs) :
    Tells path s (declaredMember? above owner v).toList fs := by
  rw [declaredMember?]
  rcases member_eq path s owner v.2 with ⟨hkind, hmember⟩ | ⟨kind, hkind, t, htraits, hmember⟩
  · rw [hmember] at h
    cases h
    rw [hkind]
    exact .nil
  · obtain ⟨visibility, _, rfl⟩ := exists_of_map_ok (hmember.symm.trans h)
    rw [hkind]
    exact Tells.nil.sight (d := ⟨above ++ v.1, v.2, kind, some owner⟩) (htraits visibility).1

theorem tells_members (above : Trail) (h : members path s owner (n.child? "body") = .ok fs) :
    Tells path s ((inBody n).filterMap (declaredMember? above owner)) fs := by
  rw [members_eq] at h
  obtain ⟨r, hr, rfl⟩ := exists_of_map_ok h
  rw [List.filterMap_eq_flatMap_toList]
  exact Tells.mapM (fun v fs hfs => tells_member above hfs) hr

theorem declared_of_kind {kind : EntityKind} (h : reportedKind? v.1 v.2 = some kind)
    (hne : kind ≠ .«class») : declared s v = [⟨v.1, v.2, kind, none⟩] := by
  rw [declared, h]
  cases kind with
  | «class» => exact absurd rfl hne
  | _ => rfl

theorem declared_of_class (h : reportedKind? v.1 v.2 = some .«class») :
    declared s v = ⟨v.1, v.2, .«class», none⟩ ::
      (inBody v.2).filterMap (declaredMember? v.1 (className s v.2)) := by
  rw [declared, h]

theorem declared_of_none (h : reportedKind? v.1 v.2 = none) : declared s v = [] := by
  rw [declared, h]

/-- What is reported declares itself. -/
theorem mem_declared_of_reported {kind : EntityKind} (hkind : reportedKind? v.1 v.2 = some kind) :
    ⟨v.1, v.2, kind, none⟩ ∈ declared s v := by
  by_cases hclass : kind = .«class»
  · subst hclass
    rw [declared_of_class hkind]
    exact List.mem_cons_self
  · rw [declared_of_kind hkind hclass]
    exact List.mem_singleton_self _

/-- What a visit finds is what the node declares. -/
theorem tells_findings (h : findings path s sourceType v.1.getLast? v.2 = .ok fs) :
    Tells path s (declared s v) fs := by
  have hfinds := finds_findings path s sourceType v.1 v.2
  rw [h] at hfinds
  generalize hresult : Except.ok fs = result at hfinds
  cases hfinds with
  | @entity kind name t hkind hne howner =>
    cases hresult
    rw [declared_of_kind hkind hne]
    exact Tells.nil.sight (d := ⟨v.1, v.2, kind, none⟩) howner
  | @classAndMembers t hkind howner =>
    obtain ⟨inside, hinside, rfl⟩ := exists_of_map_ok hresult.symm
    rw [declared_of_class hkind]
    exact (tells_members v.1 hinside).sight (d := ⟨v.1, v.2, .«class», none⟩) howner
  | refused => cases hresult
  | noEntity hkind _ hnone =>
    cases hresult
    rw [declared_of_none hkind]
    exact .of_no_entity hnone

theorem tells_extract (h : extract path s sourceType root = .ok fs) :
    Tells path s (root.tour.flatMap (declared s)) fs := by
  rw [extract_eq] at h
  obtain ⟨r, hr, rfl⟩ := exists_of_map_ok h
  exact Tells.mapM (fun v fs hfs => tells_findings hfs) hr

/-! ## No node twice -/

theorem mem_inBody (h : w ∈ inBody n) : ∃ body i j, n.children[i]? = some body ∧
    body.children[j]? = some w.2 ∧ w.1 = [(n, i), (body, j)] := by
  rw [inBody] at h
  split at h
  · cases h
  · next body i hbody =>
    obtain ⟨⟨m, j⟩, hm, rfl⟩ := List.mem_map.mp h
    exact ⟨body, i, j, Node.getElem?_of_numberedChild? hbody, Node.getElem?_of_mem_numbered hm, rfl⟩

theorem pairwise_inBody (n : Node) :
    (inBody n).Pairwise fun v w => Trail.place v.1 ≠ Trail.place w.1 := by
  rw [inBody]
  split
  · exact .nil
  · next body i _ =>
    refine List.pairwise_map.mpr ((Node.pairwise_numbered body).imp fun hne he => hne ?_)
    simpa [Trail.place] using he

theorem mem_declared (h : d ∈ declared s v) :
    (∃ kind, reportedKind? v.1 v.2 = some kind ∧ d = ⟨v.1, v.2, kind, none⟩) ∨
      reportedKind? v.1 v.2 = some .«class» ∧
        ∃ w ∈ inBody v.2, declaredMember? v.1 (className s v.2) w = some d := by
  cases hkind : reportedKind? v.1 v.2 with
  | none =>
    rw [declared_of_none hkind] at h
    cases h
  | some kind =>
    by_cases hclass : kind = .«class»
    · subst hclass
      rw [declared_of_class hkind] at h
      rcases List.mem_cons.mp h with rfl | h
      · exact .inl ⟨_, rfl, rfl⟩
      · exact .inr ⟨rfl, List.mem_filterMap.mp h⟩
    · rw [declared_of_kind hkind hclass] at h
      exact .inl ⟨kind, rfl, List.mem_singleton.mp h⟩

/-- How far above a node the visit is that would declare it. -/
def depth (m : Node) : Nat := if (memberKind? m).isSome then 2 else 0

theorem memberKind?_of_reported {above : Trail} {kind : EntityKind}
    (h : reportedKind? above n = some kind) : memberKind? n = none := by
  revert h
  fun_cases memberKind? n
  · next hn => simp [reportedKind?, hn]
  · next hn => simp [reportedKind?, hn]
  · next hn => simp [reportedKind?, hn]
  · exact fun _ => rfl

theorem of_declaredMember? {above : Trail} (h : declaredMember? above owner w = some d) :
    (memberKind? d.node).isSome = true ∧ d.node = w.2 ∧ d.place = above.place ++ Trail.place w.1 := by
  obtain ⟨kind, hkind, rfl⟩ := Option.map_eq_some_iff.mp h
  exact ⟨Option.isSome_of_eq_some hkind, rfl, List.map_append⟩

theorem at?_of_mem_declared (hv : root.Reaches v.1 v.2) (h : d ∈ declared s v) :
    root.at? d.place = some d.node := by
  rcases mem_declared h with ⟨kind, _, rfl⟩ | ⟨_, w, hw, hd⟩
  · exact hv.at?_place
  · obtain ⟨_, hnode, hplace⟩ := of_declaredMember? hd
    obtain ⟨body, i, j, hbody, hm, hway⟩ := mem_inBody hw
    rw [hplace, hnode, hway, Node.at?_append, hv.at?_place]
    simp [Trail.place, Node.at?, hbody, hm]

theorem depth_of_mem_declared (h : d ∈ declared s v) :
    ∃ rest, rest.length = depth d.node ∧ d.place = v.1.place ++ rest := by
  rcases mem_declared h with ⟨kind, hkind, rfl⟩ | ⟨_, w, hw, hd⟩
  · refine ⟨[], ?_, (List.append_nil _).symm⟩
    rw [depth, memberKind?_of_reported hkind]
    rfl
  · obtain ⟨hmember, _, hplace⟩ := of_declaredMember? hd
    obtain ⟨body, i, j, _, _, hway⟩ := mem_inBody hw
    refine ⟨Trail.place w.1, ?_, hplace⟩
    rw [depth, if_pos hmember, hway]
    rfl

theorem nodup_declared (s : Source) (v : Trail × Node) :
    ((declared s v).map Declaration.place).Nodup := by
  cases hkind : reportedKind? v.1 v.2 with
  | none =>
    rw [declared_of_none hkind]
    exact .nil
  | some kind =>
    by_cases hclass : kind = .«class»
    · subst hclass
      rw [declared_of_class hkind, List.map_cons, List.nodup_cons]
      constructor
      · intro hmem
        obtain ⟨d, hd, he⟩ := List.mem_map.mp hmem
        obtain ⟨w, hw, hd⟩ := List.mem_filterMap.mp hd
        obtain ⟨_, _, hplace⟩ := of_declaredMember? hd
        obtain ⟨body, i, j, _, _, hway⟩ := mem_inBody hw
        rw [hplace, hway] at he
        simp [Declaration.place, Trail.place] at he
      · refine List.pairwise_map.mpr (List.pairwise_filterMap.mpr ?_)
        refine (pairwise_inBody v.2).imp fun hne d hd d' hd' he => hne ?_
        rw [(of_declaredMember? hd).2.2, (of_declaredMember? hd').2.2] at he
        exact List.append_cancel_left he
    · rw [declared_of_kind hkind hclass]
      exact List.nodup_singleton _

/-! ## The file -/

/-- In a module without unknown modifiers no node is refused. -/
theorem refusal?_of_module (hmodule : sourceType = .asModule)
    (hknown : ∀ t n, root.Reaches t n → reportedKind? t n = some .«class» → ¬ HasUnknownModifier s n) :
    ∀ t n, root.Reaches t n → refusal? s sourceType (t, n) = none := fun t n hn =>
  refusal?_eq_none_iff.mpr ⟨fun h => by simp [hmodule] at h, fun h => hknown t n hn h.1 h.2⟩

/-- A script is not refused if its tree has no fault and no node of it is refused. -/
theorem not_refused {o : Options} (herror : root.hasError = false)
    (hallowed : ∀ t n, root.Reaches t n → refusal? s o.sourceType (t, n) = none) :
    Family.script.refusal? s o root = none := by
  rw [Family.refusal?, syntaxError?_eq_none_iff.mpr herror, Option.none_or, Family.ownRefusal?]
  exact Node.findSome?_tour_eq_none_iff.mpr hallowed

/-- The walk of a module breaks off if an export of variables among its nodes nests too deep. Otherwise it comes to
every node that named children lead to, once, in the order of the text, and ends. The file then lists, sorted by
where they begin, what these nodes declare one after the other, and lists no node twice. -/
theorem lists_declared (path language : String) (s : Source) (o : Options) (root : Node)
    (herror : root.hasError = false) (hmodule : o.sourceType = .asModule)
    (hknown : ∀ t n, root.Reaches t n → reportedKind? t n = some .«class» →
      ¬ HasUnknownModifier s n) :
    (Family.script.tryRead path language s o root = .error .exceeded ↔
      ∃ t n, root.Reaches t n ∧ nestsTooDeep n = true) ∧
    ((∀ t n, root.Reaches t n → nestsTooDeep n = false) → ∃ file visited,
      Family.script.tryRead path language s o root = .ok file ∧ file.hasErrors = false ∧
      Node.Walked (γ := Above) (fun _ n i => some (n, i)) none root visited ∧
      visits root = visited.map (fun v => (v.1.getLast?, v.2)) ∧
      Lists path s root (visited.flatMap (declared s)) file) := by
  have hallowed := refusal?_of_module hmodule hknown
  have hbreaks : Family.script.breaksOff path s o root = true ↔
      ∃ t n, root.Reaches t n ∧ nestsTooDeep n = true := by
    rw [Family.breaksOff, syntaxError?_eq_none_iff.mpr herror, Option.isNone_none, Bool.true_and,
      breaksOff_iff_of_allowed hallowed]
  refine ⟨Family.tryRead_eq_error_iff.trans hbreaks, fun hshallow => ?_⟩
  have hreturned : Family.script.breaksOff path s o root = false := by
    refine Bool.eq_false_iff.mpr fun hbreak => ?_
    obtain ⟨t, n, hn, hdeep⟩ := hbreaks.mp hbreak
    rw [hshallow t n hn] at hdeep
    cases hdeep
  obtain ⟨fs, hextract, hread⟩ := Family.read_of_not_refused path language (not_refused herror hallowed)
  exact ⟨_, root.tour, Family.tryRead_eq_ok_iff.mpr ⟨hreturned, hread⟩, rfl, Node.walked_tour _ _ _, visits_eq root,
    (tells_extract hextract).lists depth (fun _ hv _ hd => at?_of_mem_declared hv hd)
      (fun _ _ hd => depth_of_mem_declared hd) (nodup_declared s)⟩

/-- A class without a name that is an exported value, with a private method. -/
def exportedClass : Node :=
  .plain "program" none 0 39 [.plain "export_statement" none 0 39
    [.plain "class" (some "value") 15 39 [.plain "class_body" (some "body") 21 39
      [.plain "method_definition" none 23 37
        [.plain "accessibility_modifier" none 23 30 [],
          .plain "property_identifier" (some "name") 31 32 []]]]]]

def exportedClassText : Source := .ofString "export default class \x7b private m() \x7b\x7d \x7d"

/-- The class and its method are listed, the method once, for the class. -/
theorem lists_declared_of_exportedClass : ∃ file visited,
    Family.script.tryRead "a.js" "javascript" exportedClassText .default exportedClass = .ok file ∧
      file.hasErrors = false ∧
      Node.Walked (γ := Above) (fun _ n i => some (n, i)) none exportedClass visited ∧
      Lists "a.js" exportedClassText exportedClass (visited.flatMap (declared exportedClassText)) file ∧
      ((visited.flatMap (declared exportedClassText)).map fun d => (d.place, d.kind, d.owner?)) =
        [([0, 0], .«class», none), ([0, 0, 0, 0], .method, some "AnonymousClass")] := by
  have hfirst : exportedClass.tour.findSome? (refusal? exportedClassText .asModule) = none := by
    decide +kernel
  have hknown : ∀ t n, exportedClass.Reaches t n → reportedKind? t n = some .«class» →
      ¬ HasUnknownModifier exportedClassText n := fun t n hn hclass hm =>
    (refusal?_eq_none_iff.mp (Node.findSome?_tour_eq_none_iff.mp hfirst t n hn)).2 ⟨hclass, hm⟩
  have hshallow : ∀ v ∈ exportedClass.tour, nestsTooDeep v.2 = false := by decide +kernel
  obtain ⟨file, visited, hfile, hclean, hwalked, _, hlists⟩ := (lists_declared "a.js" "javascript"
    exportedClassText .default exportedClass (by decide +kernel) rfl hknown).2
    fun t n hn => hshallow (t, n) (Node.mem_tour_iff.mpr hn)
  refine ⟨file, visited, hfile, hclean, hwalked, hlists, ?_⟩
  rw [hwalked.eq_tour]
  decide +kernel

/-- Not every module without faults and unknown modifiers is listed. -/
theorem not_always_listed : ¬ ∀ (path language : String) (s : Source) (o : Options) (root : Node),
    root.hasError = false → o.sourceType = .asModule →
    (∀ t n, root.Reaches t n → reportedKind? t n = some .«class» → ¬ HasUnknownModifier s n) →
    ∃ file, Family.script.tryRead path language s o root = .ok file ∧ file.hasErrors = false ∧
      Lists path s root (root.tour.flatMap (declared s)) file := by
  intro h
  obtain ⟨_, hfile, _⟩ := h "a.js" "javascript" (nestedText 1000) .default (nestedScript 1000)
    (hasError_nestedScript 1000) rfl fun t n hn hclass => by
      rw [reportedKind?_of_nestedScript hn] at hclass
      cases hclass
  rw [Family.tryRead_nestedScript (by decide) _ _ _ rfl] at hfile
  cases hfile

end CodeAtlas.Outline.Script
