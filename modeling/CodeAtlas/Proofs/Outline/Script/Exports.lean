import CodeAtlas.Proofs.Outline.Refusal
import Mathlib.Data.List.Basic

/-! # Imports and exports

Only import and export statements add to the imports and exports of a script, each of them at its own visit. So a script
that is not refused lists what its statements add, one after the other in the order of the text. What an export
statement adds is one default export, or else the names that its declaration declares and the names that it only passes
on. -/

namespace CodeAtlas.Outline.Script

open CodeAtlas.Tree

variable {path language : String} {s : Source} {sourceType : SourceType} {o : Options} {root n d : Node} {t : Trail}
  {v : Trail × Node} {fs : List Finding}

/-- What a visited node adds to the imports. -/
def imported (s : Source) (v : Trail × Node) : List Import :=
  if v.2.type = "import_statement" then (importOf? s v.2).toList else []

/-- What a visited node adds to the exports. -/
def exported (s : Source) (v : Trail × Node) : List Export :=
  if v.2.type = "export_statement" then exportsOf s v.2 else []

/-- Whether a list is what all visited nodes add to it, in the order of the text, a part of it being what the node at
the end of a way adds. -/
def AddedAt {β : Type} (add : Trail × Node → List β) (root : Node) (t : Trail) (n : Node) (part listed : List β) :
    Prop :=
  ∃ front back, root.tour = front ++ (t, n) :: back ∧ listed = front.flatMap add ++ part ++ back.flatMap add

theorem addedAt_of_reaches {β : Type} (add : Trail × Node → List β) (hn : root.Reaches t n) :
    AddedAt add root t n (add (t, n)) (root.tour.flatMap add) := by
  obtain ⟨front, back, hsplit⟩ := List.append_of_mem (Node.mem_tour_iff.mpr hn)
  refine ⟨front, back, hsplit, ?_⟩
  rw [hsplit, List.flatMap_append, List.flatMap_cons, List.append_assoc]

/-- The part is no other. -/
theorem AddedAt.eq {β : Type} {add : Trail × Node → List β} {part part' listed : List β}
    (h : AddedAt add root t n part listed) (h' : AddedAt add root t n part' listed) : part = part' := by
  obtain ⟨front, back, hsplit, hlisted⟩ := h
  obtain ⟨front', back', hsplit', hlisted'⟩ := h'
  -- no visit comes twice in a tour, so it is split at one place only
  have hnodup := Node.nodup_of_before (Node.pairwise_tour root)
  rw [hsplit, List.nodup_append, List.nodup_cons] at hnodup
  obtain ⟨rfl, _, rfl⟩ := (List.append_cons_inj_of_notMem (fun hmem => hnodup.2.2 _ hmem _ List.mem_cons_self rfl)
    hnodup.2.1.1).mp (hsplit.symm.trans hsplit')
  exact List.append_cancel_left (List.append_cancel_right (hlisted.symm.trans hlisted'))

/-! ## One visit -/

theorem imported_of_not_modular (h : ¬ IsModular v.2) : imported s v = [] := if_neg fun htype => h (.inl htype)

theorem exported_of_not_modular (h : ¬ IsModular v.2) : exported s v = [] := if_neg fun htype => h (.inr htype)

theorem exported_of_type (h : n.type = "export_statement") : exported s (t, n) = exportsOf s n := if_pos h

theorem imported_of_type (h : n.type = "import_statement") : imported s (t, n) = (importOf? s n).toList := if_pos h

theorem findings_of_import (h : n.type = "import_statement") (above : Above) :
    findings path s sourceType above n = if sourceType = .asScript then .error (noModule s n)
      else .ok ((importOf? s n).map Finding.importing).toList := by
  rw [findings, h]
  rfl

theorem findings_of_export (h : n.type = "export_statement") (above : Above) :
    findings path s sourceType above n = if sourceType = .asScript then .error (noModule s n)
      else .ok ((exportsOf s n).map Finding.exporting) := by
  rw [findings, h]
  rfl

/-- Whether findings are entities and nothing else. -/
def OnlyEntities (fs : List Finding) : Prop :=
  fs.filterMap Finding.import? = [] ∧ fs.filterMap Finding.export? = []

theorem onlyEntities_nil : OnlyEntities [] := ⟨rfl, rfl⟩

theorem OnlyEntities.sight {m : Node} {name : String} {kind : EntityKind} {traits : Traits} (h : OnlyEntities fs) :
    OnlyEntities (Outline.sight path s m name kind traits :: fs) := h

theorem OnlyEntities.flatten {fss : List (List Finding)} (h : ∀ fs ∈ fss, OnlyEntities fs) :
    OnlyEntities fss.flatten := by
  simp only [OnlyEntities, List.filterMap_flatten, List.flatten_eq_nil_iff, List.mem_map, forall_exists_index, and_imp]
  exact ⟨fun _ fs hfs he => he ▸ (h fs hfs).1, fun _ fs hfs he => he ▸ (h fs hfs).2⟩

theorem onlyEntities_members {owner : String} (h : members path s owner (n.child? "body") = .ok fs) :
    OnlyEntities fs := by
  rw [members_eq] at h
  obtain ⟨fss, hfss, rfl⟩ := exists_of_map_ok h
  refine .flatten (forall_of_mapM_ok (fun w fs hfs => ?_) hfss)
  rcases member_eq path s owner w.2 with ⟨_, hmember⟩ | ⟨kind, _, traits, _, hmember⟩
  · cases hmember.symm.trans hfs
    exact onlyEntities_nil
  · obtain ⟨_, _, rfl⟩ := exists_of_map_ok (hmember.symm.trans hfs)
    exact onlyEntities_nil.sight

/-- What a visit finds besides entities is what the node adds to the imports and exports. -/
theorem added_of_findings (h : findings path s sourceType v.1.getLast? v.2 = .ok fs) :
    fs.filterMap Finding.import? = imported s v ∧ fs.filterMap Finding.export? = exported s v := by
  by_cases hmodular : IsModular v.2
  · rcases hmodular with htype | htype
    · rw [findings_of_import htype] at h
      split at h
      · cases h
      · cases h
        rw [imported_of_type htype, exported, if_neg (by simp [htype])]
        cases importOf? s v.2 <;> exact ⟨rfl, rfl⟩
    · rw [findings_of_export htype] at h
      split at h
      · cases h
      · cases h
        rw [exported_of_type htype, imported, if_neg (by simp [htype]), List.filterMap_map, List.filterMap_map]
        exact ⟨List.filterMap_none _, List.filterMap_some⟩
  · -- whatever else is visited is an entity or nothing
    rw [imported_of_not_modular hmodular, exported_of_not_modular hmodular]
    by_cases harrow : v.2.type = "arrow_function"
    · rw [findings_of_arrow harrow] at h
      cases h
      exact onlyEntities_nil.sight
    rw [findings_eq harrow hmodular] at h
    split at h
    · cases h
      exact onlyEntities_nil
    · obtain ⟨inside, hinside, rfl⟩ := exists_of_map_ok h
      exact (onlyEntities_members hinside).sight
    · cases h
      exact onlyEntities_nil.sight

/-! ## The whole walk -/

/-- A script that is not refused lists what all of its nodes add. -/
theorem added_of_read (hclean : (Family.script.read path language s o root).hasErrors = false) :
    let file := Family.script.read path language s o root;
    file.imports = root.tour.flatMap (imported s) ∧ file.exports = root.tour.flatMap (exported s) := by
  obtain ⟨fs, hextract, hread⟩ := Family.read_of_not_refused path language (Family.refusal?_of_clean hclean)
  change extract path s o.sourceType root = .ok fs at hextract
  rw [extract_eq] at hextract
  obtain ⟨fss, hfss, rfl⟩ := exists_of_map_ok hextract
  dsimp only
  rw [hread]
  exact ⟨filterMap_flatten_of_mapM_ok (fun v fs hfs => (added_of_findings hfs).1) hfss,
    filterMap_flatten_of_mapM_ok (fun v fs hfs => (added_of_findings hfs).2) hfss⟩

/-- What an import statement adds is listed where it stands. -/
theorem imports_addedAt (himport : n.type = "import_statement") (hn : root.Reaches t n)
    (hclean : (Family.script.read path language s o root).hasErrors = false) :
    AddedAt (imported s) root t n (importOf? s n).toList (Family.script.read path language s o root).imports := by
  rw [(added_of_read hclean).1, ← imported_of_type himport]
  exact addedAt_of_reaches (imported s) hn

/-- What an export statement adds is listed where it stands. -/
theorem exports_addedAt (hexport : n.type = "export_statement") (hn : root.Reaches t n)
    (hclean : (Family.script.read path language s o root).hasErrors = false) :
    AddedAt (exported s) root t n (exportsOf s n) (Family.script.read path language s o root).exports := by
  rw [(added_of_read hclean).2, ← exported_of_type hexport]
  exact addedAt_of_reaches (exported s) hn

/-! ## One export statement -/

/-- A name that is exported by a statement and not as the default. -/
def named (s : Source) (n : Node) (name : String) : Export := ⟨name, false, s.line n⟩

/-- The names that an export statement passes on: a namespace, or what its clause lists. -/
def passedOn (s : Source) (n : Node) : List String := (namespaceName? s n).toList ++ specifierNames s n

theorem exportsOf_of_default (h : n.hasToken "default" = true) :
    exportsOf s n = [⟨defaultName s n, true, s.line n⟩] := if_pos h

theorem exportsOf_of_named (h : n.hasToken "default" = false) :
    exportsOf s n = ((n.child? "declaration").elim [] (declaredNames s) ++ passedOn s n).map (named s n) := by
  rw [exportsOf, h, passedOn, ← List.append_assoc]
  cases n.child? "declaration" <;> rfl

theorem exportsOf_of_declaration (h : n.hasToken "default" = false) (hd : n.child? "declaration" = some d) :
    exportsOf s n = (declaredNames s d ++ passedOn s n).map (named s n) := by
  rw [exportsOf_of_named h, hd, Option.elim_some]

end CodeAtlas.Outline.Script
