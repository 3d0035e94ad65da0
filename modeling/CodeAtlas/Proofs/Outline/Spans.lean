import CodeAtlas.Proofs.Outline.Recorded
import CodeAtlas.Proofs.Tree.Ranges

/-! # Spans

An entity shows the range of its node, end by end. Where the ranges of a tree are laid out one within or behind the
other, so are the spans of the entities, however far apart in the tree these come from; and a member stands within
the scope that it belongs to, which stands above it. -/

namespace CodeAtlas.Outline

open CodeAtlas.Tree

variable {f : Family} {path : String} {s : Source} {root n : Node} {t : Trail} {v : Trail × Node}
  {d d' : Declaration} {e e' : Entity} {owner : String} {kind : EntityKind}

/-! ## Spans of nodes -/

/-- Whether the span of an entity lies within that of another. -/
def Entity.Within (e e' : Entity) : Prop := e'.begins ≤ e.begins ∧ e.ends ≤ e'.ends

namespace Declares

theorem begins_le_ends (h : Declares path s d e) (hrange : d.node.start ≤ d.node.stop) : e.begins ≤ e.ends := by
  rw [h.begins_eq, h.ends_eq]
  exact shown_le_shown s hrange

theorem within (h : Declares path s d e) (h' : Declares path s d' e') (hwithin : d.node.Within d'.node) :
    e.Within e' := by
  rw [Entity.Within, h.begins_eq, h.ends_eq, h'.begins_eq, h'.ends_eq]
  exact ⟨shown_le_shown s hwithin.1, shown_le_shown s hwithin.2⟩

theorem ends_le_begins (h : Declares path s d e) (h' : Declares path s d' e')
    (hapart : d.node.stop ≤ d'.node.start) : e.ends ≤ e'.begins := by
  rw [h.ends_eq, h'.begins_eq]
  exact shown_le_shown s hapart

theorem nested_or_apart (hlaid : root.WellLaid) (h : Declares path s d e) (h' : Declares path s d' e')
    (hd : root.at? d.place = some d.node) (hd' : root.at? d'.place = some d'.node) :
    e.Within e' ∨ e'.Within e ∨ e.ends ≤ e'.begins ∨ e'.ends ≤ e.begins := by
  rcases hlaid.nested_or_apart hd hd' with hwithin | hwithin | hapart | hapart
  · exact .inl (h.within h' hwithin)
  · exact .inr (.inl (h'.within h hwithin))
  · exact .inr (.inr (.inl (h.ends_le_begins h' hapart)))
  · exact .inr (.inr (.inr (h'.ends_le_begins h hapart)))

end Declares

/-! ## Scopes -/

/-- What a node is reported as, given the way to it. -/
def Family.reportedKind? (t : Trail) (n : Node) : Family → Option EntityKind
  | .script => Script.reportedKind? t n
  | .php => Php.reportedKind? n

/-- Whether a declaration is owned by what stands at the end of a way: a script gives the members in the body of a
class to the class, and a PHP file gives them to the innermost node above them that is a scope. -/
inductive Family.Gives (s : Source) (d : Declaration) (t : Trail) (n : Node) : Family → Prop
  | script {body : Node} {i j : Nat} : Script.reportedKind? t n = some .«class» →
      d.above = t ++ [(n, i), (body, j)] → d.owner? = some (Script.className s n) → Gives s d t n .script
  | php {owner : String} {i : Nat} {rest : Trail} : Php.scopeName? s n = some owner →
      (∀ step ∈ rest, Php.scopeName? s step.1 = none) → d.above = t ++ (n, i) :: rest →
      d.owner? = some owner → Gives s d t n .php

namespace Php

/-- A property is not owned by the declaration that it stands in. -/
theorem owner?_above (h : d ∈ declared s v) (howner : d.owner? = some owner) : owner? s d.above = some owner := by
  rcases mem_declared h with ⟨kind, _, rfl⟩ | ⟨htype, m, i, _, _, rfl⟩
  · dsimp only at howner
    split at howner
    · exact howner
    · cases howner
  · have hnone : scopeName? s v.2 = none := by simp [scopeName?, reportedKind?, htype]
    rw [owner?_append, hnone, Option.none_or]
    exact howner

/-- An owner is the name of a scope, below which no other one has a name. -/
theorem exists_of_owner? (h : owner? s t = some owner) : ∃ t' n i rest, t = t' ++ (n, i) :: rest ∧
    scopeName? s n = some owner ∧ ∀ step ∈ rest, scopeName? s step.1 = none := by
  obtain ⟨below, ⟨n, i⟩, above, hsplit, hname, hbelow⟩ := List.findSome?_eq_some_iff.mp h
  refine ⟨above.reverse, n, i, below.reverse, ?_, hname, fun step hstep => hbelow step (List.mem_reverse.mp hstep)⟩
  rw [← List.reverse_reverse t, hsplit, List.reverse_append, List.reverse_cons, List.append_assoc]
  rfl

theorem reportedKind?_of_scopeName? (h : scopeName? s n = some owner) (hkind : reportedKind? n = some kind) :
    kind = .«class» ∨ kind = .interface := by
  rw [scopeName?] at h
  split at h
  · next htype => rcases htype with htype | htype <;> simp [reportedKind?, htype] at hkind
  · rw [hkind] at h
    cases kind with
    | «class» => exact .inl rfl
    | interface => exact .inr rfl
    | _ => cases h

end Php

namespace Family

/-- What is owned has been given by a node that the walk has come to. -/
theorem exists_gives (h : d ∈ f.declared s root) (howner : d.owner? = some owner) :
    ∃ t n, f.Gives s d t n ∧ root.Reaches t n := by
  cases f with
  | script =>
    obtain ⟨v, hv, hd⟩ := List.mem_flatMap.mp h
    rcases Script.mem_declared hd with ⟨_, _, rfl⟩ | ⟨hclass, w, hw, hmember⟩
    · cases howner
    · obtain ⟨kind, _, rfl⟩ := Option.map_eq_some_iff.mp hmember
      obtain ⟨body, i, j, _, _, hway⟩ := Script.mem_inBody hw
      exact ⟨v.1, v.2, .script hclass (congrArg (v.1 ++ ·) hway) rfl, Node.mem_tour_iff.mp hv⟩
  | php =>
    obtain ⟨v, hv, hd⟩ := List.mem_flatMap.mp h
    have hreaches := Php.reaches_of_mem_declared (Node.mem_tour_iff.mp hv) hd
    obtain ⟨t, n, i, rest, habove, hname, hrest⟩ := Php.exists_of_owner? (Php.owner?_above hd howner)
    rw [habove] at hreaches
    exact ⟨t, n, .php hname hrest habove howner, hreaches.of_append⟩

theorem Gives.exists_append (h : f.Gives s d t n) : ∃ rest, d.place = t.place ++ rest := by
  cases h with
  | script _ habove _ => exact ⟨_, (congrArg Trail.place habove).trans List.map_append⟩
  | php _ _ habove _ => exact ⟨_, (congrArg Trail.place habove).trans List.map_append⟩

theorem Gives.kind_eq (h : f.Gives s d t n) (hkind : f.reportedKind? t n = some kind) :
    kind = .«class» ∨ kind = .interface := by
  cases h with
  | script hclass _ _ =>
    cases hclass.symm.trans hkind
    exact .inl rfl
  | php hname _ _ _ => exact Php.reportedKind?_of_scopeName? hname hkind

theorem mem_declared_of_reported (hn : root.Reaches t n) (hkind : f.reportedKind? t n = some kind)
    (hscope : kind = .«class» ∨ kind = .interface) : ⟨t, n, kind, none⟩ ∈ f.declared s root := by
  have htour : (t, n) ∈ root.tour := Node.mem_tour_iff.mpr hn
  cases f with
  | script =>
    exact List.mem_flatMap.mpr ⟨(t, n), htour, Script.mem_declared_of_reported hkind⟩
  | php =>
    refine List.mem_flatMap.mpr ⟨(t, n), htour, ?_⟩
    change Php.reportedKind? n = some kind at hkind
    rw [Php.declared, hkind]
    rcases hscope with rfl | rfl <;> exact List.mem_singleton_self _

end Family

/-! ## Spans of entities -/

/-- In a tree whose ranges are laid out, each entity of a file begins before it ends, two of them are nested or one
ends where or before the other begins, and what a scope owns lies within the entity of the scope, if the scope is
reported. -/
theorem entities_nest (f : Family) (path language : String) (s : Source) (o : Options) (root : Node)
    (hlaid : root.WellLaid) :
    let file := f.read path language s o root;
    (∀ e ∈ file.entities, e.begins ≤ e.ends) ∧
    (∀ e ∈ file.entities, ∀ e' ∈ file.entities,
      e.Within e' ∨ e'.Within e ∨ e.ends ≤ e'.begins ∨ e'.ends ≤ e.begins) ∧
    ((f.refusal? s o root ≠ none ∧ file.entities = []) ∨
      ∃ ds listed, ds.Perm (f.declared s root) ∧ Recorded path s ds file.entities listed ∧
        ∀ v ∈ listed, ∀ owner, v.1.owner? = some owner → ∃ t n, f.Gives s v.1 t n ∧ root.Reaches t n ∧
          ∀ kind, f.reportedKind? t n = some kind → (kind = .«class» ∨ kind = .interface) ∧
            ∃ w ∈ listed, w.1 = ⟨t, n, kind, none⟩ ∧ v.2.Within w.2) := by
  intro file
  rcases Family.exists_listed f path language s o root with hrefused | ⟨ds, listed, hperm, hlisted⟩
  · have hnone : file.entities = [] := hrefused.2
    rw [hnone]
    exact ⟨List.forall_mem_nil _, List.forall_mem_nil _, .inl ⟨hrefused.1, rfl⟩⟩
  have hdeclared : ∀ v ∈ listed, v.1 ∈ f.declared s root := fun v hv =>
    hperm.mem_iff.mp (hlisted.mem_declarations hv)
  have hplaced : ∀ v ∈ listed, root.at? v.1.place = some v.1.node := fun v hv =>
    Family.at?_of_mem_declared (hdeclared v hv)
  refine ⟨fun e he => ?_, fun e he e' he' => ?_, .inr ⟨ds, listed, hperm, hlisted, fun v hv owner howner => ?_⟩⟩
  · obtain ⟨v, hv, rfl⟩ := hlisted.exists_of_entity he
    exact (hlisted.declares v hv).begins_le_ends (hlaid.isLaid (hplaced v hv)).range
  · obtain ⟨v, hv, rfl⟩ := hlisted.exists_of_entity he
    obtain ⟨w, hw, rfl⟩ := hlisted.exists_of_entity he'
    exact (hlisted.declares v hv).nested_or_apart hlaid (hlisted.declares w hw) (hplaced v hv) (hplaced w hw)
  · obtain ⟨t, n, hgives, hn⟩ := Family.exists_gives (hdeclared v hv) howner
    refine ⟨t, n, hgives, hn, fun kind hkind => ⟨hgives.kind_eq hkind, ?_⟩⟩
    -- the scope is declared where the walk comes to it, so the file lists it too
    have hscope := Family.mem_declared_of_reported (s := s) hn hkind (hgives.kind_eq hkind)
    obtain ⟨w, hw, hwscope⟩ := hlisted.exists_of_declaration (hperm.mem_iff.mpr hscope)
    obtain ⟨rest, hplace⟩ := hgives.exists_append
    have hwithin : v.1.node.Within w.1.node := by
      rw [hwscope]
      exact hlaid.within_of_append hn.at?_place (hplace ▸ hplaced v hv)
    exact ⟨w, hw, hwscope, (hlisted.declares v hv).within (hlisted.declares w hw) hwithin⟩

/-- Every method and property of two nested classes stands within a class that the file lists. -/
theorem entities_nest_of_nestedClass :
    let file := Family.php.read "a.php" "php" Php.nestedClassText .default Php.nestedClass;
    Php.nestedClass.WellLaid ∧ Family.php.refusal? Php.nestedClassText .default Php.nestedClass = none ∧
      (∀ e ∈ file.entities, e.begins ≤ e.ends) ∧ ∃ ds listed,
        ds.Perm (Family.php.declared Php.nestedClassText Php.nestedClass) ∧
        Recorded "a.php" Php.nestedClassText ds file.entities listed ∧
        ∀ v ∈ listed, ∀ owner, v.1.owner? = some owner →
          ∃ w ∈ listed, w.1.kind = .«class» ∧ v.2.Within w.2 := by
  intro file
  have hlaid : Php.nestedClass.WellLaid := by
    unfold Node.WellLaid
    decide +kernel
  have hclean : Family.php.refusal? Php.nestedClassText .default Php.nestedClass = none := by decide +kernel
  have hclass : ∀ v ∈ Php.nestedClass.tour, (Php.scopeName? Php.nestedClassText v.2).isSome →
      Php.reportedKind? v.2 = some .«class» := by decide +kernel
  obtain ⟨hbegins, _, ⟨hrefused, _⟩ | ⟨ds, listed, hperm, hlisted, howned⟩⟩ :=
    entities_nest .php "a.php" "php" Php.nestedClassText .default Php.nestedClass hlaid
  · exact absurd hclean hrefused
  refine ⟨hlaid, hclean, hbegins, ds, listed, hperm, hlisted, fun v hv owner howner => ?_⟩
  obtain ⟨t, n, hgives, hn, hscope⟩ := howned v hv owner howner
  cases hgives with
  | php hname _ _ _ =>
    have hkind := hclass (t, n) (Node.mem_tour_iff.mpr hn) (Option.isSome_of_eq_some hname)
    obtain ⟨_, w, hw, hwscope, hwithin⟩ := hscope _ hkind
    exact ⟨w, hw, by rw [hwscope], hwithin⟩

end CodeAtlas.Outline
