import CodeAtlas.Proofs.Scan.Exclusion
import CodeAtlas.Proofs.Scan.Found

/-! # Which entries a scan reports, and in which order

An entry is reported if nothing on the way to it stops the scan: no folder above it that cannot be listed,
nothing on the way of which nothing is known, no excluded name, and not too many names. Reported entries
stand in the order in which folders list them, each folder right before what is below it. -/

namespace CodeAtlas.Scan

open CodeAtlas.Disk

/-! ## Lists of visits -/

section

variable {above : List String} {v : Visit}

/-- Whether a visit stands right before all visits below it. -/
def Leads (l : List Visit) (v : Visit) : Prop :=
  ∃ before below after, l = before ++ v :: (below ++ after) ∧
    (∀ u ∈ below, v.names <+: u.names) ∧ ∀ u ∈ before ++ after, ¬ v.names <+: u.names

theorem Leads.within {l front back : List Visit} (h : Leads l v)
    (hout : ∀ u ∈ front ++ back, ¬ v.names <+: u.names) : Leads (front ++ (l ++ back)) v := by
  obtain ⟨before, below, after, rfl, hbelow, hothers⟩ := h
  refine ⟨front ++ before, below, after ++ back, by simp, hbelow, ?_⟩
  simp only [List.forall_mem_append] at hout hothers ⊢
  exact ⟨⟨hout.1, hothers.1⟩, hothers.2, hout.2⟩

/-- The visits that a folder's own entries get, in the order of all visits. -/
def inFolder (l : List Visit) (above : List String) : List Entry :=
  (l.filter (·.above == above)).map (·.entry)

theorem inFolder_append (l l' : List Visit) (above : List String) :
    inFolder (l ++ l') above = inFolder l above ++ inFolder l' above := by
  simp [inFolder]

theorem inFolder_eq_nil {l : List Visit} (h : ∀ u ∈ l, u.above ≠ above) : inFolder l above = [] := by
  rw [inFolder, List.filter_eq_nil_iff.mpr fun u hu => by simpa using h u hu]
  rfl

end

namespace Walk

variable {w : Walk} {e : Entry} {above : List String} {v : Visit}

/-! ## Ways that a walk goes -/

/-- Whether a walk that has come behind the first names goes the whole way: it passes over none of the
paths that follow, and goes into all of them but the last. -/
structure Goes (w : Walk) (behind : Nat) (names : List String) : Prop where
  shows : ∀ front, front <+: names → behind < front.length → w.skips (pathTo w.root front) = false
  enters : ∀ front, front <+: names → behind < front.length → front ≠ names →
    w.enters (pathTo w.root front) front.length = true

/-- The first step of a way, and the rest of it. -/
theorem goes_iff {name : String} {rest : List String} :
    w.Goes above.length (above ++ name :: rest) ↔
      w.skips (pathTo w.root (above ++ [name])) = false ∧
      (rest ≠ [] → w.enters (pathTo w.root (above ++ [name])) (above ++ [name]).length = true) ∧
      w.Goes (above ++ [name]).length (above ++ name :: rest) := by
  have hfirst : above ++ [name] <+: above ++ name :: rest := ⟨rest, by simp⟩
  have hlt : above.length < (above ++ [name]).length := by simp
  constructor
  · intro h
    refine ⟨h.shows _ hfirst hlt, fun hrest => h.enters _ hfirst hlt ?_, ?_⟩
    · simpa using hrest.symm
    · exact ⟨fun front hf hb => h.shows front hf (by omega),
        fun front hf hb => h.enters front hf (by omega)⟩
  · rintro ⟨hshow, henter, h⟩
    -- a part of the way is its first step, or it goes further
    have hcases : ∀ front, front <+: above ++ name :: rest → above.length < front.length →
        front = above ++ [name] ∨ (above ++ [name]).length < front.length := by
      intro front hf hb
      by_cases hlen : front.length = (above ++ [name]).length
      · exact Or.inl ((List.prefix_of_prefix_length_le hf hfirst (Nat.le_of_eq hlen)).eq_of_length hlen)
      · rw [List.length_append, List.length_singleton] at hlen ⊢
        exact Or.inr (by omega)
    refine ⟨fun front hf hb => ?_, fun front hf hb hne => ?_⟩
    · rcases hcases front hf hb with rfl | hlt
      · exact hshow
      · exact h.shows front hf hlt
    · rcases hcases front hf hb with rfl | hlt
      · exact henter fun hrest => hne (by rw [hrest])
      · exact h.enters front hf hlt hne

theorem mem_visit_iff (hl : e.every Entry.isLegal = true) : v ∈ w.visit above e ↔
    ∃ rest, v.names = above ++ e.name :: rest ∧ e.find? rest = some v.entry ∧
      v.entry.isShown = true ∧ w.Goes above.length v.names := by
  induction e using Entry.induct_children generalizing above with
  | step e ih =>
    have hbelow := (Entry.every_iff.mp hl).2
    rw [mem_visit]
    constructor
    · rintro ⟨⟨hshown, hskip⟩, rfl | ⟨henter, c, hc, hv⟩⟩
      · refine ⟨[], rfl, Entry.find?_nil e, hshown, ?_⟩
        refine goes_iff.mpr ⟨hskip, fun h => absurd rfl h, fun front hf hb => ?_, fun front hf hb => ?_⟩
        · exact absurd hf.length_le (by simpa using hb)
        · exact absurd hf.length_le (by simpa using hb)
      · obtain ⟨rest, hnames, hfind, hshown', hgoes⟩ := (ih c hc (hbelow c hc)).mp hv
        refine ⟨c.name :: rest, by simpa using hnames, ?_, hshown', ?_⟩
        · rw [Entry.find?_child hl hc, hfind]
        · rw [hnames, List.append_assoc, List.singleton_append] at hgoes ⊢
          exact goes_iff.mpr ⟨hskip, fun _ => henter, hgoes⟩
    · rintro ⟨rest, hnames, hfind, hshown, hgoes⟩
      rw [hnames] at hgoes
      obtain ⟨hskip, henter, hrest⟩ := goes_iff.mp hgoes
      cases rest with
      | nil =>
        obtain ⟨vabove, ventry⟩ := v
        rw [Entry.find?_nil] at hfind
        cases hfind
        obtain rfl : vabove = above := List.append_cancel_right hnames
        exact ⟨⟨hshown, hskip⟩, Or.inl rfl⟩
      | cons name rest =>
        rw [Entry.find?_cons] at hfind
        obtain ⟨c, hc, hbelow'⟩ := Option.bind_eq_some_iff.mp hfind
        obtain ⟨hmem, rfl⟩ := Entry.mem_of_entryOf? hc
        have hfolder : e.isShown = true := by
          cases e with
          | folder => rfl
          | _ => cases hmem
        refine ⟨⟨hfolder, hskip⟩, Or.inr ⟨henter (List.cons_ne_nil _ _), c, hmem, ?_⟩⟩
        refine (ih c hmem (hbelow c hmem)).mpr ⟨rest, by simpa using hnames, hbelow', hshown, ?_⟩
        rw [hnames]
        exact hrest

/-- A walk visits exactly what names lead to on ways that it goes from its root. -/
theorem mem_all_iff (hl : w.disk.Legal) : v ∈ w.all ↔
    (∃ folder, w.disk.target? w.root = some folder ∧ folder.find? v.names = some v.entry) ∧
      v.entry.isShown = true ∧ w.enters w.root 0 = true ∧ w.Goes 0 v.names := by
  have hall : v ∈ w.all ↔ ∃ folder, w.disk.target? w.root = some folder ∧ w.enters w.root 0 = true ∧
      ∃ c ∈ folder.children, v ∈ w.visit [] c := by
    unfold all
    cases ht : w.disk.target? w.root with
    | none => simp
    | some folder =>
      cases folder with
      | folder own modified inner =>
        cases w.enters w.root 0 <;> simp [Entry.children, visits_eq_flatMap]
      | _ => simp [Entry.children]
  rw [hall]
  constructor
  · rintro ⟨folder, ht, henter, c, hc, hv⟩
    have hlegal := Disk.every_of_target? hl ht
    obtain ⟨rest, hnames, hfind, hshown, hgoes⟩ :=
      (mem_visit_iff ((Entry.every_iff.mp hlegal).2 c hc)).mp hv
    refine ⟨⟨folder, ht, ?_⟩, hshown, henter, hgoes⟩
    rw [hnames, List.nil_append, Entry.find?_child hlegal hc, hfind]
  · rintro ⟨⟨folder, ht, hfind⟩, hshown, henter, hgoes⟩
    have hlegal := Disk.every_of_target? hl ht
    obtain ⟨name, rest, hnames⟩ : ∃ name rest, v.names = name :: rest :=
      List.exists_cons_of_ne_nil (by simp [Visit.names])
    have hbelow := hfind
    rw [hnames, Entry.find?_cons] at hbelow
    obtain ⟨c, hc, hbelow⟩ := Option.bind_eq_some_iff.mp hbelow
    obtain ⟨hmem, hname⟩ := Entry.mem_of_entryOf? hc
    refine ⟨folder, ht, henter, c, hmem, ?_⟩
    refine (mem_visit_iff ((Entry.every_iff.mp hlegal).2 c hmem)).mpr ⟨rest, ?_, hbelow, hshown, hgoes⟩
    rw [hnames, hname, List.nil_append]

/-! ## The order of visits -/

theorem names_of_mem_visit (hl : e.every Entry.isLegal = true) (h : v ∈ w.visit above e) :
    ∃ rest, v.names = above ++ e.name :: rest := by
  obtain ⟨rest, hnames, _⟩ := leads_of_mem_visit hl h
  exact ⟨rest, hnames⟩

/-- Around the visits to a child of a folder and to what is below it there are only visits under the names
of other children. -/
theorem split_children (hl : e.every Entry.isLegal = true) {c : Entry} (hc : c ∈ e.children)
    (names : List String) : ∃ front back,
      e.children.flatMap (w.visit names) = front ++ (w.visit names c ++ back) ∧
      ∀ u ∈ front ++ back, ∃ name rest, name ≠ c.name ∧ u.names = names ++ name :: rest := by
  obtain ⟨hlegal, hbelow⟩ := Entry.every_iff.mp hl
  have hdistinct := (Entry.isLegal_iff.mp hlegal).1
  obtain ⟨cs, cs', hcs⟩ := List.append_of_mem hc
  refine ⟨cs.flatMap (w.visit names), cs'.flatMap (w.visit names), by simp [hcs], fun u hu => ?_⟩
  have hmem : ∃ c' ∈ cs ++ cs', u ∈ w.visit names c' := by
    rw [← List.flatMap_append] at hu
    exact List.mem_flatMap.mp hu
  obtain ⟨c', hc', hu⟩ := hmem
  have hchild : c' ∈ e.children := by
    rw [hcs]
    rcases List.mem_append.mp hc' with h | h
    · exact List.mem_append_left _ h
    · exact List.mem_append_right _ (List.mem_cons_of_mem c h)
  obtain ⟨rest, hrest⟩ := names_of_mem_visit (hbelow c' hchild) hu
  refine ⟨c'.name, rest, fun he => ?_, hrest⟩
  rw [hcs, List.map_append, List.map_cons] at hdistinct
  obtain ⟨_, hback, hfront⟩ := List.nodup_append.mp hdistinct
  rcases List.mem_append.mp hc' with h | h
  · exact hfront _ (List.mem_map_of_mem h) _ List.mem_cons_self he
  · exact (List.nodup_cons.mp hback).1 (he ▸ List.mem_map_of_mem h)

theorem leads_children (hl : e.every Entry.isLegal = true) {names : List String}
    (h : ∀ c ∈ e.children, ∀ v ∈ w.visit names c, Leads (w.visit names c) v) :
    ∀ v ∈ e.children.flatMap (w.visit names), Leads (e.children.flatMap (w.visit names)) v := by
  intro v hv
  obtain ⟨c, hc, hv⟩ := List.mem_flatMap.mp hv
  obtain ⟨front, back, hsplit, hothers⟩ := split_children hl hc names
  obtain ⟨rest, hrest⟩ := names_of_mem_visit ((Entry.every_iff.mp hl).2 c hc) hv
  rw [hsplit]
  refine (h c hc v hv).within fun u hu hprefix => ?_
  obtain ⟨name, rest', hne, hnames⟩ := hothers u hu
  rw [hrest, hnames, List.prefix_append_right_inj, List.cons_prefix_cons] at hprefix
  exact hne hprefix.1.symm

/-- The visits to what is below an entry that has been visited under these names. -/
def below (w : Walk) (names : List String) (e : Entry) : List Visit :=
  if w.enters (pathTo w.root names) names.length then e.children.flatMap (w.visit names) else []

theorem visit_cases (w : Walk) (above : List String) (e : Entry) : w.visit above e = [] ∨
    w.visit above e = [⟨above, e⟩] ++ w.below (above ++ [e.name]) e := by
  rw [visit_eq]
  dsimp only
  split
  · exact Or.inr rfl
  · exact Or.inl rfl

theorem below_cases (w : Walk) (names : List String) (e : Entry) :
    w.below names e = [] ∨ w.below names e = e.children.flatMap (w.visit names) := by
  unfold below
  split
  · exact Or.inr rfl
  · exact Or.inl rfl

/-- Below an entry all names go on behind its own. -/
theorem names_of_mem_below (hl : e.every Entry.isLegal = true) {names : List String}
    (h : v ∈ w.below names e) : ∃ name rest, v.names = names ++ name :: rest := by
  rcases below_cases w names e with he | he
  · rw [he] at h
    cases h
  · rw [he] at h
    obtain ⟨c, hc, hv⟩ := List.mem_flatMap.mp h
    exact ⟨c.name, names_of_mem_visit ((Entry.every_iff.mp hl).2 c hc) hv⟩

theorem leads_visit (hl : e.every Entry.isLegal = true) :
    ∀ v ∈ w.visit above e, Leads (w.visit above e) v := by
  induction e using Entry.induct_children generalizing above with
  | step e ih =>
    rcases visit_cases w above e with he | he
    · rw [he]
      exact List.forall_mem_nil _
    rw [he]
    have hbelow : ∀ v ∈ w.below (above ++ [e.name]) e, Leads (w.below (above ++ [e.name]) e) v := by
      rcases below_cases w (above ++ [e.name]) e with he | he
      · rw [he]
        exact List.forall_mem_nil _
      · rw [he]
        exact leads_children hl fun c hc => ih c hc ((Entry.every_iff.mp hl).2 c hc)
    intro v hv
    rcases List.mem_append.mp hv with hv | hv
    · obtain rfl := List.mem_singleton.mp hv
      refine ⟨[], w.below (above ++ [e.name]) e, [], by simp, fun u hu => ?_, by simp⟩
      obtain ⟨name, rest, hu⟩ := names_of_mem_below hl hu
      exact ⟨name :: rest, hu.symm⟩
    · have hout : ∀ u ∈ [(⟨above, e⟩ : Visit)] ++ [], ¬ v.names <+: u.names := by
        intro u hu hprefix
        obtain rfl : u = ⟨above, e⟩ := by simpa using hu
        obtain ⟨name, rest, hv⟩ := names_of_mem_below hl hv
        have hlen := hprefix.length_le
        rw [hv] at hlen
        simp [Visit.names] at hlen
      simpa using (hbelow v hv).within hout

/-- No visit below an entry is one to an entry of a folder above it. -/
theorem inFolder_below (hl : e.every Entry.isLegal = true) {names front : List String}
    (h : front.length < names.length) : inFolder (w.below names e) front = [] := by
  refine inFolder_eq_nil fun u hu he => ?_
  obtain ⟨name, rest, hnames⟩ := names_of_mem_below hl hu
  have hlen := congrArg List.length hnames
  rw [Visit.names, he] at hlen
  simp only [List.length_append, List.length_cons, List.length_nil] at hlen
  omega

/-- The entries of a folder are visited in the order in which it lists them. -/
theorem inFolder_flatMap {es : List Entry} (hes : ∀ e ∈ es, e.every Entry.isLegal = true)
    (names : List String) : (inFolder (es.flatMap (w.visit names)) names).Sublist es := by
  induction es with
  | nil => exact List.Sublist.refl _
  | cons e es ih =>
    have hfirst : (inFolder (w.visit names e) names).Sublist [e] := by
      rcases visit_cases w names e with he | he
      · rw [he]
        exact List.nil_sublist _
      · rw [he, inFolder_append, inFolder_below (hes e List.mem_cons_self) (by simp)]
        simp [inFolder]
    rw [List.flatMap_cons, inFolder_append]
    exact hfirst.append (ih fun e' he' => hes e' (List.mem_cons_of_mem e he'))

theorem inFolder_children (hl : e.every Entry.isLegal = true) (names : List String)
    {rest : List String} {parent : Entry} (hf : e.find? rest = some parent)
    (h : ∀ c ∈ e.children, ∀ rest, c.find? rest = some parent →
      (inFolder (w.visit names c) (names ++ c.name :: rest)).Sublist parent.children) :
    (inFolder (e.children.flatMap (w.visit names)) (names ++ rest)).Sublist parent.children := by
  cases rest with
  | nil =>
    rw [Entry.find?_nil] at hf
    cases hf
    rw [List.append_nil]
    exact inFolder_flatMap (Entry.every_iff.mp hl).2 names
  | cons name rest =>
    rw [Entry.find?_cons] at hf
    obtain ⟨c, hc, hbelow⟩ := Option.bind_eq_some_iff.mp hf
    obtain ⟨hmem, rfl⟩ := Entry.mem_of_entryOf? hc
    obtain ⟨front, back, hsplit, hothers⟩ := split_children (w := w) hl hmem names
    have hnil : ∀ u ∈ front ++ back, u.above ≠ names ++ c.name :: rest := by
      intro u hu he
      obtain ⟨name, rest', hne, hnames⟩ := hothers u hu
      rw [Visit.names, he, List.append_assoc, List.append_cancel_left_eq, List.cons_append] at hnames
      exact hne (List.cons.inj hnames).1.symm
    simp only [List.forall_mem_append] at hnil
    rw [hsplit, inFolder_append, inFolder_append, inFolder_eq_nil hnil.1, inFolder_eq_nil hnil.2,
      List.nil_append, List.append_nil]
    exact h c hmem rest hbelow

theorem inFolder_visit (hl : e.every Entry.isLegal = true) {rest : List String} {parent : Entry}
    (hf : e.find? rest = some parent) :
    (inFolder (w.visit above e) (above ++ e.name :: rest)).Sublist parent.children := by
  induction e using Entry.induct_children generalizing above rest with
  | step e ih =>
    rcases visit_cases w above e with he | he
    · rw [he]
      exact List.nil_sublist _
    have hself : inFolder [(⟨above, e⟩ : Visit)] (above ++ e.name :: rest) = [] :=
      inFolder_eq_nil (by simp)
    rw [he, inFolder_append, hself, List.nil_append]
    rcases below_cases w (above ++ [e.name]) e with he | he
    · rw [he]
      exact List.nil_sublist _
    · have hchildren := inFolder_children (w := w) hl (above ++ [e.name]) hf
        fun c hc rest hf => ih c hc ((Entry.every_iff.mp hl).2 c hc) hf
      rwa [List.append_assoc, List.singleton_append, ← he] at hchildren

theorem all_cases (w : Walk) : w.all = [] ∨ ∃ folder, w.disk.target? w.root = some folder ∧
    w.all = folder.children.flatMap (w.visit []) := by
  unfold all
  split
  · next own modified inner ht =>
    split
    · exact Or.inr ⟨_, ht, visits_eq_flatMap w [] inner⟩
    · exact Or.inl rfl
  · exact Or.inl rfl

theorem leads_all (hl : w.disk.Legal) : ∀ v ∈ w.all, Leads w.all v := by
  rcases all_cases w with he | ⟨folder, ht, he⟩
  · rw [he]
    exact List.forall_mem_nil _
  · have hlegal := Disk.every_of_target? hl ht
    rw [he]
    exact leads_children hlegal fun c hc => leads_visit ((Entry.every_iff.mp hlegal).2 c hc)

theorem inFolder_all (hl : w.disk.Legal) {folder parent : Entry}
    (ht : w.disk.target? w.root = some folder) (hf : folder.find? above = some parent) :
    (inFolder w.all above).Sublist parent.children := by
  rcases all_cases w with he | ⟨folder', ht', he⟩
  · rw [he]
    exact List.nil_sublist _
  · cases ht.symm.trans ht'
    have hlegal := Disk.every_of_target? hl ht
    have h := inFolder_children (w := w) hlegal [] hf fun c hc rest hf =>
      inFolder_visit ((Entry.every_iff.mp hlegal).2 c hc) hf
    rwa [List.nil_append, ← he] at h

end Walk

end CodeAtlas.Scan
