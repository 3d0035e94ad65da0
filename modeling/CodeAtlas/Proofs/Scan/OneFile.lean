import CodeAtlas.Proofs.Disk.OneFile
import CodeAtlas.Proofs.Keyed
import CodeAtlas.Proofs.Scan.Found
import Mathlib.Data.List.Forall2

/-! # Scans of disks that differ in one file

Whatever is in a file, a scan passes by the same entries in the same order. It reports them alike, but for
the file itself, of which at least the path, the name, the kind and the extension are the same. -/

namespace CodeAtlas.Scan

open CodeAtlas.Disk

variable {names own : List String}

/-! ## Visits -/

/-- Two visits to the same place. Only where the given names lead may the content and the time differ. -/
structure Visit.Alike (own : List String) (v v' : Visit) : Prop where
  names : v'.names = v.names
  name : v'.entry.name = v.entry.name
  same : (v'.entry.bytes? = v.entry.bytes? ∧ v'.entry.changed = v.entry.changed) ∨
    v.names = own ∧ v.entry.bytes?.isSome = true ∧ v'.entry.bytes?.isSome = true

theorem Visit.Alike.refl (own : List String) (v : Visit) : v.Alike own v := ⟨rfl, rfl, .inl ⟨rfl, rfl⟩⟩

namespace Walk

theorem alike_refl (own : List String) (l : List Visit) : List.Forall₂ (Visit.Alike own) l l :=
  List.forall₂_same.mpr fun v _ => .refl own v

variable {w w' : Walk} {e e' : Entry}

/-- The visits to an entry are alike if those below it are. -/
theorem visit_alike (h : e.SameBut names e') {above : List String}
    (hbelow : List.Forall₂ (Visit.Alike (above ++ [e.name] ++ names))
      (e.children.flatMap (w.visit (above ++ [e.name])))
      (e'.children.flatMap (w.visit (above ++ [e.name])))) :
    List.Forall₂ (Visit.Alike (above ++ e.name :: names)) (w.visit above e) (w.visit above e') := by
  have hnames : above ++ [e.name] ++ names = above ++ e.name :: names := by simp
  have hshown : e'.isShown = e.isShown := by cases h <;> rfl
  have hhead : Visit.Alike (above ++ e.name :: names) ⟨above, e⟩ ⟨above, e'⟩ := by
    refine ⟨congrArg (above ++ [·]) h.name, h.name, ?_⟩
    cases h with
    | file => exact Or.inr ⟨rfl, rfl, rfl⟩
    | folder => exact Or.inl ⟨rfl, rfl⟩
  rw [visit_eq, visit_eq, h.name, hshown]
  dsimp only
  split
  · refine .cons hhead ?_
    split
    · exact hnames ▸ hbelow
    · exact .nil
  · exact .nil

theorem children_alike (h : e.SameBut names e') (above : List String) :
    List.Forall₂ (Visit.Alike (above ++ names)) (e.children.flatMap (w.visit above))
      (e'.children.flatMap (w.visit above)) := by
  induction h generalizing above with
  | file => exact .nil
  | folder own modified front rest hsame ih =>
    rename_i names e e'
    simp only [Entry.children, List.flatMap_append, List.flatMap_cons]
    refine List.rel_append (alike_refl _ _) (List.rel_append ?_ (alike_refl _ _))
    exact visit_alike hsame (ih (above ++ [e.name]))

theorem all_eq (w : Walk) : w.all = match w.disk.target? w.root with
    | some e => if w.enters w.root 0 then e.children.flatMap (w.visit []) else []
    | none => [] := by
  unfold all
  cases w.disk.target? w.root with
  | none => rfl
  | some e =>
    cases e with
    | folder own modified inner =>
      simp only [visits_eq_flatMap]
      rfl
    | _ => exact (ite_self _).symm

end Walk

variable {s : Scanner} {d d' : Disk} {o : ScanOptions} {root path : String}
  {found found' : List Metadata}

/-- Two scans that begin at the same place visit the same entries. -/
theorem all_alike (s : Scanner) (o : ScanOptions) (path : String) (hl : d.Legal)
    (h : d.SameBut names d') : ∃ own,
    List.Forall₂ (Visit.Alike own) (s.walk d o path).all (s.walk d' o path).all ∧
      ∀ v ∈ (s.walk d o path).all, v.names = own →
        trueNames d.root (pathTo path v.names) = .ok names := by
  let w := s.walk d o path
  let w' := s.walk d' o path
  have hskips : w'.skips = w.skips := by
    funext p
    simp only [Walk.skips, w, w', Scanner.walk, h.unknown]
  have henters : w'.enters = w.enters := by
    funext p n
    simp only [Walk.enters, w, w', Scanner.walk, h.unlisted]
  have hroot : w'.root = w.root := rfl
  have hvisit : w'.visit [] = w.visit [] := funext (Walk.visit_congr hroot hskips henters [])
  have hall : w.all = match d.target? path with
      | some e => if w.enters path 0 then e.children.flatMap (w.visit []) else []
      | none => [] := w.all_eq
  have hall' : w'.all = match d'.target? path with
      | some e => if w.enters path 0 then e.children.flatMap (w.visit []) else []
      | none => [] := by
    rw [← henters, ← hvisit]
    exact w'.all_eq
  obtain hsame | ⟨way, rest, f, f', hway, hnames, hf, hf', hrest⟩ := h.target?_cases path
  · refine ⟨[], ?_, fun v _ hv => by simp [Visit.names] at hv⟩
    rw [hall', hall, hsame]
    exact Walk.alike_refl _ _
  · refine ⟨rest, ?_, fun v hv hown => ?_⟩
    · rw [hall', hall, hf, hf']
      dsimp only
      split
      · exact Walk.children_alike hrest []
      · exact .nil
    · have htrue := Walk.trueNames_of_mem_all (w := w) hl hv hway
      rw [hown, ← hnames] at htrue
      exact hown ▸ htrue

/-! ## What is reported -/

/-- Two descriptions of one file. -/
structure Metadata.SameFile (m m' : Metadata) : Prop where
  path : m'.path = m.path
  name : m'.name = m.name
  kind : m'.kind = m.kind
  extension? : m'.extension? = m.extension?

/-- Two descriptions that are equal, unless they are of a file at one of the given paths. -/
def Metadata.SameBut (own : String → Prop) (m m' : Metadata) : Prop :=
  m' = m ∨ own m.path ∧ m.SameFile m'

namespace Metadata.SameBut

variable {own : String → Prop} {m m' : Metadata}

theorem sameFile (h : m.SameBut own m') : m.SameFile m' := by
  obtain rfl | ⟨_, hfile⟩ := h
  · exact ⟨rfl, rfl, rfl, rfl⟩
  · exact hfile

theorem symm (h : m.SameBut own m') : m'.SameBut own m := by
  obtain rfl | ⟨hown, hfile⟩ := h
  · exact Or.inl rfl
  · refine Or.inr ⟨hfile.path ▸ hown, ?_⟩
    exact ⟨hfile.path.symm, hfile.name.symm, hfile.kind.symm, hfile.extension?.symm⟩

theorem eq_of_other (h : m.SameBut own m') (hother : ¬ own m.path) : m' = m :=
  h.resolve_right fun hfile => hother hfile.1

theorem key (h : m.SameBut own m') : m'.key = m.key := congrArg Path.normalize h.sameFile.path

theorem isFile (h : m.SameBut own m') : m'.isFile = m.isFile :=
  congrArg (· == EntryKind.file) h.sameFile.kind

end Metadata.SameBut

theorem sameFile_report {own : List String} {w w' : Walk} (hr : w'.root = w.root) {v v' : Visit}
    (h : v.Alike own v') : (w.report v).SameFile (w'.report v') := by
  have hsome : v'.entry.bytes?.isSome = v.entry.bytes?.isSome := by
    obtain ⟨hb, _⟩ | ⟨_, hb, hb'⟩ := h.same
    · rw [hb]
    · rw [hb, hb']
  refine ⟨by rw [Walk.report_path, Walk.report_path, hr, h.names], ?_, ?_, ?_⟩ <;>
    unfold Walk.report <;> cases hb : v.entry.bytes? <;> cases hb' : v'.entry.bytes? <;>
    simp_all [Walk.file, Walk.folder, h.name]

/-- Whatever is not the file is reported in the same way. -/
theorem report_eq_of_alike (h : d.SameBut names d') {own : List String} {v v' : Visit}
    (hv : v.Alike own v') (hown : v.names ≠ own)
    (hother : trueNames d.root (pathTo path v.names) ≠ .ok names) :
    (s.walk d' o path).report v' = (s.walk d o path).report v := by
  obtain ⟨hbytes, hchanged⟩ := hv.same.resolve_right fun hfile => hown hfile.1
  have hcontent (size : Nat) : (s.walk d' o path).content? (pathTo path v.names) size =
      (s.walk d o path).content? (pathTo path v.names) size := by
    simp only [Walk.content?, Scanner.walk, h.readText? hother]
    rfl
  unfold Walk.report
  rw [hbytes, hchanged, hv.names, hv.name]
  cases v.entry.bytes? with
  | none => rfl
  | some bytes =>
    simp only [Walk.file]
    exact congrArg (Metadata.mk _ _ _ _ _ _) (hcontent bytes.length)

/-- Two scans of disks that differ in one file report the same, but for that file. -/
theorem scan_alike (hl : d.Legal) (h : d.SameBut names d') (hscan : s.scan d o root = .ok found)
    (hscan' : s.scan d' o root = .ok found') :
    List.Forall₂ (Metadata.SameBut fun path => trueNames d.root path = .ok names) found found' := by
  obtain ⟨path, hr, rfl, _⟩ := exists_of_scan hscan
  obtain ⟨path', hr', rfl, _⟩ := exists_of_scan hscan'
  obtain rfl : path = path' := Except.ok.inj (hr.symm.trans ((h.resolve root).symm.trans hr'))
  obtain ⟨own, hall, hown⟩ := all_alike s o path hl h
  rw [List.forall₂_map_left_iff, List.forall₂_map_right_iff]
  refine ((List.forall₂_and_left _ _).mpr ⟨fun v hv => hv, hall⟩).imp ?_
  rintro v v' ⟨hv, halike⟩
  have hroot : (s.walk d' o path).root = (s.walk d o path).root := rfl
  by_cases hfile : trueNames d.root (pathTo path v.names) = .ok names
  · refine Or.inr ⟨?_, sameFile_report hroot halike⟩
    rw [Walk.report_path]
    exact hfile
  · exact Or.inl (report_eq_of_alike h halike (fun he => hfile (hown v hv he)) hfile)

/-- Nothing is reported under two paths. -/
theorem eq_of_trueNames_eq (hl : d.Legal) (hscan : s.scan d o root = .ok found) {m m' : Metadata}
    (hm : m ∈ found) (hm' : m' ∈ found) (h : trueNames d.root m.path = .ok names)
    (h' : trueNames d.root m'.path = .ok names) : m = m' := by
  obtain ⟨path, _, rfl, _⟩ := exists_of_scan hscan
  let w := s.walk d o path
  obtain ⟨v, hv, rfl⟩ := List.mem_map.mp hm
  obtain ⟨v', hv', rfl⟩ := List.mem_map.mp hm'
  obtain ⟨way, hway, hnames, _⟩ := Walk.places_of_mem_all (w := w) hl hv
  have hnames' := Walk.trueNames_of_mem_all (w := w) hl hv' hway
  rw [Walk.report_path] at h h'
  have hsame := Except.ok.inj ((hnames.symm.trans h).trans (h'.symm.trans hnames'))
  rw [eq_of_key_eq (Walk.nodup_all (w := w) hl) hv hv' (List.append_cancel_left hsame)]

end CodeAtlas.Scan
