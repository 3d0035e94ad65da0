import CodeAtlas.Graph.Dependency
import CodeAtlas.Proofs.Keyed

/-! # What a graph collects

A graph is built file by file, and each file adds to its own entries only. So the values of a file are those
that a look-up of the file alone gives, once for every time that the file is listed, and a file that cannot
be looked up leaves no trace. -/

namespace CodeAtlas.Graph

open CodeAtlas.Outline

/-! ## Values under keys -/

/-- What stands under a key to which a list was added a number of times. -/
def repeated (times : Nat) (values : List String) : Option (List String) :=
  if times = 0 ∨ values = [] then none else some (List.replicate times values).flatten

theorem getD_repeated (times : Nat) (values : List String) :
    (repeated times values).getD [] = (List.replicate times values).flatten := by
  unfold repeated
  split
  · next h => rcases h with rfl | rfl <;> simp
  · rfl

theorem extend_nil (m : Keyed (List String)) (key : String) : extend m key [] = m := rfl

theorem get?_extend_self (m : Keyed (List String)) (key : String) {values : List String}
    (h : values ≠ []) : (extend m key values).get? key = some ((m.get? key).getD [] ++ values) := by
  rw [extend, if_neg (by simpa using h), Keyed.get?_alter_self]

theorem get?_extend_of_ne (m : Keyed (List String)) {key other : String} (values : List String)
    (h : key ≠ other) : (extend m key values).get? other = m.get? other := by
  unfold extend
  split
  · rfl
  · exact Keyed.get?_alter_of_ne m _ h

theorem map_fst_extend (m : Keyed (List String)) (key : String) (values : List String) :
    (extend m key values).map Prod.fst =
      if values = [] ∨ key ∈ m.map Prod.fst then m.map Prod.fst else m.map Prod.fst ++ [key] := by
  by_cases h : values = []
  · rw [h, extend_nil, if_pos (Or.inl rfl)]
  · rw [extend, if_neg (by simpa using h), Keyed.map_fst_alter]
    simp only [h, false_or, Keyed.contains_iff]

/-- The values of keys, added in the order in which the keys are listed. -/
def gather (values : String → List String) (keys : List String) : Keyed (List String) :=
  keys.foldl (fun m key => extend m key (values key)) []

theorem gather_append_singleton (values : String → List String) (keys : List String) (key : String) :
    gather values (keys ++ [key]) = extend (gather values keys) key (values key) := by
  rw [gather, List.foldl_append]
  rfl

theorem get?_gather (values : String → List String) (keys : List String) (key : String) :
    (gather values keys).get? key = repeated (keys.count key) (values key) := by
  induction keys using List.reverseRecOn with
  | nil => simp [gather, repeated, Keyed.get?]
  | append_singleton keys k ih =>
    rw [gather_append_singleton, List.count_append]
    by_cases hk : k = key
    · subst hk
      by_cases hv : values k = []
      · rw [hv, extend_nil, ih, hv]
        simp [repeated]
      · rw [get?_extend_self _ _ hv, ih, getD_repeated, List.count_singleton_self, repeated,
          if_neg (by simp [hv]), List.replicate_succ', List.flatten_append, List.flatten_singleton]
    · rw [get?_extend_of_ne _ _ hk, ih, List.count_singleton, if_neg (by simpa using hk), Nat.add_zero]

theorem map_fst_gather (values : String → List String) (keys : List String) :
    (gather values keys).map Prod.fst = keys.eraseDups.filter fun key => !(values key).isEmpty := by
  induction keys using List.reverseRecOn with
  | nil => rfl
  | append_singleton keys k ih =>
    rw [gather_append_singleton, map_fst_extend, ih, eraseDups_append_singleton]
    by_cases hv : values k = [] <;> by_cases hk : k ∈ keys <;> simp [hv, hk]

/-- The keys stand in the order in which they are first listed. -/
theorem map_fst_gather_eq_filter (values : String → List String) (keys : List String) :
    (gather values keys).map Prod.fst = keys.eraseDups.filter ((gather values keys).contains ·) := by
  rw [map_fst_gather]
  refine List.filter_congr fun key hkey => ?_
  rw [Bool.eq_iff_iff, Keyed.contains_iff, map_fst_gather, List.mem_filter, iff_and_self]
  exact fun _ => hkey

/-! ## Files -/

variable {ε : Type}

namespace Lookup

/-- Whether a file can be looked up. -/
def answers (store : Lookup ε) (fileId : String) : Bool :=
  (store.imports fileId).isOk && (store.exports fileId).isOk

/-- What a file imports, if it can be looked up. -/
def sources (store : Lookup ε) (fileId : String) : List String :=
  match store.imports fileId, store.exports fileId with
  | .ok imports, .ok _ => imports.map (·.source)
  | _, _ => []

/-- What a file exports, if it can be looked up. -/
def names (store : Lookup ε) (fileId : String) : List String :=
  match store.imports fileId, store.exports fileId with
  | .ok _, .ok exports => exports.map (·.name)
  | _, _ => []

theorem exists_of_answers {store : Lookup ε} {fileId : String} (h : store.answers fileId = true) :
    ∃ imports exports, store.imports fileId = .ok imports ∧ store.exports fileId = .ok exports ∧
      store.sources fileId = imports.map (·.source) ∧ store.names fileId = exports.map (·.name) := by
  unfold answers at h
  unfold sources names
  cases hi : store.imports fileId with
  | error e => simp [hi, Except.isOk, Except.toBool] at h
  | ok imports =>
    cases he : store.exports fileId with
    | error e => simp [he, Except.isOk, Except.toBool] at h
    | ok exports => exact ⟨imports, exports, rfl, rfl, rfl, rfl⟩

theorem sources_of_not_answers {store : Lookup ε} {fileId : String} (h : store.answers fileId = false) :
    store.sources fileId = [] ∧ store.names fileId = [] := by
  unfold answers at h
  unfold sources names
  cases hi : store.imports fileId with
  | error e => exact ⟨rfl, rfl⟩
  | ok imports =>
    cases he : store.exports fileId with
    | error e => exact ⟨rfl, rfl⟩
    | ok exports => simp [hi, he, Except.isOk, Except.toBool] at h

end Lookup

namespace DependencyGraph

variable {store : Lookup ε} {fileId : String}

theorem addFile_eq (store : Lookup ε) (g : DependencyGraph) (fileId : String) :
    g.addFile store fileId =
      ⟨extend g.imports fileId (store.sources fileId), extend g.exports fileId (store.names fileId)⟩ := by
  unfold addFile Lookup.sources Lookup.names
  cases store.imports fileId with
  | error e => rfl
  | ok imports => cases store.exports fileId <;> rfl

theorem build_eq (store : Lookup ε) (fileIds : List String) :
    build store fileIds = ⟨gather store.sources fileIds, gather store.names fileIds⟩ := by
  induction fileIds using List.reverseRecOn with
  | nil => rfl
  | append_singleton fileIds fileId ih =>
    rw [gather_append_singleton, gather_append_singleton, build, List.foldl_append, List.foldl_cons,
      List.foldl_nil, ← build, ih, addFile_eq]

theorem addFile_of_not_answers (h : store.answers fileId = false) (g : DependencyGraph) :
    g.addFile store fileId = g := by
  obtain ⟨hsources, hnames⟩ := Lookup.sources_of_not_answers h
  rw [addFile_eq, hsources, hnames]
  rfl

theorem build_filter_answers (store : Lookup ε) (fileIds : List String) :
    build store (fileIds.filter store.answers) = build store fileIds := by
  rw [build, build, List.foldl_filter]
  congr 1
  funext g fileId
  split
  · rfl
  · next h => exact (addFile_of_not_answers (by simpa using h) g).symm

/-- A graph holds of every listed file that can be looked up what a look-up of the file alone gives, once
for every time that it is listed. -/
structure Collects (store : Lookup ε) (fileIds : List String) (g : DependencyGraph) : Prop where
  /-- The files that cannot be looked up might as well not be listed. -/
  isolated : g = build store (fileIds.filter store.answers)
  failing : ∀ fileId, store.answers fileId = false →
    g.imports.get? fileId = none ∧ g.exports.get? fileId = none
  imports : ∀ fileId, store.answers fileId = true →
    ∃ found, findDependencies store fileId = .ok found ∧
      g.imports.get? fileId = repeated (fileIds.count fileId) found.dependencies
  exports : ∀ fileId, store.answers fileId = true →
    ∃ found, store.exports fileId = .ok found ∧
      g.exports.get? fileId = repeated (fileIds.count fileId) (found.map (·.name))
  /-- Keys stand in the order in which their files are first listed. -/
  ordered : g.imports.map Prod.fst = fileIds.eraseDups.filter (g.imports.contains ·) ∧
    g.exports.map Prod.fst = fileIds.eraseDups.filter (g.exports.contains ·)

theorem collects_build (store : Lookup ε) (fileIds : List String) :
    (build store fileIds).Collects store fileIds := by
  refine ⟨(build_filter_answers store fileIds).symm, fun fileId h => ?_, fun fileId h => ?_,
    fun fileId h => ?_, ?_⟩
  · obtain ⟨hsources, hnames⟩ := Lookup.sources_of_not_answers h
    rw [build_eq, get?_gather, get?_gather, hsources, hnames]
    simp [repeated]
  · obtain ⟨imports, _, hi, _, hsources, _⟩ := Lookup.exists_of_answers h
    refine ⟨⟨imports.map (·.source), []⟩, by rw [findDependencies, hi]; rfl, ?_⟩
    rw [build_eq, get?_gather, hsources]
  · obtain ⟨_, exports, _, he, _, hnames⟩ := Lookup.exists_of_answers h
    exact ⟨exports, he, by rw [build_eq, get?_gather, hnames]⟩
  · rw [build_eq]
    exact ⟨map_fst_gather_eq_filter _ _, map_fst_gather_eq_filter _ _⟩

end DependencyGraph

end CodeAtlas.Graph
