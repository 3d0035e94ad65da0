import CodeAtlas.Proofs.Store.Ownership

/-! # The registry as an ordered map

Rows of the registry are made, changed and dropped by calls that may fail. At any time a project lists the
files that were registered in it and not dropped since, in that order, each with what was written last.
Numbers of dropped rows are given again, but never one of a row that is there, and so to follow a file
through later calls it is enough to know its number. -/

namespace CodeAtlas.Store

open CodeAtlas.Scan
open CodeAtlas.Store.Process (on)

variable {t : Tables} {db : Database} {projectId? : Option String} {d : FileDraft} {r : FileRecord}

/-! ## Calls of the registry -/

/-- A call of the registry. A project may be missing where a file is registered, and a number where one is
changed or dropped. -/
inductive RegistryCall
  | create (projectId? : Option String) (d : FileDraft)
  | update (id? : Option Int) (d : FileDraft)
  | delete (id? : Option Int)
  deriving Repr, DecidableEq

/-- The database after a call, which stays as it was if the call fails. -/
def RegistryCall.serve (call : RegistryCall) (db : Database) : Database :=
  match call with
  | create projectId? d => ((db.registerFile projectId? d).map Prod.snd).toOption.getD db
  | update id? d => (db.updateFile id? d).toOption.getD db
  | delete id? => (db.deleteFile id?).toOption.getD db

/-- The record that is yielded if a call registers a file. -/
def RegistryCall.creates? (call : RegistryCall) (db : Database) : Option FileRecord :=
  match call with
  | create projectId? d => ((db.registerFile projectId? d).map Prod.fst).toOption
  | _ => none

/-- What a call makes of a record that is there. -/
def FileRecord.after (r : FileRecord) : RegistryCall → Option FileRecord
  | .create _ _ => some r
  | .update id? d => some (if id? = some (r.id : Int) then r.written d else r)
  | .delete id? => Option.guard (fun r => id? ≠ some (r.id : Int)) r

/-- What calls make of a record that is there. -/
def FileRecord.fate (r : FileRecord) (calls : List RegistryCall) : Option FileRecord :=
  calls.foldlM FileRecord.after r

/-- The registry after calls. -/
def registryAfter (calls : List RegistryCall) : Database :=
  calls.foldl (fun db call => call.serve db) .empty

/-- The records that calls make and do not drop, in the order in which they are made, each as the calls
after it leave it. -/
def survivorsFrom : Database → List RegistryCall → List FileRecord
  | _, [] => []
  | db, call :: later =>
    ((call.creates? db).bind (·.fate later)).toList ++ survivorsFrom (call.serve db) later

def survivors (calls : List RegistryCall) : List FileRecord := survivorsFrom .empty calls

/-! ## What a call does -/

/-- Rows numbered upwards, no two of them with one address, and in universal time. -/
structure Tables.Registered (t : Tables) : Prop where
  ascending : (t.files.map (·.id)).Pairwise (· < ·)
  distinct : (t.files.map FileRecord.address).Nodup
  naive : ∀ r ∈ t.files, r.modified.offset? = none

namespace FileRecord

theorem written_eq_self (r : FileRecord) (h : d.values? = none) : r.written d = r := by
  rw [written, h]

theorem written_offset (h : r.modified.offset? = some 0) (d : FileDraft) :
    (r.written d).modified.offset? = some 0 := by
  unfold written
  split
  · next size modified hvalues =>
    exact Time.Moment.toUtc_offset (FileDraft.values?_eq_some.mp hvalues).1
  · exact h

theorem handedOut_offset (h : r.modified.offset? = none) : r.handedOut.modified.offset? = some 0 := by
  rw [handedOut_modified h]

/-- A row after its file has been written over, if it has the given number. -/
def updated (r : FileRecord) (id? : Option Int) (d : FileDraft) : FileRecord :=
  if id? = some (r.id : Int) then (r.handedOut.written d).stored else r

theorem becomes_updated (r : FileRecord) (id? : Option Int) (d : FileDraft) :
    r.Becomes (r.updated id? d) := by
  unfold updated
  split
  · exact r.becomes_stored_written d
  · exact .refl r

end FileRecord

/-- A number that no row has changes nothing, and neither does none. -/
theorem serve_of_absent {id? : Option Int} (h : ∀ r ∈ t.files, id? ≠ some (r.id : Int)) :
    (∀ d, (RegistryCall.update id? d).serve (on t) = on t) ∧
      (RegistryCall.delete id?).serve (on t) = on t := by
  cases id? with
  | none => exact ⟨fun _ => rfl, rfl⟩
  | some id =>
    have hno : ∀ r ∈ t.files, (r.id : Int) ≠ id := fun r hr he => h r hr (congrArg some he.symm)
    constructor
    · intro d
      rw [RegistryCall.serve]
      cases hdb : (on t).updateFile (some id) d with
      | error e => rfl
      | ok db => exact updateFile_of_absent hno hdb
    · rw [RegistryCall.serve]
      cases hdb : (on t).deleteFile (some id) with
      | error e => rfl
      | ok db => exact deleteFile_of_absent hno hdb

theorem serve_update (h : t.Registered) (id? : Option Int) (d : FileDraft) :
    (RegistryCall.update id? d).serve (on t) =
      on { t with files := t.files.map (·.updated id? d) } := by
  by_cases hpresent : ∃ r ∈ t.files, id? = some (r.id : Int)
  · obtain ⟨r, hr, rfl⟩ := hpresent
    simp only [FileRecord.updated, Option.some.injEq, Int.natCast_inj, eq_comm (a := r.id)]
    cases hvalues : d.values? with
    | some v =>
      have hdb := (updateFile_eq_ok (d := d) hr).mpr ⟨by rw [hvalues]; rfl, rfl⟩
      rw [RegistryCall.serve, hdb]
      rfl
    | none =>
      have hsame : ∀ r' ∈ t.files,
          (if r'.id = r.id then (r'.handedOut.written d).stored else r') = r' := fun r' hr' => by
        rw [FileRecord.written_eq_self _ hvalues, FileRecord.stored_handedOut (h.naive r' hr'), ite_self]
      have hkeep : (RegistryCall.update (some (r.id : Int)) d).serve (on t) = on t := by
        rw [RegistryCall.serve]
        cases hdb : (on t).updateFile (some (r.id : Int)) d with
        | error e => rfl
        | ok db =>
          have hsome := ((updateFile_eq_ok hr).mp hdb).1
          rw [hvalues] at hsome
          cases hsome
      rw [hkeep, List.map_congr_left hsame, List.map_id']
  · have habsent : ∀ r ∈ t.files, id? ≠ some (r.id : Int) := fun r hr he => hpresent ⟨r, hr, he⟩
    have hsame : ∀ r ∈ t.files, r.updated id? d = r := fun r hr => if_neg (habsent r hr)
    rw [(serve_of_absent habsent).1 d, List.map_congr_left hsame, List.map_id']

theorem serve_delete (t : Tables) (id? : Option Int) : (RegistryCall.delete id?).serve (on t) =
    on { t with files := t.files.filter (fun r => id? ≠ some (r.id : Int)) } := by
  by_cases hpresent : ∃ r ∈ t.files, id? = some (r.id : Int)
  · obtain ⟨r, hr, rfl⟩ := hpresent
    have hrows : t.files.filter (·.id != r.id) =
        t.files.filter (fun r' => some (r.id : Int) ≠ some (r'.id : Int)) := by
      refine List.filter_congr fun r' _ => ?_
      rw [Bool.eq_iff_iff, bne_iff_ne, decide_eq_true_iff, Ne, Ne, Option.some.injEq, Int.natCast_inj,
        eq_comm]
    rw [RegistryCall.serve, deleteFile_of_mem hr, hrows]
    rfl
  · have habsent : ∀ r ∈ t.files, id? ≠ some (r.id : Int) := fun r hr he => hpresent ⟨r, hr, he⟩
    rw [(serve_of_absent habsent).2,
      List.filter_eq_self.mpr fun r hr => decide_eq_true (habsent r hr)]

namespace Tables.Registered

theorem append (h : t.Registered) (hid : r.id = Database.nextFileId t)
    (hfree : ∀ f ∈ t.files, f.address ≠ r.address) :
    ({ t with files := t.files ++ [r.stored] } : Tables).Registered where
  ascending := by
    rw [List.map_append, List.pairwise_append]
    refine ⟨h.ascending, List.pairwise_singleton .., fun id hmem n hn => ?_⟩
    obtain ⟨f, hf, rfl⟩ := List.mem_map.mp hmem
    obtain rfl := List.mem_singleton.mp hn
    exact Nat.lt_of_lt_of_eq (lt_nextFileId t f hf) hid.symm
  distinct := by
    rw [List.map_append, List.nodup_append]
    refine ⟨h.distinct, List.pairwise_singleton .., fun _ hmem _ hn => ?_⟩
    obtain ⟨f, hf, rfl⟩ := List.mem_map.mp hmem
    obtain rfl := List.mem_singleton.mp hn
    exact hfree f hf
  naive r' hr' := by
    rcases List.mem_append.mp hr' with hr' | hr'
    · exact h.naive r' hr'
    · obtain rfl := List.mem_singleton.mp hr'
      rfl

theorem update (h : t.Registered) (id? : Option Int) (d : FileDraft) :
    ({ t with files := t.files.map (·.updated id? d) } : Tables).Registered where
  ascending := by
    rw [List.map_map, List.map_congr_left fun r _ => (r.becomes_updated id? d).id]
    exact h.ascending
  distinct := by
    have haddress : FileRecord.address ∘ (·.updated id? d) = FileRecord.address := funext fun r =>
      Prod.ext (r.becomes_updated id? d).place.1 (r.becomes_updated id? d).place.2
    rw [List.map_map, haddress]
    exact h.distinct
  naive r' hr' := by
    obtain ⟨r, hr, rfl⟩ := List.mem_map.mp hr'
    unfold FileRecord.updated
    split
    · rfl
    · exact h.naive r hr

theorem filter (h : t.Registered) (q : FileRecord → Bool) :
    ({ t with files := t.files.filter q } : Tables).Registered where
  ascending := h.ascending.sublist (List.filter_sublist.map _)
  distinct := h.distinct.sublist (List.filter_sublist.map _)
  naive r hr := h.naive r (List.mem_filter.mp hr).1

/-- What a call makes of the records that there are, and the record that it makes. -/
theorem serve (h : t.Registered) (call : RegistryCall) : ∃ after, call.serve (on t) = on after ∧
    after.Registered ∧ after.files.map (·.handedOut) =
      (t.files.map (·.handedOut)).filterMap (·.after call) ++ (call.creates? (on t)).toList := by
  cases call with
  | create projectId? d =>
    have hkeep : (t.files.map (·.handedOut)).filterMap (·.after (.create projectId? d)) =
        t.files.map (·.handedOut) := List.filterMap_some
    rw [hkeep, RegistryCall.serve, RegistryCall.creates?]
    cases hcall : (on t).registerFile projectId? d with
    | error e => exact ⟨t, rfl, h, by simp [Except.map, Except.toOption]⟩
    | ok made =>
      obtain ⟨r, db⟩ := made
      obtain ⟨hd, hid, hfree, rfl⟩ := registerFile_eq_ok.mp hcall
      refine ⟨_, rfl, h.append hid hfree, ?_⟩
      rw [List.map_append, List.map_singleton, hd.handedOut_stored]
      rfl
  | update id? d =>
    refine ⟨_, serve_update h id? d, h.update id? d, ?_⟩
    have hrows : ∀ r ∈ t.files, (r.updated id? d).handedOut =
        if id? = some (r.id : Int) then r.handedOut.written d else r.handedOut := fun r hr => by
      have hoffset := FileRecord.written_offset (FileRecord.handedOut_offset (h.naive r hr)) d
      rw [FileRecord.updated, apply_ite FileRecord.handedOut, FileRecord.handedOut_stored hoffset]
    calc (t.files.map (·.updated id? d)).map (·.handedOut)
        = t.files.map (fun r => (r.updated id? d).handedOut) := List.map_map
      _ = t.files.map (fun r =>
            if id? = some (r.id : Int) then r.handedOut.written d else r.handedOut) :=
          List.map_congr_left hrows
      _ = (t.files.map (·.handedOut)).map (fun r =>
            if id? = some (r.id : Int) then r.written d else r) := by
          rw [List.map_map]
          rfl
      _ = (t.files.map (·.handedOut)).filterMap (·.after (.update id? d)) :=
          (congrFun List.filterMap_eq_map' _).symm
      _ = _ := (List.append_nil _).symm
  | delete id? =>
    refine ⟨_, serve_delete t id?, h.filter _, ?_⟩
    have hguard : (FileRecord.after · (.delete id?)) =
        Option.guard fun r : FileRecord => id? ≠ some (r.id : Int) := rfl
    rw [hguard, List.filterMap_eq_filter, List.filter_map]
    exact (List.append_nil _).symm

end Tables.Registered

/-! ## What the registry answers -/

/-- What the registry answers while it has the records `live`. -/
structure Tables.Answers (t : Tables) (live : List FileRecord) : Prop where
  numbers : (live.map (·.id)).Pairwise (· < ·)
  addresses : (live.map FileRecord.address).Nodup
  universal : ∀ r ∈ live, r.modified.offset? = some 0
  lists : ∀ projectId, (on t).filesOf projectId = .ok (live.filter (·.projectId == projectId))
  creates : ∀ projectId? d r, (∃ db, (on t).registerFile projectId? d = .ok (r, db)) ↔
    d.Describes projectId? r ∧ r.id = nextId (live.map (·.id)) ∧ ∀ f ∈ live, f.address ≠ r.address
  shows : ∀ projectId? d r db, (on t).registerFile projectId? d = .ok (r, db) →
    db.filesOf r.projectId = .ok (live.filter (·.projectId == r.projectId) ++ [r])
  taken : ∀ projectId? d r, FileDraft.Describes d projectId? r → (∃ f ∈ live, f.address = r.address) →
    (on t).registerFile projectId? d = .error .duplicatePath ∧
      (RegistryCall.create projectId? d).serve (on t) = on t
  tooLarge : ∀ d size, FileDraft.size? d = some size → isStorable size = false →
    (∀ projectId?, (∃ e, (on t).registerFile projectId? d = .error e ∧
        (e = .tooLarge ∨ e = .time .outOfRange)) ∧
      (RegistryCall.create projectId? d).serve (on t) = on t) ∧
    ∀ f ∈ live, (∃ e, (on t).updateFile (some (f.id : Int)) d = .error e ∧
        (e = .tooLarge ∨ e = .time .outOfRange)) ∧
      (RegistryCall.update (some (f.id : Int)) d).serve (on t) = on t
  absent : ∀ id?, (∀ f ∈ live, id? ≠ some (f.id : Int)) →
    (∀ d, (RegistryCall.update id? d).serve (on t) = on t) ∧
      (RegistryCall.delete id?).serve (on t) = on t

/-- A size that does not fit into a row is refused, if the time is not refused before. -/
theorem exists_error_of_large {size : Int} (hsize : d.size? = some size)
    (hlarge : isStorable size = false) :
    (∀ projectId?, ∃ e, (on t).registerFile projectId? d = .error e ∧
      (e = .tooLarge ∨ e = .time .outOfRange)) ∧
    ∀ r ∈ t.files, ∃ e, (on t).updateFile (some (r.id : Int)) d = .error e ∧
      (e = .tooLarge ∨ e = .time .outOfRange) := by
  have hcheck : checkIntegers (some size).toList = .error .tooLarge := by
    simp [checkIntegers, hlarge]
  have htables : (on t).tables .files = .ok t := rfl
  constructor
  · intro projectId?
    cases htime : d.modified.toNaiveUtc with
    | error e =>
      cases e
      exact ⟨_, by simp only [Database.registerFile, htime]; rfl, Or.inr rfl⟩
    | ok modified =>
      refine ⟨_, ?_, Or.inl rfl⟩
      simp only [Database.registerFile, htime, mapError_ok, htables, hsize, hcheck, bind, Except.bind]
  · intro r hr
    obtain ⟨found, hfound, _⟩ := findFile?_of_mem hr
    cases htime : d.modified.toNaiveUtc with
    | error e =>
      cases e
      refine ⟨_, ?_, Or.inr rfl⟩
      simp only [Database.updateFile, htables, hfound, htime, mapError_error, bind, Except.bind]
    | ok modified =>
      refine ⟨_, ?_, Or.inl rfl⟩
      simp only [Database.updateFile, htables, hfound, htime, mapError_ok, hsize, hcheck, bind,
        Except.bind]

theorem serve_create_of_error {e : StoreError} (h : (on t).registerFile projectId? d = .error e) :
    (RegistryCall.create projectId? d).serve (on t) = on t := by
  rw [RegistryCall.serve, h]
  rfl

theorem serve_update_of_error {id? : Option Int} {e : StoreError}
    (h : (on t).updateFile id? d = .error e) : (RegistryCall.update id? d).serve (on t) = on t := by
  rw [RegistryCall.serve, h]
  rfl

theorem filesOf_on (t : Tables) (projectId : String) : (on t).filesOf projectId =
    .ok ((t.files.map (·.handedOut)).filter (·.projectId == projectId)) := by
  rw [List.filter_map]
  rfl

theorem Tables.Registered.answers (h : t.Registered) : t.Answers (t.files.map (·.handedOut)) where
  numbers := by
    rw [List.map_map]
    exact h.ascending
  addresses := by
    rw [List.map_map]
    exact h.distinct
  universal := List.forall_mem_map.mpr fun r hr => FileRecord.handedOut_offset (h.naive r hr)
  lists := filesOf_on t
  creates projectId? d r := by
    have hnext : nextId ((t.files.map (·.handedOut)).map (·.id)) = Database.nextFileId t := by
      rw [List.map_map]
      rfl
    rw [hnext, List.forall_mem_map]
    constructor
    · rintro ⟨db, hdb⟩
      obtain ⟨hd, hid, hfree, _⟩ := registerFile_eq_ok.mp hdb
      exact ⟨hd, hid, hfree⟩
    · rintro ⟨hd, hid, hfree⟩
      exact ⟨_, registerFile_eq_ok.mpr ⟨hd, hid, hfree, rfl⟩⟩
  shows projectId? d r db hdb := by
    obtain ⟨hd, _, _, rfl⟩ := registerFile_eq_ok.mp hdb
    rw [filesOf_on, List.map_append, List.map_singleton, hd.handedOut_stored,
      List.filter_append, List.filter_cons_of_pos (by simp), List.filter_nil]
  taken projectId? d r hd htaken := by
    obtain ⟨_, hlive, haddress⟩ := htaken
    obtain ⟨f, hf, rfl⟩ := List.mem_map.mp hlive
    -- the row would be that of the next record
    let next : FileRecord := { r with id := Database.nextFileId t }
    have hnext : d.Describes projectId? next := { hd with }
    have hadd : Database.addFile t next.stored = .error .duplicatePath := by
      rw [addFile_eq, if_pos ⟨f, hf, haddress⟩]
    have herror : (on t).registerFile projectId? d = .error .duplicatePath := by
      rw [registerFile_of_describes hnext rfl, hadd]
      rfl
    exact ⟨herror, serve_create_of_error herror⟩
  tooLarge d size hsize hlarge := by
    obtain ⟨hcreate, hupdate⟩ := exists_error_of_large (t := t) hsize hlarge
    refine ⟨fun projectId? => ⟨hcreate projectId?, ?_⟩, List.forall_mem_map.mpr fun r hr =>
      ⟨hupdate r hr, ?_⟩⟩
    · obtain ⟨e, he, _⟩ := hcreate projectId?
      exact serve_create_of_error he
    · obtain ⟨e, he, _⟩ := hupdate r hr
      exact serve_update_of_error he
  absent id? habsent :=
    serve_of_absent fun r hr => habsent r.handedOut (List.mem_map_of_mem hr)

/-! ## Runs of calls -/

theorem FileRecord.fate_cons (r : FileRecord) (call : RegistryCall) (later : List RegistryCall) :
    r.fate (call :: later) = (r.after call).bind (·.fate later) := List.foldlM_cons

/-- A record that is not dropped keeps all but its size, its content and its time. -/
theorem FileRecord.becomes_of_fate {r r' : FileRecord} {calls : List RegistryCall}
    (h : r.fate calls = some r') : r.Becomes r' := by
  induction calls generalizing r with
  | nil =>
    cases h
    exact .refl _
  | cons call later ih =>
    rw [fate_cons] at h
    obtain ⟨now, hnow, hlater⟩ := Option.bind_eq_some_iff.mp h
    refine .trans ?_ (ih hlater)
    cases call with
    | create projectId? d =>
      cases hnow
      exact .refl r
    | update id? d =>
      cases hnow
      split
      · exact r.becomes_written d
      · exact .refl r
    | delete id? =>
      rw [after, Option.guard_eq_some_iff] at hnow
      rw [hnow.1]
      exact .refl _

theorem rows_of_calls (h : t.Registered) (calls : List RegistryCall) :
    ∃ after, calls.foldl (fun db call => call.serve db) (on t) = on after ∧ after.Registered ∧
      after.files.map (·.handedOut) =
        (t.files.map (·.handedOut)).filterMap (·.fate calls) ++ survivorsFrom (on t) calls := by
  induction calls generalizing t with
  | nil => exact ⟨t, rfl, h, by simp [FileRecord.fate, survivorsFrom]⟩
  | cons call later ih =>
    obtain ⟨now, hnow, hregistered, hrows⟩ := h.serve call
    obtain ⟨after, hafter, hlast, hlater⟩ := ih hregistered
    refine ⟨after, by rw [List.foldl_cons, hnow, hafter], hlast, ?_⟩
    have hmade : (call.creates? (on t)).toList.filterMap (·.fate later) =
        ((call.creates? (on t)).bind (·.fate later)).toList := by
      cases call.creates? (on t) with
      | none => rfl
      | some r => cases hr : r.fate later <;> simp [hr]
    rw [hlater, hrows, List.filterMap_append, List.filterMap_filterMap, hmade, survivorsFrom, hnow,
      List.append_assoc]
    simp only [FileRecord.fate_cons]

theorem describes_of_creates? {call : RegistryCall} (h : call.creates? (on t) = some r) :
    ∃ projectId? d, call = .create projectId? d ∧ d.Describes projectId? r := by
  cases call with
  | create projectId? d =>
    obtain ⟨⟨made, db⟩, hcall, rfl⟩ := exists_of_map_ok (eq_ok_of_toOption h)
    exact ⟨projectId?, d, rfl, (registerFile_eq_ok.mp hcall).1⟩
  | update id? d => cases h
  | delete id? => cases h

/-- Whatever is there at the end is what later calls have left of a record that one of the calls has made. -/
theorem exists_creation (h : t.Registered) (calls : List RegistryCall)
    (hr : r ∈ survivorsFrom (on t) calls) : ∃ front projectId? d later made,
      calls = front ++ .create projectId? d :: later ∧ d.Describes projectId? made ∧
        made.fate later = some r := by
  induction calls generalizing t with
  | nil => cases hr
  | cons call later ih =>
    rcases List.mem_append.mp hr with hr | hr
    · obtain ⟨made, hmade, hfate⟩ := Option.bind_eq_some_iff.mp (Option.mem_toList.mp hr)
      obtain ⟨projectId?, d, rfl, hd⟩ := describes_of_creates? hmade
      exact ⟨[], projectId?, d, later, made, rfl, hd, hfate⟩
    · obtain ⟨now, hnow, hregistered, _⟩ := h.serve call
      rw [hnow] at hr
      obtain ⟨front, projectId?, d, last, made, rfl, hd, hfate⟩ := ih hregistered hr
      exact ⟨call :: front, projectId?, d, last, made, rfl, hd, hfate⟩

theorem registered_empty : Tables.empty.Registered :=
  ⟨List.Pairwise.nil, List.nodup_nil, List.forall_mem_nil _⟩

/-- After any calls the registry is an ordered map from projects and paths to files. What it has are the
records that calls have made and not dropped, in the order in which they were made. Each of them is as its
draft described it but for its size, its content and its time, which are those that were written last. -/
theorem registry_of_calls (calls : List RegistryCall) :
    (∃ t, registryAfter calls = on t ∧ t.Answers (survivors calls)) ∧
      ∀ r ∈ survivors calls, ∃ front projectId? d later made,
        calls = front ++ .create projectId? d :: later ∧ FileDraft.Describes d projectId? made ∧
          made.fate later = some r ∧ made.Becomes r := by
  constructor
  · obtain ⟨t, ht, hregistered, hrows⟩ := rows_of_calls registered_empty calls
    have hlive : t.files.map (·.handedOut) = survivors calls := hrows
    exact ⟨t, ht, hlive ▸ hregistered.answers⟩
  · intro r hr
    obtain ⟨front, projectId?, d, later, made, hcalls, hd, hfate⟩ :=
      exists_creation registered_empty calls hr
    exact ⟨front, projectId?, d, later, made, hcalls, hd, hfate, FileRecord.becomes_of_fate hfate⟩

end CodeAtlas.Store
