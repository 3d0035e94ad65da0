import CodeAtlas.Proofs.Project.Pass
import CodeAtlas.Proofs.Scan.Patch
import CodeAtlas.Proofs.Store.Registered
import CodeAtlas.Proofs.Time.Civil

/-! # Times that are kept

A file may be registered with a time of any offset. What is kept of it is the instant: the record shows it in universal
time, as does every list of files until another time is written, and a scan that finds the file compares instants. -/

namespace CodeAtlas.Store

open CodeAtlas.Time
open CodeAtlas.Store.Process (on)

variable {r r' now : FileRecord} {call : RegistryCall} {past later : List RegistryCall} {time : Moment}

/-! ## The time that is written last -/

/-- The time that a call writes into the row with a number. -/
def RegistryCall.time? (id : Nat) : RegistryCall → Option Moment
  | .update id? d => if id? = some (id : Int) ∧ d.values?.isSome = true then some d.modified else none
  | _ => none

/-- The time of the row with a number after calls, which is `time` before them. -/
def lastTime (id : Nat) (time : Moment) (calls : List RegistryCall) : Moment :=
  (calls.filterMap (·.time? id)).getLastD time

theorem lastTime_cons (id : Nat) (time : Moment) (call : RegistryCall) (later : List RegistryCall) :
    lastTime id time (call :: later) = lastTime id ((call.time? id).getD time) later := by
  unfold lastTime
  cases h : call.time? id with
  | none => rw [List.filterMap_cons_none h, Option.getD_none]
  | some t => rw [List.filterMap_cons_some h, List.getLastD_cons, Option.getD_some]

theorem lastTime_eq_self {id : Nat} (h : ∀ call ∈ later, call.time? id = none) : lastTime id time later = time := by
  rw [lastTime, List.filterMap_eq_nil_iff.mpr h, List.getLastD_nil]

theorem modified_of_after (hr : r.modified = ⟨time.instant, some 0⟩) (h : r.after call = some now) :
    now.id = r.id ∧ now.modified = ⟨((call.time? r.id).getD time).instant, some 0⟩ := by
  cases call with
  | create projectId? d =>
    cases h
    exact ⟨rfl, hr⟩
  | update id? d =>
    obtain rfl : (if id? = some (r.id : Int) then r.written d else r) = now := Option.some.inj h
    by_cases hid : id? = some (r.id : Int)
    · rw [if_pos hid]
      refine ⟨(r.becomes_written d).id, ?_⟩
      cases hvalues : d.values? with
      | none => simpa [RegistryCall.time?, hvalues, r.written_eq_self hvalues] using hr
      | some values =>
        obtain ⟨size, modified⟩ := values
        have hutc := (FileDraft.values?_eq_some.mp hvalues).1
        rw [FileRecord.written, hvalues, RegistryCall.time?, if_pos ⟨hid, by rw [hvalues]; rfl⟩]
        exact Moment.eq_of_toUtc hutc
    · rw [if_neg hid, RegistryCall.time?, if_neg fun hboth => hid hboth.1]
      exact ⟨rfl, hr⟩
  | delete id? =>
    rw [FileRecord.after, Option.guard_eq_some_iff] at h
    rw [← h.1]
    exact ⟨rfl, hr⟩

/-- A record that is not dropped shows the instant of the time that was written last. -/
theorem modified_of_fate (hr : r.modified = ⟨time.instant, some 0⟩) (h : r.fate later = some r') :
    r'.modified = ⟨(lastTime r.id time later).instant, some 0⟩ := by
  induction later generalizing r time with
  | nil =>
    cases h
    exact hr
  | cons call later ih =>
    rw [FileRecord.fate_cons] at h
    obtain ⟨now, hnow, hlater⟩ := Option.bind_eq_some_iff.mp h
    obtain ⟨hid, hmodified⟩ := modified_of_after hr hnow
    rw [lastTime_cons, ← hid]
    rw [← hid] at hmodified
    exact ih hmodified hlater

/-- A record that a call makes and no later call drops is there after the calls. -/
theorem mem_rows_of_fate (hr : call.creates? (registryAfter past) = some r) (h : r.fate later = some r') :
    ∃ t, registryAfter (past ++ call :: later) = on t ∧ t.Registered ∧ r' ∈ t.files.map (·.handedOut) := by
  obtain ⟨before, hbefore, hregistered, _⟩ := rows_of_calls registered_empty past
  obtain ⟨now, hnow, hmade, hrows⟩ := hregistered.serve call
  obtain ⟨after, hafter, hlast, hlater⟩ := rows_of_calls hmade later
  have hpast : registryAfter past = on before := hbefore
  refine ⟨after, ?_, hlast, ?_⟩
  · rw [registryAfter, List.foldl_append, List.foldl_cons, ← registryAfter, hpast, hnow, hafter]
  · rw [hpast] at hr
    rw [hlater, hrows, hr]
    exact List.mem_append_left _ (List.mem_filterMap.mpr ⟨r, List.mem_append_right _ (List.mem_singleton_self r), h⟩)

end CodeAtlas.Store

namespace CodeAtlas.Project

open CodeAtlas.Scan CodeAtlas.Store CodeAtlas.Time
open CodeAtlas.Store.Process (on)

variable {rows live : List FileRecord} {snapshot : Keyed Moment} {found : List Metadata} {m : Metadata}
  {past later : List RegistryCall} {projectId : String} {t : Tables} {db : Database} {r r' : FileRecord} {time : Moment}

/-! ## Times that are compared -/

/-- Whether a file is newer than a snapshot depends on two instants, those of the file and of the last spelling of
its path. -/
theorem mem_modified_iff {e : String × Moment} (h : (spellings snapshot m.key).getLast? = some e) :
    m ∈ (ChangeSet.between snapshot found).modified ↔
      m ∈ found ∧ m.isFile = true ∧ e.2.instant < m.modified.instant := by
  rw [ChangeSet.between_modified, List.mem_filter, lastInstant?, h, Option.map_some, Option.any_some, Bool.and_eq_true,
    decide_eq_true_eq, and_comm (a := e.2.instant < _)]

theorem spellings_snapshotOf (h : (rows.map (·.path)).Nodup) (key : String) :
    spellings (snapshotOf rows) key = (rows.filter (·.key == key)).map fun r => (r.path, r.modified) := by
  have hkeys : ((rows.map fun r => (r.path, r.modified)).map Prod.fst).Nodup := by
    rw [List.map_map]
    exact h
  rw [spellings, snapshotOf, Keyed.ofList_of_nodup hkeys, List.filter_map]
  rfl

/-- No two rows of a project have one path. -/
theorem nodup_paths_of_addresses (h : (live.map FileRecord.address).Nodup) (projectId : String) :
    ((live.filter (·.projectId == projectId)).map (·.path)).Nodup := by
  have hd := (List.pairwise_map.mp h).sublist (List.filter_sublist (p := (·.projectId == projectId)))
  refine List.pairwise_map.mpr (hd.imp_of_mem fun {a b} ha hb hne he => hne ?_)
  have hproject := (eq_of_beq (List.mem_filter.mp ha).2).trans (eq_of_beq (List.mem_filter.mp hb).2).symm
  exact Prod.ext hproject he

/-! ## Times that are shown -/

/-- A record shows an instant in universal time. Its project lists it once, and a file whose path it was the last to
spell is newer than the list if its own instant is later. -/
structure Shows (db : Database) (r : FileRecord) (instant : Int) : Prop where
  modified : r.modified = ⟨instant, some 0⟩
  listed : ∃ rows, db.filesOf r.projectId = .ok rows ∧ rows.filter (·.id == r.id) = [r] ∧
    ∀ found m, (rows.filter (·.key == m.key)).getLast? = some r →
      (m ∈ (ChangeSet.between (snapshotOf rows) found).modified ↔
        m ∈ found ∧ m.isFile = true ∧ instant < m.modified.instant)

theorem shows_of_mem (h : t.Registered) (hr : r ∈ t.files.map (·.handedOut)) {instant : Int}
    (hmodified : r.modified = ⟨instant, some 0⟩) : Shows (on t) r instant := by
  have hanswers := h.answers
  let rows := (t.files.map (·.handedOut)).filter (·.projectId == r.projectId)
  have hmem : r ∈ rows := List.mem_filter.mpr ⟨hr, beq_self_eq_true _⟩
  have hids : (rows.map (·.id)).Nodup :=
    (hanswers.numbers.imp Nat.ne_of_lt).sublist (List.filter_sublist.map _)
  have hpaths : (rows.map (·.path)).Nodup := nodup_paths_of_addresses hanswers.addresses r.projectId
  refine ⟨hmodified, rows, hanswers.lists r.projectId, filter_key_eq_singleton hids hmem, fun found m hlast => ?_⟩
  have hspelled : (spellings (snapshotOf rows) m.key).getLast? = some (r.path, r.modified) := by
    rw [spellings_snapshotOf hpaths, List.getLast?_map, hlast]
    rfl
  rw [mem_modified_iff hspelled, hmodified, Moment.instant, Option.getD_some, Int.sub_zero]

/-! ## Times that are registered -/

/-- What becomes of the time of a file that is registered after some calls. Registering it fails if no calendar can
show the instant of the time, and else only for its size or for its path. The record then shows this instant until
another time is written. -/
structure Registers (past : List RegistryCall) (projectId : String) (m : Metadata) : Prop where
  refused : m.modified.toUtc = .error .outOfRange →
    (registryAfter past).registerFile projectId (.ofMetadata m) = .error (.time .outOfRange)
  made : ∀ u, m.modified.toUtc = .ok u →
    ((∃ r db, (registryAfter past).registerFile projectId (.ofMetadata m) = .ok (r, db)) ↔
      isStorable m.size = true ∧ ∀ f ∈ survivors past, f.address ≠ (projectId, m.path))
  shown : ∀ r db, (registryAfter past).registerFile projectId (.ofMetadata m) = .ok (r, db) →
    Shows db r m.modified.instant ∧ ∀ later r', r.fate later = some r' →
      Shows (registryAfter (past ++ .create projectId (.ofMetadata m) :: later)) r'
        (lastTime r.id m.modified later).instant ∧
      ((∀ call ∈ later, call.time? r.id = none) → lastTime r.id m.modified later = m.modified)

/-- A record that is made with a time shows the time that is written last, as long as it is not dropped. -/
theorem shows_of_fate {call : RegistryCall} (hr : call.creates? (registryAfter past) = some r)
    (hmodified : r.modified = ⟨time.instant, some 0⟩) (h : r.fate later = some r') :
    Shows (registryAfter (past ++ call :: later)) r' (lastTime r.id time later).instant := by
  obtain ⟨t, ht, hregistered, hmem⟩ := mem_rows_of_fate hr h
  rw [ht]
  exact shows_of_mem hregistered hmem (modified_of_fate hmodified h)

theorem describes_ofMetadata (hsize : isStorable m.size = true) {u : Moment} (h : m.modified.toUtc = .ok u)
    (projectId : String) (id : Nat) :
    (FileDraft.ofMetadata m).Describes projectId
      ⟨id, projectId, m.path, m.name, m.kind, m.size, u, m.extension?, m.content?⟩ where
  project := rfl
  path := rfl
  name := rfl
  kind := rfl
  values := FileDraft.values?_eq_some.mpr ⟨h, rfl, hsize⟩
  extension? := rfl
  content? := rfl

theorem registers (past : List RegistryCall) (projectId : String) (m : Metadata) : Registers past projectId m := by
  obtain ⟨t, ht, hregistered, hrows⟩ := rows_of_calls registered_empty past
  have hpast : registryAfter past = on t := ht
  have hlive : t.files.map (·.handedOut) = survivors past := hrows
  have hanswers : t.Answers (survivors past) := hlive ▸ hregistered.answers
  refine ⟨fun herror => ?_, fun u hu => ?_, fun r db hdb => ?_⟩
  · have hnaive : m.modified.toNaiveUtc = .error .outOfRange := by
      cases h : m.modified.toNaiveUtc with
      | error e => rfl
      | ok n => cases herror.symm.trans (Moment.toNaiveUtc_eq_ok.mp h).1
    simp only [Database.registerFile, FileDraft.ofMetadata, hnaive]
    rfl
  · rw [hpast]
    constructor
    · rintro ⟨r, db, hdb⟩
      obtain ⟨hd, _, hfree⟩ := (hanswers.creates _ _ r).mp ⟨db, hdb⟩
      have haddress : r.address = (projectId, m.path) :=
        Prod.ext (Option.some.inj hd.project).symm (Option.some.inj hd.path).symm
      obtain ⟨_, hsize, hfits⟩ := FileDraft.values?_eq_some.mp hd.values
      have hsame : m.size = r.size := Option.some.inj hsize
      exact ⟨hsame ▸ hfits, fun f hf => haddress ▸ hfree f hf⟩
    · rintro ⟨hsize, hfree⟩
      have hd := describes_ofMetadata hsize hu projectId (nextId ((survivors past).map (·.id)))
      obtain ⟨db, hdb⟩ := (hanswers.creates _ _ _).mpr ⟨hd, rfl, hfree⟩
      exact ⟨_, db, hdb⟩
  · obtain ⟨hd, _⟩ := (hanswers.creates _ _ r).mp ⟨db, hpast ▸ hdb⟩
    have hmodified := Moment.eq_of_toUtc (FileDraft.values?_eq_some.mp hd.values).1
    have hmade : (RegistryCall.create projectId (.ofMetadata m)).creates? (registryAfter past) = some r := by
      rw [RegistryCall.creates?, hdb]
      rfl
    have hserved : registryAfter (past ++ [.create projectId (.ofMetadata m)]) = db := by
      rw [registryAfter, List.foldl_append, ← registryAfter, List.foldl_cons, List.foldl_nil, RegistryCall.serve, hdb]
      rfl
    have hnow : Shows (registryAfter (past ++ [.create projectId (.ofMetadata m)])) r m.modified.instant :=
      shows_of_fate hmade hmodified rfl
    rw [hserved] at hnow
    exact ⟨hnow, fun later r' h => ⟨shows_of_fate hmade hmodified h, lastTime_eq_self⟩⟩

/-! ## Times that are kept -/

/-- What is kept of a time is its instant: where it is converted, in the order of times, in the registry and where
what a scan finds is compared with a snapshot. -/
structure KeepsInstant (t : Moment) : Prop where
  converts : Converts t
  ordered : ∀ (c : Civil) offset?, Ordered t (c.moment offset?)
  registers : ∀ past projectId m, m.modified = t → Registers past projectId m
  compares : ∀ snapshot found m path, (spellings snapshot m.key).getLast? = some (path, t) →
    (m ∈ (ChangeSet.between snapshot found).modified ↔ m ∈ found ∧ m.isFile = true ∧ t.instant < m.modified.instant)

/-- Whatever a calendar, a clock and an offset show, what is kept of it is its instant. -/
theorem times_keep_instants (c : Civil) (offset? : Option Int) : KeepsInstant (c.moment offset?) where
  converts := converts_moment c offset?
  ordered c' offset?' := ordered_moment c c' offset? offset?'
  registers past projectId m _ := registers past projectId m
  compares _ _ _ _ h := mem_modified_iff h

/-- Half an hour before the end of a leap day. -/
def leapEvening : Civil :=
  ⟨⟨2024, 2, 29⟩, 23, 30, 0, 1, ⟨by decide, by decide, by decide⟩, by decide, by decide, by decide, by decide⟩

/-- Half an hour after that day. -/
def leapNight : Civil :=
  ⟨⟨2024, 3, 1⟩, 0, 30, 0, 1, ⟨by decide, by decide, by decide⟩, by decide, by decide, by decide, by decide⟩

/-- Half an hour after the calendar begins. -/
def firstHour : Civil :=
  ⟨⟨1, 1, 1⟩, 0, 30, 0, 0, ⟨by decide, by decide, by decide⟩, by decide, by decide, by decide, by decide⟩

/-- A file that is changed at a time. -/
def changedAt (t : Moment) : Metadata := ⟨"/a.txt", "a.txt", .file, 1, t, some ".txt", none⟩

/-- A clock that is an hour behind universal time shows a leap day when the next month has begun. One that is an hour
ahead shows the first day of the calendar before universal time has one, and a file of that time is not registered. -/
theorem keepsInstant_of_leapEvening :
    (leapEvening.moment (some (-3600000000))).toNaiveUtc = .ok (leapNight.moment none) ∧
    (∃ r db, (registryAfter []).registerFile "p" (.ofMetadata (changedAt (leapEvening.moment (some (-3600000000))))) =
      .ok (r, db) ∧ Shows db r leapNight.wall) ∧
    (registryAfter []).registerFile "p" (.ofMetadata (changedAt (firstHour.moment (some 3600000000)))) =
      .error (.time .outOfRange) := by
  have hleap := times_keep_instants leapEvening (some (-3600000000))
  have hfirst := times_keep_instants firstHour (some 3600000000)
  have hnight : leapNight.wall = (leapEvening.moment (some (-3600000000))).instant := by decide
  have hregisters := hleap.registers [] "p" (changedAt (leapEvening.moment (some (-3600000000)))) rfl
  obtain ⟨r, db, hdb⟩ := (hregisters.made _ (hleap.converts.toUtc leapNight hnight)).mpr
    ⟨by decide, List.forall_mem_nil _⟩
  refine ⟨hleap.converts.toNaiveUtc leapNight hnight, ⟨r, db, hdb, hnight ▸ (hregisters.shown r db hdb).1⟩, ?_⟩
  refine (hfirst.registers [] "p" _ rfl).refused (hfirst.converts.toUtc_fails.mpr ⟨rfl, fun u hu => ?_⟩)
  have hbegun : 0 ≤ u.wall := (onCalendar_iff.mp u.onCalendar_wall).1
  have hbefore : (firstHour.moment (some 3600000000)).instant < 0 := by decide
  omega

end CodeAtlas.Project
