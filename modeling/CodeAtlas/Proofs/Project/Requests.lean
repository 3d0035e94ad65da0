import CodeAtlas.Proofs.Project.Stages

/-! # Runs of requests

What an index is asked to do, one request after the other, on disks that may change in between and refuse
whatever they like. A request that fails leaves what it has changed up to there. After each of them records
belong to rows that there are, and a row that a request makes owns nothing before it is indexed, although
numbers of rows that are gone are given again. -/

namespace CodeAtlas.Project

open CodeAtlas.Disk CodeAtlas.Scan CodeAtlas.Store
open CodeAtlas.Store.Process (on)

theorem nodup_keys_listing (s : Scanner) {d : Disk} (root : String) (hl : d.Legal)
    (hu : d.Unmarked) : ((listing s d root).map Metadata.key).Nodup := by
  unfold listing
  cases hscan : s.scan d .default root with
  | error e => exact List.nodup_nil
  | ok found => exact nodup_keys_of_scan hl hu hscan

/-- To scan a project, or to remove the file of a record. The record may be out of date. -/
inductive Request
  | scan (s : Scanner) (d : Disk) (projectId root : String) (content : Bool)
      (maxFileSize? : Option Int)
  | remove (r : FileRecord)

namespace Request

/-- The database after a request, whether the request completes or not. -/
def serve : Request → Database → Database
  | scan s d projectId root content maxFileSize?, db =>
    (scanProject s d projectId root content maxFileSize? db).2
  | remove r, db => (removeFile r db).2

/-- The entries that a request lists, without their content. -/
def listing : Request → List Metadata
  | scan s d _ root _ _ => Project.listing s d root
  | remove _ => []

/-- Whether the names on the disk are legal and do not end in a backslash. -/
def Proper : Request → Prop
  | scan _ d .. => d.Legal ∧ d.Unmarked
  | remove _ => True

/-- Whether a request lists a folder with this path, and a file whose path has the same normal form. -/
def Mixes (q : Request) (path : String) : Prop :=
  ∃ folder ∈ q.listing, folder.isFile = false ∧ folder.path = path ∧
    ∃ file ∈ q.listing, file.isFile = true ∧ file.key = folder.key

theorem not_mixes_of_proper {q : Request} (h : q.Proper) (path : String) : ¬ q.Mixes path := by
  rintro ⟨folder, hfolder, hno, _, file, hfile, hyes, hkey⟩
  cases q with
  | remove r => cases hfolder
  | scan s d projectId root content maxFileSize? =>
    have hkeys := nodup_keys_listing s root h.1 h.2
    rw [eq_of_key_eq hkeys hfile hfolder hkey, hno] at hyes
    cases hyes

theorem kind_of_stems {q : Request} {r : FileRecord} (h : Stems q.listing r) :
    r.kind = .file ∨ q.Mixes r.path := by
  obtain ⟨file, hfile, hyes, m, hm, hkey, hpath, hkind⟩ := h
  cases hm' : m.isFile with
  | true => exact Or.inl (hkind.trans (by simpa [Metadata.isFile] using hm'))
  | false => exact Or.inr ⟨m, hm, hm', hpath.symm, file, hfile, hyes, hkey.symm⟩

variable {t : Tables}

/-- A request does to the rows what a scan may do to them, or less. -/
theorem serve_advances (q : Request) (ht : t.Owned) :
    ∃ after, q.serve (on t) = on after ∧ Advances t q.listing after := by
  cases q with
  | scan s d projectId root content maxFileSize? => exact (scanProject_ends ht).snd
  | remove r =>
    have hdrop : ∀ after, t.Drops r after → Advances t [] after :=
      fun after h => ((Prepares.start ht []).drop h).toAdvances
    exact ((removeFile_ends r t).mono (fun _ => hdrop) hdrop).snd

end Request

/-- The database after some requests, the last of which comes first. -/
def served : List Request → Database
  | [] => .empty
  | q :: earlier => q.serve (served earlier)

/-- After any requests the rows own what is stored, and each of them stems from what one of the requests
has listed. -/
theorem exists_tables (requests : List Request) : ∃ t, served requests = on t ∧ t.Owned ∧
    ∀ r ∈ t.files, ∃ q ∈ requests, Stems q.listing r := by
  induction requests with
  | nil => exact ⟨.empty, rfl, owned_empty, List.forall_mem_nil _⟩
  | cons q earlier ih =>
    obtain ⟨t, ht, howned, hstems⟩ := ih
    obtain ⟨after, hafter, hadvances⟩ := q.serve_advances howned
    refine ⟨after, by rw [served, ht, hafter], hadvances.owned, fun r hr => ?_⟩
    rcases hadvances.rows r hr with ⟨r₀, hr₀, hold⟩ | ⟨hnew, _⟩
    · obtain ⟨q', hq', hr₀⟩ := hstems r₀ hr₀
      exact ⟨q', List.mem_cons_of_mem q hq', hr₀.becomes hold⟩
    · exact ⟨q, List.mem_cons_self, hnew⟩

/-! ## Who owns the records -/

/-- On the tables `t`, a scan of a project indexes its new rows last: wherever the call stops, a row that it
has made owns nothing until all rows before it have been indexed. -/
structure IndexesLast (t : Tables) (s : Scanner) (d : Disk) (projectId root : String) (content : Bool)
    (maxFileSize? : Option Int) : Prop where
  stages : scanProject s d projectId root content maxFileSize? =
    syncProject s d projectId root content maxFileSize? >>= (·.index d)
  stopped : ∀ e db, syncProject s d projectId root content maxFileSize? (on t) = (.error e, db) →
    ∃ now, db = on now ∧
      ∀ r ∈ now.files, (∀ r₀ ∈ t.files, r₀.id ≠ r.id) → now.recordsOf r.fileId = .none
  waiting : ∀ x db, syncProject s d projectId root content maxFileSize? (on t) = (.ok x, db) →
    ∀ front y rest, x.created = front ++ y :: rest →
      ∃ now, (reindexAll d front db).2 = on now ∧ (∃ r ∈ now.files, r.id = y.1.id) ∧
        now.recordsOf y.1.fileId = .none

theorem indexesLast {t : Tables} (ht : t.Owned) (s : Scanner) (d : Disk) (projectId root : String)
    (content : Bool) (maxFileSize? : Option Int) :
    IndexesLast t s d projectId root content maxFileSize? where
  stages := scanProject_eq s d projectId root content maxFileSize?
  stopped e db h := by
    rcases syncProject_ends ht with ⟨x, now, hx, _⟩ | ⟨e', now, he, hprepares⟩
    · cases h.symm.trans hx
    · cases h.symm.trans he
      exact ⟨now, rfl, hprepares.fresh⟩
  waiting x db h front y rest hy := by
    obtain ⟨now, rfl, hready⟩ := (syncProject_ends ht).of_completed h
    exact (hready.unowned hy d).snd

/-- After any requests on any disks, whether they complete or not, whatever is stored has the number of a
row that there is, and this is the row of a file. It can be the row of a folder only if one of the requests
lists that folder together with a file whose path has the same normal form, and so not if no name on the
disks ends in a backslash. The next scan of a project, too, will index its new rows last. -/
theorem owned_of_requests (requests : List Request) : ∃ t, served requests = on t ∧
    (∀ fileId ∈ t.owners, ∃ r ∈ t.files, fileId = toString r.id ∧
      (r.kind = .file ∨ ∃ q ∈ requests, q.Mixes r.path) ∧
      ((∀ q ∈ requests, q.Proper) → r.kind = .file)) ∧
    ∀ s d projectId root content maxFileSize?,
      IndexesLast t s d projectId root content maxFileSize? := by
  obtain ⟨t, ht, howned, hstems⟩ := exists_tables requests
  refine ⟨t, ht, fun fileId hmem => ?_, indexesLast howned⟩
  obtain ⟨r, hr, rfl⟩ := howned.owner fileId (Tables.recordsOf_ne_none_of_owners hmem)
  obtain ⟨q, hq, hrow⟩ := hstems r hr
  refine ⟨r, hr, rfl, ?_, fun hproper => ?_⟩
  · exact (Request.kind_of_stems hrow).imp_right fun hmixes => ⟨q, hq, hmixes⟩
  · exact (Request.kind_of_stems hrow).resolve_right (Request.not_mixes_of_proper (hproper q hq) r.path)

/-- A file beside a folder whose name only differs from that of the file by a backslash at its end. -/
def markedDisk : Disk :=
  .holding [.file "a.js" [59] defaultTime, .folder "a.js\\" defaultTime []]

example : (served [.scan .default markedDisk "p" "/" false none]).tables?.map
    (fun t => t.files.map fun r => (r.path, r.kind)) = some [("/a.js\\", .folder)] := by
  decide +kernel

end CodeAtlas.Project
