import CodeAtlas.Project.Ingestion
import CodeAtlas.Proofs.Outline.Nesting
import CodeAtlas.Proofs.Outline.Places
import CodeAtlas.Proofs.Store.Records

/-! # Indexing one file

To index a file is to replace all that is stored about it by what its text declares now. So what is stored
about a file is what the last of all calls for it has parsed, whatever was stored before, and no call for
another file changes it. -/

namespace CodeAtlas.Project

open CodeAtlas.Outline CodeAtlas.Store
open CodeAtlas.Store.Process (on Ends Yields)

/-- A file with errors declares nothing. -/
theorem ofParsed_of_hasErrors {path source : String} {o : Options}
    (h : (Outline.parse path source o).hasErrors = true) :
    Records.ofParsed (Outline.parse path source o) = .none := by
  unfold Outline.parse at h ⊢
  split
  · next l hl =>
    simp only [hl] at h
    unfold Family.parse Family.read at h ⊢
    split
    · rfl
    · next hs =>
      simp only [hs] at h
      split
      · rfl
      · next hf =>
        simp only [hf] at h
        cases h
  · rfl

theorem parse_of_unsupported {path : String} (h : isSupported path = false) (source : String)
    (o : Options) : Outline.parse path source o = unsupported path := by
  have hnone : languageOfExtension? (Path.extension path) = none := by
    simpa [isSupported] using h
  unfold Outline.parse
  rw [hnone]

theorem ofParsed_of_unsupported {path : String} (h : isSupported path = false) (source : String)
    (o : Options) : Records.ofParsed (Outline.parse path source o) = .none := by
  rw [parse_of_unsupported h]
  rfl

/-- Neither a file that is not supported nor one with errors declares anything. -/
theorem declares_nothing {path source : String} {o : Options}
    (h : isSupported path = false ∨ (Outline.parse path source o).hasErrors = true) :
    let f := Outline.parse path source o
    f.entities = [] ∧ f.imports = [] ∧ f.exports = [] := by
  have hnone : Records.ofParsed (Outline.parse path source o) = .none := by
    rcases h with hs | he
    · exact ofParsed_of_unsupported hs source o
    · exact ofParsed_of_hasErrors he
  exact Records.eq_nil_of_ofParsed hnone

theorem hasErrors_of_unsupported {path : String} (h : isSupported path = false) (source : String)
    (o : Options) : (Outline.parse path source o).hasErrors = true := by
  rw [parse_of_unsupported h]
  rfl

theorem fitsRows_of_hasErrors {path source : String} {o : Options}
    (h : (Outline.parse path source o).hasErrors = true) : FitsRows (Outline.parse path source o) := by
  obtain ⟨hentities, himports, hexports⟩ := declares_nothing (Or.inr h)
  exact ⟨by simp [hentities], by simp [himports], by simp [hexports]⟩

/-! ## One call -/

/-- Nothing is touched where the reading breaks off. -/
theorem indexFile_of_breaksOff {path source : String} {o : Options} (h : Outline.breaksOff path source o = true)
    (fileId : String) (db : Database) :
    indexFile fileId path source o db = (.error (.nesting .exceeded), db) := by
  unfold indexFile
  rw [tryParse_of_breaksOff h]
  exact Process.bind_of_error rfl

theorem indexFile_of_returned {path source : String} {o : Options} (h : Outline.breaksOff path source o = false)
    (fileId : String) : indexFile fileId path source o = do
      deleteRecords fileId
      if !(Outline.parse path source o).hasErrors then createRecords fileId (Outline.parse path source o)
      return Outline.parse path source o := by
  unfold indexFile
  rw [tryParse_of_not_breaksOff h]
  exact funext fun db => Process.bind_of_ok rfl

/-- Indexing fails only where the reading breaks off or something does not fit into a row. -/
theorem indexFile_ends (t : Tables) (fileId path source : String) (o : Options) :
    (indexFile fileId path source o).Ends t
      (fun f after => f = Outline.parse path source o ∧ t.Rewrites fileId (.ofParsed f) after ∧
        FitsRows f)
      (fun after => t.Touches fileId after ∧
        (Outline.breaksOff path source o = true ∨ ¬ FitsRows (Outline.parse path source o))) := by
  cases hbreak : Outline.breaksOff path source o with
  | true => exact Or.inr ⟨_, t, indexFile_of_breaksOff hbreak fileId _, .refl t fileId, Or.inl rfl⟩
  | false =>
    rw [indexFile_of_returned hbreak]
    refine ((deleteRecords_yields t fileId).ends _).bind fun _ mid hmid => ?_
    cases he : (Outline.parse path source o).hasErrors with
    | true =>
      refine Ends.pure ⟨rfl, ?_, fitsRows_of_hasErrors he⟩
      rw [ofParsed_of_hasErrors he]
      exact hmid
    | false =>
      refine ((createRecords_ends _ hmid.own).mono (fun _ _ h => h) fun after h => ?_).bind
        fun _ after h => Ends.pure ⟨rfl, hmid.trans h.1, h.2⟩
      exact ⟨hmid.touches.trans h.1, Or.inr h.2⟩

theorem indexFile_yields (t : Tables) (fileId : String) {path source : String} {o : Options}
    (hreturned : Outline.breaksOff path source o = false)
    (hsize : source.toList.length < 9223372036854775807) :
    (indexFile fileId path source o).Yields t fun _ after =>
      t.Rewrites fileId (.ofParsed (Outline.parse path source o)) after :=
  ((indexFile_ends t fileId path source o).mono (fun _ _ h => h.1 ▸ h.2.1)
    fun _ h => h.2.elim (fun hbreak => by simp [hreturned] at hbreak)
      fun hfits => hfits (fitsRows_parse hsize path o)).yields

/-! ## Many calls -/

/-- A text that is to be indexed, with the file that it is indexed for. -/
structure Indexing where
  fileId : String
  path : String
  text : String
  options : Options

namespace Indexing

def parsed (x : Indexing) : ParsedFile := Outline.parse x.path x.text x.options

def index (x : Indexing) : Work ParsedFile := indexFile x.fileId x.path x.text x.options

/-- The database after some calls, of which the last comes first. -/
def indexedAfter (db : Database) : List Indexing → Database
  | [] => db
  | x :: past => (x.index (indexedAfter db past)).2

/-- Whether the reading of the text breaks off. -/
def breaksOff (x : Indexing) : Bool := Outline.breaksOff x.path x.text x.options

theorem index_of_breaksOff {x : Indexing} (h : x.breaksOff = true) (db : Database) :
    x.index db = (.error (.nesting .exceeded), db) := indexFile_of_breaksOff h x.fileId db

theorem index_of_dropped (x : Indexing) : ∃ e, x.index .dropped = (.error e, .dropped) := by
  cases h : x.breaksOff with
  | true => exact ⟨_, index_of_breaksOff h _⟩
  | false =>
    rw [index, indexFile_of_returned h]
    exact ⟨.store (.noTable .entities), rfl⟩

/-- Whether a call completes on a database with tables. -/
def Fits (x : Indexing) : Prop := x.breaksOff = false ∧ FitsRows x.parsed

/-- A call touches nothing but the records of its file, and these become what it has parsed. -/
theorem index_of_fits {x : Indexing} (h : x.Fits) (t : Tables) :
    ∃ after, x.index (on t) = (.ok x.parsed, on after) ∧ t.Touches x.fileId after ∧
      after.recordsOf x.fileId = .ofParsed x.parsed := by
  obtain ⟨hreturned, hfits⟩ := h
  rcases indexFile_ends t x.fileId x.path x.text x.options with
    ⟨_, after, hindex, rfl, hrewrites, _⟩ | ⟨_, _, _, _, hbreak | hno⟩
  · exact ⟨after, hindex, hrewrites.touches, hrewrites.own⟩
  · cases hreturned.symm.trans hbreak
  · exact absurd hfits hno

theorem index_of_not_fits {x : Indexing} (h : ¬ x.Fits) (t : Tables) :
    ∃ e after, x.index (on t) = (.error e, on after) ∧ t.Touches x.fileId after := by
  cases hbreak : x.breaksOff with
  | true => exact ⟨_, t, index_of_breaksOff hbreak _, .refl t x.fileId⟩
  | false =>
    rcases indexFile_ends t x.fileId x.path x.text x.options with
      ⟨_, _, _, rfl, _, hfits⟩ | ⟨e, after, hindex, htouches, _⟩
    · exact absurd ⟨hbreak, hfits⟩ h
    · exact ⟨e, after, hindex, htouches⟩

theorem exists_indexedAfter (t : Tables) (earlier : List Indexing) :
    ∃ now, indexedAfter (on t) earlier = on now := by
  induction earlier with
  | nil => exact ⟨t, rfl⟩
  | cons x past ih =>
    obtain ⟨now, hnow⟩ := ih
    by_cases hfits : x.Fits
    · obtain ⟨after, hindex, _⟩ := index_of_fits hfits now
      exact ⟨after, by rw [indexedAfter, hnow, hindex]⟩
    · obtain ⟨_, after, hindex, _⟩ := index_of_not_fits hfits now
      exact ⟨after, by rw [indexedAfter, hnow, hindex]⟩

theorem indexedAfter_dropped (earlier : List Indexing) :
    indexedAfter .dropped earlier = .dropped := by
  induction earlier with
  | nil => rfl
  | cons x past ih =>
    obtain ⟨_, hindex⟩ := index_of_dropped x
    rw [indexedAfter, ih, hindex]

/-- Whatever has been indexed before, in any database, a call leaves alone what is stored about other files
and all rows of the registry. If it completes, it says what it has parsed, and nothing else is stored about
its file: nothing at all if there were errors, as there are if the path is not supported. So it could as
well have been the first call, and it can be made again. It does complete, unless the tables have been dropped
or the text is too long for any row to count its lines, or the reading breaks off, which changes nothing. -/
theorem index_replaces (db : Database) (earlier : List Indexing) (x : Indexing) :
    let now := indexedAfter db earlier
    let after := (x.index now).2
    (∀ fileId, fileId ≠ x.fileId → after.answers fileId = now.answers fileId) ∧
    after.tables?.map (·.files) = now.tables?.map (·.files) ∧
    (x.breaksOff = true → x.index now = (.error (.nesting .exceeded), now)) ∧
    (x.breaksOff = false → db ≠ .dropped → x.text.toList.length < 9223372036854775807 →
      (x.index now).1 = .ok x.parsed) ∧
    ∀ f, (x.index now).1 = .ok f →
      f = x.parsed ∧ after.Stores x.fileId f ∧
      (f.hasErrors = true → f.entities = [] ∧ f.imports = [] ∧ f.exports = []) ∧
      (isSupported x.path = false → f.hasErrors = true) ∧
      (x.index db).1 = .ok f ∧ (x.index db).2.answers x.fileId = after.answers x.fileId ∧
      (x.index after).1 = .ok f ∧ ∀ fileId, (x.index after).2.answers fileId = after.answers fileId := by
  obtain ⟨_ | t⟩ := db
  · obtain ⟨e, hindex⟩ := index_of_dropped x
    rw [show (⟨none⟩ : Database) = .dropped from rfl, indexedAfter_dropped]
    refine ⟨fun _ _ => by rw [hindex], by rw [hindex], fun h => index_of_breaksOff h _, fun _ h => absurd rfl h, ?_⟩
    rw [hindex]
    rintro f ⟨⟩
  obtain ⟨now, hnow⟩ := exists_indexedAfter t earlier
  dsimp only
  rw [hnow]
  by_cases hfits : x.Fits
  · obtain ⟨after, hindex, htouches, hown⟩ := index_of_fits hfits now
    -- the same call on two other databases: the one before all calls, and the one that it has left
    obtain ⟨first, hfirst, _, hfirstOwn⟩ := index_of_fits hfits t
    obtain ⟨again, hagain, htouchesAgain, hagainOwn⟩ := index_of_fits hfits after
    have hrepeated (fileId : String) : (on again).answers fileId = (on after).answers fileId := by
      by_cases he : fileId = x.fileId
      · exact he ▸ Tables.answers_congr (hagainOwn.trans hown.symm)
      · exact Tables.answers_congr (htouchesAgain.others fileId he)
    rw [hindex]
    refine ⟨fun fileId hne => Tables.answers_congr (htouches.others fileId hne),
      congrArg some htouches.files, fun h => (hindex.symm.trans (index_of_breaksOff h _)), fun _ _ _ => rfl, ?_⟩
    rintro _ ⟨⟩
    rw [hfirst, hagain]
    exact ⟨rfl, Tables.stores_of_recordsOf hown, fun h => declares_nothing (Or.inr h),
      fun h => hasErrors_of_unsupported h _ _, rfl,
      Tables.answers_congr (hfirstOwn.trans hown.symm), rfl, hrepeated⟩
  · obtain ⟨e, after, hindex, htouches⟩ := index_of_not_fits hfits now
    rw [hindex]
    refine ⟨fun fileId hne => Tables.answers_congr (htouches.others fileId hne),
      congrArg some htouches.files, fun h => (hindex.symm.trans (index_of_breaksOff h _)),
      fun hreturned _ hsize => absurd ⟨hreturned, fitsRows_parse hsize _ _⟩ hfits, ?_⟩
    rintro f ⟨⟩

end Indexing

end CodeAtlas.Project
