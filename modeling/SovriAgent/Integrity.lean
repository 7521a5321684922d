import SovriAgent.Rewrite

/-!
# Referential Integrity

No foreign key connects the tables; validation, the catalog links, the clearing of a run and
the loops that refill it do. Over any sequence of writes, accepted or rejected, every run
stands in the database as the corpus last written for it, and what its rows refer to
follows from what validation checked of that corpus.

## Main results

* `StoredRun.written`, `storedRun_of_reachable`: every run is stored as some valid corpus.
* `references_hold`: the references between the tables hold in every reachable database.
-/

namespace SovriAgent

open Keyed

/-! ### Runs as corpora -/

/-- A run as it stands in the database: as the corpus last written for it, up to gaps that
other writes removed. A run that was never written stands there as an empty corpus. -/
structure StoredRun (corpus : Corpus) (db : Db) : Prop extends RunRows corpus db where
  referenced_iff : ∀ frameworkId,
    frameworkId ∈ referencedFrameworks corpus ↔ frameworkId ∈ frameworkMetadata corpus
  gaps : ∀ rowId row, row.runId = some corpus.runId → db.complianceGaps.get rowId = some row →
    ∃ gap ∈ corpusGaps corpus, rowId = gap.rowId corpus.runId ∧ row = gap.row corpus.runId
  evidenceLinks : ∀ evidenceId link,
    db.runEvidenceLinks.get (corpus.runId, evidenceId) = some link →
      ∃ record ∈ corpus.evidenceRecords, record.id = evidenceId
  evidenceMetadata : ∀ record ∈ corpus.evidenceRecords,
    ∃ row, db.evidenceMetadata.get record.id = some row
  scanned : corpus = (Corpus.new []).withRunId corpus.runId ∨
    ∃ run, db.scanRuns.get corpus.runId = some run

/-- Before the first write every run is empty. -/
theorem storedRun_freshDb (runId : Str) :
    StoredRun ((Corpus.new []).withRunId runId) freshDb where
  frameworkLinks := fun _ _ _ => Iff.rfl
  controlLinks := fun _ _ _ => Iff.rfl
  results := fun _ _ _ => Iff.rfl
  scores := fun _ _ _ => Iff.rfl
  referenced_iff := fun _ => Iff.rfl
  gaps := fun _ _ _ h => by cases h
  evidenceLinks := fun _ _ h => by cases h
  evidenceMetadata := fun _ h => by cases h
  scanned := .inl rfl

/-- Metadata that is stored stays stored. -/
theorem evidenceMetadata_stays {db : Db} (h : CurrentShape db) (corpus : Corpus)
    {evidenceId : Str} (hstored : ∃ row, db.evidenceMetadata.get evidenceId = some row) :
    ∃ row, (written corpus db).evidenceMetadata.get evidenceId = some row := by
  obtain ⟨row, hrow⟩ := hstored
  rw [get_evidenceMetadata_written h, hrow, Option.some_or]
  exact ⟨_, rfl⟩

/-- An accepted write stores its corpus. -/
theorem storedRun_written {db : Db} (h : WellFormed db) {corpus : Corpus}
    (hvalid : ∀ frameworkId,
      frameworkId ∈ referencedFrameworks corpus ↔ frameworkId ∈ frameworkMetadata corpus) :
    StoredRun corpus (written corpus db) where
  toRunRows := runRows_written h.toCurrentShape corpus
  referenced_iff := hvalid
  gaps := by
    intro rowId row hrun hget
    have himage := (gapRows_written h corpus rowId row hrun).mp hget
    rcases mem_of_foldl_gapTurn himage with hnone | hgap
    · cases hnone
    · exact hgap
  evidenceLinks := by
    intro evidenceId link hget
    rw [get_runEvidenceLinks_written h.toCurrentShape, Option.or_eq_some_iff] at hget
    rcases hget with hlast | ⟨-, hold⟩
    · obtain ⟨record, hrecord, hkey, -⟩ := Table.mem_of_lastOf hlast
      exact ⟨record, hrecord, (Prod.mk.inj hkey).2⟩
    · rw [Table.get_deleteWhere, Option.filter_eq_some_iff] at hold
      simp at hold
  evidenceMetadata := by
    intro record hrecord
    have hstored := exists_evidenceMetadata [] corpus.runId hrecord
      (db.evidenceMetadata, db.runEvidenceLinks.deleteWhere fun key _ => key.1 = corpus.runId)
    rwa [← evidence_written h.toCurrentShape] at hstored
  scanned := .inr ⟨_, by rw [get_scanRuns_written, if_pos rfl]⟩

/-- A write leaves the stored runs it is not about. -/
theorem StoredRun.written_of_ne {db : Db} {corpus other : Corpus} (hstored : StoredRun corpus db)
    (h : WellFormed db) (hne : corpus.runId ≠ other.runId) :
    StoredRun corpus (written other db) where
  toRunRows := hstored.toRunRows.written_of_ne h hne
  referenced_iff := hstored.referenced_iff
  gaps := fun rowId row hrun hget =>
    hstored.gaps rowId row hrun (gaps_of_other_run hrun hne hget)
  evidenceLinks := by
    intro evidenceId link hget
    rw [get_runEvidenceLinks_written h.toCurrentShape, Option.or_eq_some_iff] at hget
    rcases hget with hlast | ⟨-, hold⟩
    · obtain ⟨record, -, hkey, -⟩ := Table.mem_of_lastOf hlast
      exact absurd (Prod.mk.inj hkey).1.symm hne
    · rw [Table.get_deleteWhere, Option.filter_eq_some_iff] at hold
      exact hstored.evidenceLinks evidenceId link hold.1
  evidenceMetadata := fun record hrecord =>
    evidenceMetadata_stays h.toCurrentShape other (hstored.evidenceMetadata record hrecord)
  scanned := by
    rw [get_scanRuns_written, if_neg hne]
    exact hstored.scanned

/-- One write, accepted or rejected. -/
def WriteStep (db db' : Db) : Prop :=
  ∃ corpus faults result, writeCompletedCorpus corpus faults db = (result, db')

/-- Rejected writes reach nothing that accepted ones do not reach. -/
theorem accepted_of_run {db db' : Db} (h : Relation.ReflTransGen WriteStep db db') :
    Relation.ReflTransGen AcceptedStep db db' := by
  induction h with
  | refl => exact .refl
  | tail _ hstep ih =>
      obtain ⟨corpus, faults, result, hwrite⟩ := hstep
      rcases result with e | ⟨⟩
      · rwa [writeCompletedCorpus_error hwrite]
      · exact ih.tail ⟨corpus, faults, hwrite⟩

/-- **Every run is stored as some corpus**, in every database that writes reach. -/
theorem storedRun_of_reachable {db : Db} (h : Relation.ReflTransGen AcceptedStep freshDb db)
    (runId : Str) : ∃ corpus : Corpus, corpus.runId = runId ∧ StoredRun corpus db := by
  induction h with
  | refl => exact ⟨(Corpus.new []).withRunId runId, rfl, storedRun_freshDb runId⟩
  | @tail db db' hreach hstep ih =>
      obtain ⟨other, faults, hwrite⟩ := hstep
      have hwf := wellFormed_of_reachable hreach
      have haccepted := writeCompletedCorpus_ok hwrite
      rw [haccepted.eq_written]
      by_cases hrun : other.runId = runId
      · exact ⟨other, hrun, storedRun_written hwf haccepted.referenced_iff⟩
      · obtain ⟨corpus, rfl, hstored⟩ := ih
        exact ⟨corpus, rfl, hstored.written_of_ne hwf (Ne.symm hrun)⟩

/-! ### The rows of a stored run -/

namespace StoredRun

variable {corpus : Corpus} {db : Db}

/-- A framework of the corpus has a link. -/
theorem exists_frameworkLink (h : StoredRun corpus db) {frameworkId : Str}
    (hframework : frameworkId ∈ frameworkMetadata corpus) :
    ∃ link, db.runFrameworkLinks.get (corpus.runId, frameworkId) = some link := by
  obtain ⟨framework, hmem, rfl⟩ := List.mem_map.mp hframework
  obtain ⟨link, hlast⟩ := Table.exists_lastOf (fun f : Framework => (corpus.runId, f.id))
    frameworkLink hmem
  exact ⟨link, (h.frameworkLinks _ _ rfl).mpr hlast⟩

/-- A catalogued control of the corpus has a link. -/
theorem exists_controlLink (h : StoredRun corpus db) {control : Control}
    (hmem : control ∈ corpus.controls) :
    ∃ link, db.runControlLinks.get (corpus.runId, control.frameworkId, control.id) =
      some link := by
  obtain ⟨link, hlast⟩ := Table.exists_lastOf
    (fun c : Control => (corpus.runId, c.frameworkId, c.id)) controlLink hmem
  exact ⟨link, (h.controlLinks _ _ rfl).mpr hlast⟩

/-- A run whose corpus is not empty was scanned. -/
theorem scanned_of_mem (h : StoredRun corpus db) {α : Type} (items : Corpus → List α)
    (hempty : ∀ runId, items ((Corpus.new []).withRunId runId) = []) {a : α}
    (hmem : a ∈ items corpus) : ∃ run, db.scanRuns.get corpus.runId = some run := by
  refine h.scanned.resolve_left fun hnew => ?_
  rw [hnew, hempty] at hmem
  cases hmem

end StoredRun

/-! ### References -/

/-- The run was recorded. -/
def Scanned (db : Db) (runId : Str) : Prop :=
  ∃ run, db.scanRuns.get runId = some run

/-- A framework is linked to a run. -/
def FrameworkLinked (db : Db) (runId frameworkId : Str) : Prop :=
  ∃ link, db.runFrameworkLinks.get (runId, frameworkId) = some link

/-- A control of a framework is linked to a run. -/
def ControlLinked (db : Db) (runId frameworkId : Str) : Prop :=
  ∃ controlId link, db.runControlLinks.get (runId, frameworkId, controlId) = some link

/-- Some result row of a run and framework satisfies a condition. -/
def HasResult (db : Db) (runId frameworkId : Str) (p : ControlResultRow → Prop) : Prop :=
  ∃ rowId row, db.controlResults.get rowId = some row ∧ row.runId = runId ∧
    row.frameworkId = frameworkId ∧ p row

/-- What the rows of the tables refer to is there. -/
structure ReferencesHold (db : Db) : Prop where
  results : db.controlResults.AllRows fun _ row => Scanned db row.runId ∧
    (row.frameworkId ≠ [] → FrameworkLinked db row.runId row.frameworkId)
  frameworkLinks : db.runFrameworkLinks.AllRows fun key _ => Scanned db key.1 ∧
    (ControlLinked db key.1 key.2 ∨ HasResult db key.1 key.2 fun _ => True)
  controlLinks : db.runControlLinks.AllRows fun key _ => Scanned db key.1 ∧
    FrameworkLinked db key.1 key.2.1
  gaps : db.complianceGaps.AllRows fun rowId gap =>
    ∃ runId frameworkId controlId ruleId, gap.runId = some runId ∧
      rowId = complianceGapRowId runId frameworkId controlId ruleId ∧
      gap.controlId = some controlId ∧ gap.ruleId = some ruleId ∧ Scanned db runId ∧
      HasResult db runId frameworkId fun row => row.controlId = controlId ∧ row.ruleId = ruleId
  scores : db.scoreSummaries.AllRows fun _ score =>
    ∃ runId frameworkId, score.runId = some runId ∧ score.frameworkId = some frameworkId ∧
      Scanned db runId ∧ HasResult db runId frameworkId fun _ => True
  evidenceLinks : db.runEvidenceLinks.AllRows fun key _ => Scanned db key.1 ∧
    ∃ row, db.evidenceMetadata.get key.2 = some row

/-- The references of a database in which every run is stored as some corpus. -/
theorem referencesHold_of_stored {db : Db} (hwf : WellFormed db)
    (hstored : ∀ runId, ∃ corpus : Corpus, corpus.runId = runId ∧ StoredRun corpus db) :
    ReferencesHold db where
  results := by
    intro rowId row hget
    obtain ⟨corpus, hrun, h⟩ := hstored row.runId
    obtain ⟨item, hitem, -, rfl⟩ := Table.mem_of_lastOf ((h.results _ _ hrun.symm).mp hget)
    refine ⟨h.scanned_of_mem Corpus.results (fun _ => rfl) hitem, fun hframework => ?_⟩
    refine h.exists_frameworkLink ((h.referenced_iff _).mp ?_)
    refine List.mem_append_right _ (List.mem_filterMap.mpr ?_)
    exact ⟨item, hitem, frameworkId_of_column hframework⟩
  frameworkLinks := by
    rintro ⟨runId, frameworkId⟩ link hget
    obtain ⟨corpus, rfl, h⟩ := hstored runId
    obtain ⟨framework, hmem, hkey, -⟩ := Table.mem_of_lastOf ((h.frameworkLinks _ _ rfl).mp hget)
    obtain rfl := (Prod.mk.inj hkey).2
    refine ⟨h.scanned_of_mem Corpus.frameworks (fun _ => rfl) hmem, ?_⟩
    have hmetadata : framework.id ∈ frameworkMetadata corpus := List.mem_map.mpr ⟨_, hmem, rfl⟩
    rcases List.mem_append.mp ((h.referenced_iff _).mpr hmetadata) with hcontrol | hresult
    · obtain ⟨control, hcontrol, hid⟩ := List.mem_map.mp hcontrol
      obtain ⟨link, hlink⟩ := h.exists_controlLink hcontrol
      exact .inl ⟨control.id, link, by rw [← hid]; exact hlink⟩
    · obtain ⟨item, hitem, hid⟩ := List.mem_filterMap.mp hresult
      obtain ⟨row, hrow, hrun, hframework, -, -⟩ := h.exists_result hitem
      refine .inr ⟨_, row, hrow, hrun, ?_, trivial⟩
      rw [hframework, frameworkColumn, hid, Option.getD_some]
  controlLinks := by
    rintro ⟨runId, frameworkId, controlId⟩ link hget
    obtain ⟨corpus, rfl, h⟩ := hstored runId
    obtain ⟨control, hmem, hkey, -⟩ := Table.mem_of_lastOf ((h.controlLinks _ _ rfl).mp hget)
    obtain ⟨rfl, -⟩ := Prod.mk.inj (Prod.mk.inj hkey).2
    refine ⟨h.scanned_of_mem Corpus.controls (fun _ => rfl) hmem, ?_⟩
    refine h.exists_frameworkLink ((h.referenced_iff _).mp ?_)
    exact List.mem_append_left _ (List.mem_map.mpr ⟨control, hmem, rfl⟩)
  gaps := by
    intro rowId row hget
    obtain ⟨runId, _, _, _, hrun, -, -, -⟩ := hwf.gaps rowId row hget
    obtain ⟨corpus, rfl, h⟩ := hstored runId
    obtain ⟨gap, hgap, rfl, rfl⟩ := h.gaps rowId row hrun hget
    obtain ⟨item, hitem, hscoped⟩ := List.mem_filterMap.mp hgap
    obtain ⟨hframework, hresult⟩ := scopedGap_eq_some hscoped
    obtain ⟨row, hrow, hrowRun, hrowFramework, hcontrol, hrule⟩ := h.exists_result hitem
    have hscanned := h.scanned_of_mem Corpus.results (fun _ => rfl) hitem
    refine ⟨_, gap.frameworkId, _, _, rfl, rfl, rfl, rfl, hscanned, _, row, hrow, hrowRun,
      ?_, ?_, ?_⟩
    · rw [hrowFramework, frameworkColumn, hframework, Option.getD_some]
    · rw [hcontrol, hresult]
    · rw [hrule, hresult]
  scores := by
    intro rowId row hget
    obtain ⟨runId, frameworkId, _, _, _, rfl, -⟩ := hwf.scores rowId row hget
    obtain ⟨corpus, rfl, h⟩ := hstored runId
    obtain ⟨summary, hmem, -, hrow⟩ := Table.mem_of_lastOf ((h.scores _ _ rfl).mp hget)
    obtain rfl : summary.1 = frameworkId := Option.some.inj (congrArg ScoreRow.frameworkId hrow)
    obtain ⟨item, hitem, hscored⟩ := List.mem_filterMap.mp (mem_scoreSummaryCounts.mp hmem).1
    obtain ⟨row, hrow, hrowRun, hrowFramework, -, -⟩ := h.exists_result hitem
    have hscanned := h.scanned_of_mem Corpus.results (fun _ => rfl) hitem
    refine ⟨_, _, rfl, rfl, hscanned, _, row, hrow, hrowRun, ?_, trivial⟩
    rw [hrowFramework, frameworkColumn_of_scored hscored]
  evidenceLinks := by
    rintro ⟨runId, evidenceId⟩ link hget
    obtain ⟨corpus, rfl, h⟩ := hstored runId
    obtain ⟨record, hrecord, rfl⟩ := h.evidenceLinks evidenceId link hget
    exact ⟨h.scanned_of_mem Corpus.evidenceRecords (fun _ => rfl) hrecord,
      h.evidenceMetadata record hrecord⟩

/-- **The references between the tables hold** in every database that writes reach, accepted or
rejected, and a rejected write leaves the database as it was. -/
theorem references_hold {db : Db} (hreach : Relation.ReflTransGen WriteStep freshDb db) :
    ReferencesHold db ∧ ∀ corpus faults e db',
      writeCompletedCorpus corpus faults db = (.error e, db') → db' = db := by
  have haccepted := accepted_of_run hreach
  refine ⟨referencesHold_of_stored (wellFormed_of_reachable haccepted)
    (storedRun_of_reachable haccepted), fun corpus faults e db' hrejected => ?_⟩
  exact writeCompletedCorpus_error hrejected

theorem references_hold_passed :
    ReferencesHold (written passedCorpus freshDb) ∧ ∀ corpus faults e db',
      writeCompletedCorpus corpus faults (written passedCorpus freshDb) = (.error e, db') →
        db' = written passedCorpus freshDb := by
  have hstep : WriteStep freshDb (written passedCorpus freshDb) :=
    ⟨passedCorpus, fun _ => false, .ok (),
      writeCompletedCorpus_accepts currentShape_freshDb (by decide) (by decide)⟩
  exact references_hold (.single hstep)

end SovriAgent
