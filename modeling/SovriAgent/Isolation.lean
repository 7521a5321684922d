import SovriAgent.OpenDatabase
import SovriAgent.WriteEffect

/-!
# Runs Do Not Disturb Each Other

A write replaces the rows of its own run. Rows of other runs are left alone where the
tables are keyed by the run, and elsewhere unless they stand under an id the write itself
uses: a result id or a score id of its run, which encode the run, or the id earlier
versions gave one of its gaps, which does not.

A result row under an id of the run belongs to it whatever its `run_id` says; the write
repairs it.

## Main results

* `writeCompletedCorpus_keeps_other_runs`: the rows an accepted write leaves alone.
* `rewrite_takes_over_other_rows`: rows of another run it does not leave alone.
-/

namespace SovriAgent

open Keyed Transaction

/-- The rows of other runs a write of a corpus leaves alone. -/
structure KeepsOtherRuns (corpus : Corpus) (db db' : Db) : Prop where
  frameworkLinks : Table.Keeps (fun key _ => key.1 ≠ corpus.runId) db.runFrameworkLinks
    db'.runFrameworkLinks
  controlLinks : Table.Keeps (fun key _ => key.1 ≠ corpus.runId) db.runControlLinks
    db'.runControlLinks
  evidenceLinks : Table.Keeps (fun key _ => key.1 ≠ corpus.runId) db.runEvidenceLinks
    db'.runEvidenceLinks
  results : Table.Keeps (fun rowId row => row.runId ≠ corpus.runId ∧
    ∀ item ∈ corpus.results, rowId ≠ resultRowId corpus.runId item) db.controlResults
    db'.controlResults
  gaps : Table.Keeps (fun rowId row => row.runId ≠ some corpus.runId ∧
    ∀ gap ∈ corpusGaps corpus, rowId ≠ gap.legacyId) db.complianceGaps db'.complianceGaps
  scores : scoreSummarySchemaIsCurrent db = true →
    Table.Keeps (fun rowId row => row.runId ≠ some corpus.runId ∧
      ∀ frameworkId ∈ scoredFrameworks corpus.results,
        rowId ≠ scoreSummaryRowId corpus.runId frameworkId) db.scoreSummaries db'.scoreSummaries

/-! ### Table by table -/

/-- The framework links of other runs are kept. -/
theorem keeps_frameworkLinks (corpus : Corpus) (db : Db) :
    Table.Keeps (fun key _ => key.1 ≠ corpus.runId) db.runFrameworkLinks
      (written corpus db).runFrameworkLinks :=
  (Table.keeps_deleteWhere (fun _ _ h => decide_eq_false h) _).trans
    (Table.keeps_overwriteAll (fun _ _ _ h => h rfl) _ _)

/-- The control links of other runs are kept. -/
theorem keeps_controlLinks (corpus : Corpus) (db : Db) :
    Table.Keeps (fun key _ => key.1 ≠ corpus.runId) db.runControlLinks
      (written corpus db).runControlLinks :=
  (Table.keeps_deleteWhere (fun _ _ h => decide_eq_false h) _).trans
    (Table.keeps_overwriteAll (fun _ _ _ h => h rfl) _ _)

/-- The links of a record keep the links of other runs. -/
theorem keeps_linkWritten (runId : Str) (metadata : Table Str EvidenceRow)
    (links : Table (Str × Str) EvidenceLinkRow) (evidence : EvidenceRecord) :
    Table.Keeps (fun key _ => key.1 ≠ runId) links
      (linkWritten runId metadata links evidence) := by
  rw [linkWritten]
  split
  · exact .refl _ _
  · exact Table.keeps_upsert (fun _ h => h rfl) _ _ _

/-- The evidence loop keeps the links of other runs. -/
theorem keeps_evidenceRowsWritten (owner runId : Str) (records : List EvidenceRecord)
    (tables : EvidenceTables) :
    Table.Keeps (fun key _ => key.1 ≠ runId) tables.2
      (evidenceRowsWritten owner runId tables records).2 := by
  induction records generalizing tables with
  | nil => exact .refl _ _
  | cons evidence records ih =>
      have hstep := keeps_linkWritten runId (metadataWritten owner tables.1 evidence) tables.2
        evidence
      exact hstep.trans (ih (evidenceWritten owner runId tables evidence))

/-- The evidence links of other runs are kept. -/
theorem keeps_evidenceLinks (corpus : Corpus) (db : Db) :
    Table.Keeps (fun key _ => key.1 ≠ corpus.runId) db.runEvidenceLinks
      (written corpus db).runEvidenceLinks := by
  have hclear : Table.Keeps (fun key _ => key.1 ≠ corpus.runId) db.runEvidenceLinks
      (db.runEvidenceLinks.deleteWhere fun key _ => key.1 = corpus.runId) :=
    Table.keeps_deleteWhere (fun _ _ h => decide_eq_false h) _
  have hwritten : ∃ owner, (written corpus db).runEvidenceLinks =
      (evidenceRowsWritten owner corpus.runId
        (db.evidenceMetadata, db.runEvidenceLinks.deleteWhere fun key _ => key.1 = corpus.runId)
        corpus.evidenceRecords).2 := ⟨_, rfl⟩
  obtain ⟨owner, hwritten⟩ := hwritten
  rw [hwritten]
  exact hclear.trans (keeps_evidenceRowsWritten owner _ _ (db.evidenceMetadata, _))

/-- The results of other runs are kept, but for those under an id of the corpus. -/
theorem keeps_results (corpus : Corpus) (db : Db) :
    Table.Keeps (fun rowId row => row.runId ≠ corpus.runId ∧
        ∀ item ∈ corpus.results, rowId ≠ resultRowId corpus.runId item) db.controlResults
      (written corpus db).controlResults :=
  (Table.keeps_deleteWhere (fun _ _ h => decide_eq_false h.1) _).trans
    (Table.keeps_overwriteAll (fun item hitem _ h => h.2 item hitem rfl) _ _)

/-- The gaps of other runs are kept, but for those under a legacy id of the corpus. -/
theorem keeps_gaps (corpus : Corpus) (db : Db) :
    Table.Keeps (fun rowId row => row.runId ≠ some corpus.runId ∧
        ∀ gap ∈ corpusGaps corpus, rowId ≠ gap.legacyId) db.complianceGaps
      (written corpus db).complianceGaps := by
  refine (Table.keeps_deleteWhere (fun _ _ h => decide_eq_false h.1) _).trans ?_
  refine Table.Keeps.foldl (fun table gap hgap => ?_) _
  exact (Table.keeps_deleteWhere (fun _ _ h => decide_eq_false (h.2 gap hgap)) table).trans
    (Table.keeps_insertOrIgnore _ _ _ _)

/-- The scores of other runs are kept, but for those under a score id of the corpus. -/
theorem keeps_scores {corpus : Corpus} {db : Db} (h : scoreSummarySchemaIsCurrent db = true) :
    Table.Keeps (fun rowId row => row.runId ≠ some corpus.runId ∧
        ∀ frameworkId ∈ scoredFrameworks corpus.results,
          rowId ≠ scoreSummaryRowId corpus.runId frameworkId) db.scoreSummaries
      (written corpus db).scoreSummaries := by
  rw [scoreSummaries_written h]
  refine (Table.keeps_deleteWhere (fun _ _ hp => decide_eq_false hp.1) _).trans ?_
  refine Table.keeps_replaceAll (fun summary hsummary _ hp => ?_) _ _
  exact hp.2 summary.1 (mem_scoreSummaryCounts.mp hsummary).1 rfl

/-- **A write leaves other runs alone**, up to the ids it uses itself. -/
theorem writeCompletedCorpus_keeps_other_runs {corpus : Corpus} {faults : ℕ → Bool} {db db' : Db}
    (h : writeCompletedCorpus corpus faults db = (.ok (), db')) : KeepsOtherRuns corpus db db' := by
  rw [(writeCompletedCorpus_ok h).eq_written]
  exact
    { frameworkLinks := keeps_frameworkLinks corpus db
      controlLinks := keeps_controlLinks corpus db
      evidenceLinks := keeps_evidenceLinks corpus db
      results := keeps_results corpus db
      gaps := keeps_gaps corpus db
      scores := keeps_scores }

/-! ### Rows that are taken over -/

/-- A corpus of one run with one failed result. -/
def failedCorpus (runId : Str) : Corpus where
  executedAt := "now".toList
  runId := runId
  controls := []
  results := [⟨some "gdpr".toList, ⟨"c1".toList, "r1".toList, .fail, "major".toList, 1,
    [], some "open".toList, "now".toList, []⟩⟩]
  evidence := []
  frameworks := [⟨"gdpr".toList, "1".toList, []⟩]

/-- A result row of another run under a result id of run `a`. -/
def strayResult : ControlResultRow :=
  ⟨"b".toList, "c1".toList, "r1".toList, "PASS".toList, [], "gdpr".toList, [], 0, none, [], []⟩

/-- A gap row of another run under the id earlier versions gave it. -/
def legacyGap : GapRow :=
  ⟨some "b".toList, some "FAIL".toList, some "major".toList, some "c1".toList, some "r1".toList⟩

/-- A current database with these two rows. -/
def strayDb : Db :=
  { freshDb with
    controlResults := Table.empty.insertOrIgnore
      (controlResultRowId "a".toList "gdpr".toList "c1".toList "r1".toList) strayResult
    complianceGaps := Table.empty.insertOrIgnore
      (legacyComplianceGapRowId "gdpr".toList "c1".toList "r1".toList) legacyGap }

/-- The database an accepted write without faults leaves. -/
def afterWrite (corpus : Corpus) (db : Db) : Db :=
  (writeCompletedCorpus corpus (fun _ => false) db).2

theorem writeCompletedCorpus_keeps_other_runs_two :
    (afterWrite (failedCorpus "b".toList) (afterWrite (failedCorpus "a".toList) freshDb)
        ).runFrameworkLinks.get ("a".toList, "gdpr".toList) = some ⟨"1".toList, []⟩ := by
  have haccepted : writeCompletedCorpus (failedCorpus "b".toList) (fun _ => false)
      (afterWrite (failedCorpus "a".toList) freshDb) =
      (.ok (), afterWrite (failedCorpus "b".toList)
        (afterWrite (failedCorpus "a".toList) freshDb)) := Prod.ext (by decide +kernel) rfl
  exact (writeCompletedCorpus_keeps_other_runs haccepted).frameworkLinks _ _ (by decide)
    (by decide +kernel)

/-- **Rows of another run that a write takes over**: a result row under an id of the run is
overwritten, and a gap row under the legacy id of a gap is deleted. -/
theorem rewrite_takes_over_other_rows :
    scoreSummarySchemaIsCurrent strayDb = true ∧
      (writeCompletedCorpus (failedCorpus "a".toList) (fun _ => false) strayDb).1 = .ok () ∧
      strayDb.controlResults.get
        (controlResultRowId "a".toList "gdpr".toList "c1".toList "r1".toList) =
          some strayResult ∧
      (afterWrite (failedCorpus "a".toList) strayDb).controlResults.get
        (controlResultRowId "a".toList "gdpr".toList "c1".toList "r1".toList) ≠
          some strayResult ∧
      strayDb.complianceGaps.get
        (legacyComplianceGapRowId "gdpr".toList "c1".toList "r1".toList) = some legacyGap ∧
      (afterWrite (failedCorpus "a".toList) strayDb).complianceGaps.get
        (legacyComplianceGapRowId "gdpr".toList "c1".toList "r1".toList) = none := by
  decide +kernel

end SovriAgent
