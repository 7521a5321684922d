import SovriAgent.Database

/-!
# Writing a Completed Corpus

The write path of the local database: one transaction that records the run and its
catalog, clears the run's outcomes, and refills the result, score, gap and evidence
tables, each with its own conflict policy. Validation comes first, and a score table of
an older shape is repaired on the way.
-/

namespace SovriAgent

open Keyed Transaction

/-! ### Validation -/

/-- The framework ids a corpus carries metadata for. -/
def frameworkMetadata (corpus : Corpus) : List Str :=
  corpus.frameworks.map (·.id)

/-- The framework ids the controls and the scoped results of a corpus refer to. -/
def referencedFrameworks (corpus : Corpus) : List Str :=
  corpus.controls.map (·.frameworkId) ++ corpus.results.filterMap (·.frameworkId)

/-- Checks that the catalog covers the corpus and that no framework is empty. -/
def validateCompletedCorpus (corpus : Corpus) : Except LocalDatabaseError Unit :=
  let metadata := frameworkMetadata corpus
  let referenced := referencedFrameworks corpus
  let missingFrameworks := orderedSet (referenced.filter (· ∉ metadata))
  let emptyFrameworks := orderedSet (metadata.filter (· ∉ referenced))
  if missingFrameworks ≠ [] then
    .error (.schema ("completed corpus missing framework metadata for ".toList ++
      joinFrameworkIds missingFrameworks))
  else if emptyFrameworks ≠ [] then
    .error (.schema
      ("completed corpus has framework metadata without controls or results for ".toList ++
        joinFrameworkIds emptyFrameworks))
  else .ok ()

/-! ### Score summaries -/

/-- The counts of one score summary. -/
structure ScoreSummaryCounts where
  pass : ℕ
  fail : ℕ
  warning : ℕ
  deriving DecidableEq

/-- The counts with one more result; skipped and errored results are not counted. -/
def ScoreSummaryCounts.add (counts : ScoreSummaryCounts) : Status → ScoreSummaryCounts
  | .pass => { counts with pass := counts.pass + 1 }
  | .fail => { counts with fail := counts.fail + 1 }
  | .warning => { counts with warning := counts.warning + 1 }
  | .skipped => counts
  | .error => counts

/-- The framework a result is scored under. -/
def scoredFramework (item : ScopedResult) : Option Str :=
  item.frameworkId.filter (· ≠ [])

/-- One turn of the counting loop. -/
def countResult (summaries : Table Str ScoreSummaryCounts) (item : ScopedResult) :
    Table Str ScoreSummaryCounts :=
  match scoredFramework item with
  | none => summaries
  | some frameworkId =>
      summaries.upsert frameworkId (ScoreSummaryCounts.add ⟨0, 0, 0⟩ item.result.status)
        fun counts => counts.add item.result.status

/-- The counts of a corpus by framework, in ascending order of the framework ids. -/
def scoreSummaryCounts (corpus : Corpus) : List (Str × ScoreSummaryCounts) :=
  sortBy (fun a b => strLe a.1 b.1) (corpus.results.foldl countResult Table.empty).rows

/-- The five data columns of the score table. -/
def scoreColumns : List ColumnName :=
  [.runId, .frameworkId, .passCount, .failCount, .warningCount]

/-- Whether a score row has a `NULL` in one of its data columns. -/
def ScoreRow.isLegacy (row : ScoreRow) : Bool :=
  row.runId.isNone || row.frameworkId.isNone || row.passCount.isNone || row.failCount.isNone ||
    row.warningCount.isNone

/-- Whether some score row has a `NULL` (`legacy_score_summary_rows_exist`). -/
def legacyScoreSummaryRowsExist (db : Db) : Bool :=
  db.scoreSummaries.rows.any fun r => r.2.isLegacy

/-- A group of control results that are scored together. -/
structure ScoreGroup where
  runId : Str
  frameworkId : Str
  passCount : ℕ
  failCount : ℕ
  warningCount : ℕ

/-- The number of results of a run and framework with a status. -/
def statusCount (results : Table Str ControlResultRow) (runId frameworkId : Str)
    (status : Status) : ℕ :=
  results.rows.countP fun r =>
    r.2.runId = runId ∧ r.2.frameworkId = frameworkId ∧ r.2.status = status.label

/-- The result rows grouped by run and framework, both non-empty. -/
def scoreGroups (results : Table Str ControlResultRow) : List ScoreGroup :=
  let keys := (results.rows.filter fun r => r.2.runId ≠ [] ∧ r.2.frameworkId ≠ []).map fun r =>
    (r.2.runId, r.2.frameworkId)
  (sortBy (leThen Prod.fst Prod.snd) keys.dedup).map fun k =>
    { runId := k.1, frameworkId := k.2, passCount := statusCount results k.1 k.2 .pass,
      failCount := statusCount results k.1 k.2 .fail,
      warningCount := statusCount results k.1 k.2 .warning }

/-- The score row of a run and framework. -/
def scoreRow (runId frameworkId : Str) (pass fail warning : ℕ) : ScoreRow :=
  ⟨some runId, some frameworkId, some pass, some fail, some warning⟩

/-- Replaces the score row of a run and framework. -/
def insertScoreRow (runId frameworkId : Str) (pass fail warning : ℕ) : DbTx Unit :=
  sql (columnsOf .scoreSummaries (.id :: scoreColumns)) fun db =>
    { db with
      scoreSummaries := db.scoreSummaries.insertOrReplace (scoreSummaryRowId runId frameworkId)
        (scoreRow runId frameworkId pass fail warning) }

/-- Deletes the legacy score rows and replaces the rows of the given groups. -/
def replaceScoreRows (summaries : List ScoreGroup) : DbTx Unit := do
  sql (columnsOf .scoreSummaries scoreColumns) fun db =>
    { db with scoreSummaries := db.scoreSummaries.deleteWhere fun _ row => row.isLegacy }
  summaries.forM fun group =>
    insertScoreRow group.runId group.frameworkId group.passCount group.failCount
      group.warningCount

/-- The columns of the result table the score rows are recomputed from. -/
def scoredColumns : List Column :=
  columnsOf .controlResults [.runId, .frameworkId, .status]

/-- Recomputes the score rows from the stored results, unless these lack a column. -/
def backfillScoreSummariesFromResults : DbTx Unit := do
  let complete ← ask [] fun db => scoredColumns.all db.columnExists
  if complete then
    let summaries ← ask scoredColumns fun db => scoreGroups db.controlResults
    replaceScoreRows summaries
  else pure ()

/-- Rebuilds the score table with `NOT NULL` columns; a `NULL` in a row fails it. -/
def rebuildScoreSummariesWithNotNullColumns : DbTx Unit :=
  Tx.execute .sqlite fun db =>
    if (columnsOf .scoreSummaries (.id :: scoreColumns)).all db.columnExists ∧
        legacyScoreSummaryRowsExist db = false then
      .ok { db with scoreColumnsNotNull := true }
    else .error .sqlite

/-- Adds a score column if it is missing, and says whether it was. -/
def addScoreColumnIfMissing (name : ColumnName) : DbTx Bool := do
  let present ← ask [] fun db => db.columnExists (.scoreSummaries, name)
  if present then pure false
  else
    alterAddColumn (.scoreSummaries, name)
    pure true

/-- Recomputes the score rows when a column was added or a legacy row remains. -/
def backfillIfRepaired (schemaRepaired : Bool) : DbTx Unit :=
  if schemaRepaired then backfillScoreSummariesFromResults
  else do
    let legacy ← ask (columnsOf .scoreSummaries scoreColumns) legacyScoreSummaryRowsExist
    if legacy then backfillScoreSummariesFromResults else pure ()

/-- Rebuilds the score table unless its columns are `NOT NULL`. -/
def rebuildIfNullable : DbTx Unit := do
  let notNull ← ask [] (·.scoreColumnsNotNull)
  if notNull then pure () else rebuildScoreSummariesWithNotNullColumns

/-- Brings the score table to its current shape. -/
def addMissingScoreSummaryColumns : DbTx Unit := do
  let addedRunId ← addScoreColumnIfMissing .runId
  let addedFrameworkId ← addScoreColumnIfMissing .frameworkId
  let addedPass ← addScoreColumnIfMissing .passCount
  let addedFail ← addScoreColumnIfMissing .failCount
  let addedWarning ← addScoreColumnIfMissing .warningCount
  backfillIfRepaired (addedRunId || addedFrameworkId || addedPass || addedFail || addedWarning)
  rebuildIfNullable

/-- Whether the score table has its current shape. -/
def scoreSummarySchemaIsCurrent (db : Db) : Bool :=
  (columnsOf .scoreSummaries scoreColumns).all db.columnExists && db.scoreColumnsNotNull &&
    !legacyScoreSummaryRowsExist db

/-- Replaces the score summaries of the corpus's run. -/
def writeScoreSummaries (corpus : Corpus) : DbTx Unit := do
  addMissingScoreSummaryColumns
  sql (columnsOf .scoreSummaries [.runId]) fun db =>
    { db with scoreSummaries := db.scoreSummaries.deleteWhere fun _ row =>
        row.runId = some corpus.runId }
  (scoreSummaryCounts corpus).forM fun summary =>
    insertScoreRow corpus.runId summary.1 summary.2.pass summary.2.fail summary.2.warning

/-! ### Catalog -/

/-- The link row of a framework. -/
def frameworkLink (framework : Framework) : FrameworkLinkRow :=
  ⟨framework.version, framework.sourceUrl⟩

/-- Records a framework and its link to the run. -/
def writeFramework (runId : Str) (framework : Framework) : DbTx Unit := do
  sql (columnsOf .frameworks [.id, .version]) fun db =>
    { db with frameworks := db.frameworks.insertOrIgnore framework.id ⟨framework.version⟩ }
  sql (columnsOf .runFrameworkLinks [.runId, .frameworkId, .version, .sourceUrl]) fun db =>
    { db with
      runFrameworkLinks := db.runFrameworkLinks.upsert (runId, framework.id)
        (frameworkLink framework) fun _ => frameworkLink framework }

/-- The link row of a catalogued control. -/
def controlLink (control : Control) : ControlLinkRow :=
  ⟨control.title, control.severity, control.weight, control.reference⟩

/-- Records a catalogued control and its link to the run. -/
def writeControl (runId : Str) (control : Control) : DbTx Unit := do
  sql (columnsOf .controls [.id]) fun db =>
    { db with controls := db.controls.insertOrIgnore control.id () }
  sql (columnsOf .runControlLinks
      [.runId, .frameworkId, .controlId, .title, .severity, .weight, .reference]) fun db =>
    { db with
      runControlLinks := db.runControlLinks.upsert (runId, control.frameworkId, control.id)
        (controlLink control) fun _ => controlLink control }

/-- The row of a run under a new write: an empty timestamp keeps the stored one. -/
def mergeRun (executedAt : Str) (old : ScanRunRow) : ScanRunRow :=
  if executedAt = [] then old else ⟨executedAt⟩

/-- Records the run and replaces its catalog links. -/
def writeRunCatalog (runId : Str) (corpus : Corpus) : DbTx Unit := do
  sql (columnsOf .scanRuns [.id, .executedAt]) fun db =>
    { db with
      scanRuns := db.scanRuns.upsert runId ⟨corpus.executedAt⟩ (mergeRun corpus.executedAt) }
  sql (columnsOf .runFrameworkLinks [.runId]) fun db =>
    { db with runFrameworkLinks := db.runFrameworkLinks.deleteWhere fun k _ => k.1 = runId }
  sql (columnsOf .runControlLinks [.runId]) fun db =>
    { db with runControlLinks := db.runControlLinks.deleteWhere fun k _ => k.1 = runId }
  corpus.frameworks.forM (writeFramework runId)
  corpus.controls.forM (writeControl runId)

/-! ### Results and gaps -/

/-- Deletes the results and the gaps of a run. -/
def clearRunOutcomes (runId : Str) : DbTx Unit := do
  sql (columnsOf .controlResults [.runId]) fun db =>
    { db with controlResults := db.controlResults.deleteWhere fun _ row => row.runId = runId }
  sql (columnsOf .complianceGaps [.runId]) fun db =>
    { db with complianceGaps := db.complianceGaps.deleteWhere fun _ row =>
        row.runId = some runId }

/-- The framework column of a result: empty when it is not scoped. -/
def frameworkColumn (item : ScopedResult) : Str :=
  item.frameworkId.getD []

/-- The row id of a result. -/
def resultRowId (runId : Str) (item : ScopedResult) : Str :=
  controlResultRowId runId (frameworkColumn item) item.result.controlId item.result.ruleId

/-- The row of a result; of its evidence references only the first is stored. -/
def resultRow (runId : Str) (item : ScopedResult) : ControlResultRow where
  runId := runId
  controlId := item.result.controlId
  ruleId := item.result.ruleId
  status := item.result.status.label
  evidenceId := item.result.evidenceRefs.head?.getD []
  frameworkId := frameworkColumn item
  severity := item.result.severity
  weight := item.result.weight
  reason := item.result.reason
  executedAt := item.result.executedAt
  executionMetadata := item.result.executionMetadata

/-- The columns a result row is written to. -/
def resultColumns : List ColumnName :=
  [.id, .runId, .controlId, .ruleId, .status, .evidenceId, .frameworkId, .severity, .weight,
    .reason, .executedAt, .executionMetadata]

/-- Inserts or updates the row of a result. -/
def writeResult (runId : Str) (item : ScopedResult) : DbTx Unit :=
  sql (columnsOf .controlResults resultColumns) fun db =>
    { db with
      controlResults := db.controlResults.upsert (resultRowId runId item) (resultRow runId item)
        fun _ => resultRow runId item }

/-- Whether a result of this status is a gap. -/
def isGapStatus : Status → Bool
  | .fail => true
  | .warning => true
  | _ => false

/-- A framework-scoped result whose status makes it a gap. -/
structure ScopedGap where
  frameworkId : Str
  result : ControlResult
  isGap : isGapStatus result.status = true

/-- The gap of a result, if it is one. -/
def scopedGap (item : ScopedResult) : Option ScopedGap :=
  item.frameworkId.bind fun frameworkId =>
    if h : isGapStatus item.result.status = true then some ⟨frameworkId, item.result, h⟩ else none

/-- The id of a gap under earlier versions. -/
def ScopedGap.legacyId (gap : ScopedGap) : Str :=
  legacyComplianceGapRowId gap.frameworkId gap.result.controlId gap.result.ruleId

/-- The id of a gap. -/
def ScopedGap.rowId (runId : Str) (gap : ScopedGap) : Str :=
  complianceGapRowId runId gap.frameworkId gap.result.controlId gap.result.ruleId

/-- The row of a gap. -/
def ScopedGap.row (runId : Str) (gap : ScopedGap) : GapRow where
  runId := some runId
  status := some gap.result.status.label
  severity := some gap.result.severity
  controlId := some gap.result.controlId
  ruleId := some gap.result.ruleId

/-- Replaces the legacy row of a gap by its current one. -/
def writeGap (runId : Str) (gap : ScopedGap) : DbTx Unit := do
  sql (columnsOf .complianceGaps [.id]) fun db =>
    { db with complianceGaps := db.complianceGaps.deleteWhere fun k _ => k = gap.legacyId }
  sql (columnsOf .complianceGaps [.id, .runId, .status, .severity, .controlId, .ruleId])
    fun db =>
      { db with
        complianceGaps := db.complianceGaps.insertOrIgnore (gap.rowId runId) (gap.row runId) }

/-- Writes the gaps of a run. -/
def writeGapRows (runId : Str) (results : List ScopedResult) : DbTx Unit :=
  (results.filterMap scopedGap).forM (writeGap runId)

/-! ### Evidence -/

/-- The stored metadata of an evidence record under a new write: metadata the record does
not carry is kept. -/
def mergeEvidence (evidence : EvidenceRecord) (old : EvidenceRow) : EvidenceRow where
  runId := old.runId
  digest := if evidence.integrity = [] then old.digest else evidence.integrity
  locator := if old.locator = [] then evidence.locator else old.locator
  classification :=
    if evidence.integrity = [] then old.classification else evidence.classification

/-- The metadata row of an evidence record that is not stored yet. -/
def evidenceRow (owner : Str) (evidence : EvidenceRecord) : EvidenceRow :=
  ⟨owner, evidence.integrity, evidence.locator, evidence.classification⟩

/-- Inserts or merges the metadata of an evidence record. -/
def writeEvidenceMetadata (runId : Str) (hasLegacyRunId : Bool) (evidence : EvidenceRecord) :
    DbTx Unit :=
  if hasLegacyRunId then
    sql (columnsOf .evidenceMetadata [.id, .runId, .digest, .locator, .classification]) fun db =>
      { db with
        evidenceMetadata := db.evidenceMetadata.upsert evidence.id (evidenceRow runId evidence)
          (mergeEvidence evidence) }
  else
    sql (columnsOf .evidenceMetadata [.id, .digest, .locator, .classification]) fun db =>
      { db with
        evidenceMetadata := db.evidenceMetadata.upsert evidence.id (evidenceRow [] evidence)
          (mergeEvidence evidence) }

/-- The link row of an evidence record, given its stored metadata. -/
def evidenceLink (evidence : EvidenceRecord) (metadata : EvidenceRow) : EvidenceLinkRow where
  kind := evidence.kind
  digest := if evidence.integrity = [] then metadata.digest else evidence.integrity
  locator := evidence.locator
  classification :=
    if evidence.integrity = [] then metadata.classification else evidence.classification

/-- Links an evidence record to the run, selecting from its stored metadata. -/
def writeEvidenceLink (runId : Str) (evidence : EvidenceRecord) : DbTx Unit :=
  sql (columnsOf .evidenceMetadata [.id, .digest, .classification] ++
      columnsOf .runEvidenceLinks
        [.runId, .evidenceId, .kind, .digest, .locator, .classification]) fun db =>
    match db.evidenceMetadata.get evidence.id with
    | none => db
    | some metadata =>
        { db with
          runEvidenceLinks := db.runEvidenceLinks.upsert (runId, evidence.id)
            (evidenceLink evidence metadata) fun _ => evidenceLink evidence metadata }

/-- Writes an evidence record: its metadata and its link to the run. -/
def writeEvidence (runId : Str) (hasLegacyRunId : Bool) (evidence : EvidenceRecord) :
    DbTx Unit := do
  writeEvidenceMetadata runId hasLegacyRunId evidence
  writeEvidenceLink runId evidence

/-- Writes the evidence of a run. -/
def writeEvidenceRows (runId : Str) (corpus : Corpus) : DbTx Unit := do
  sql (columnsOf .runEvidenceLinks [.runId]) fun db =>
    { db with runEvidenceLinks := db.runEvidenceLinks.deleteWhere fun k _ => k.1 = runId }
  let hasLegacyRunId ← ask [] fun db => db.columnExists (.evidenceMetadata, .runId)
  corpus.evidenceRecords.forM (writeEvidence runId hasLegacyRunId)

/-! ### The write -/

/-- The statements of the write transaction. -/
def writeTransaction (corpus : Corpus) : DbTx Unit := do
  writeRunCatalog corpus.runId corpus
  clearRunOutcomes corpus.runId
  writeScoreSummaries corpus
  corpus.results.forM (writeResult corpus.runId)
  writeGapRows corpus.runId corpus.results
  writeEvidenceRows corpus.runId corpus

/-- Writes a completed scan corpus into the local database: its result, and the database
it leaves. -/
def writeCompletedCorpus (corpus : Corpus) (faults : ℕ → Bool) (db : Db) :
    Except LocalDatabaseError Unit × Db :=
  if trim corpus.runId = [] then
    (.error (.schema "completed corpus run_id cannot be empty".toList), db)
  else
    match validateCompletedCorpus corpus with
    | .error e => (.error e, db)
    | .ok () => (writeTransaction corpus).transaction .sqlite faults db

end SovriAgent
