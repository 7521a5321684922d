import SovriAgent.EvidenceQueries
import SovriAgent.RowIdentity
import SovriAgent.ScoreRepair

/-!
# The Queries of the Local Database

What the read side of the local database returns: the runs, the records of one run, and the
lists of results and gaps that are filtered by run, control, status or severity. Every list is
in the order of columns of its own.

A `NULL` that a query reads into a text or a number fails it.

## Main results

* `listed_filter`: the filtered list of results is a part of the list of the run.
-/

namespace SovriAgent

open Keyed Transaction Transaction.Tx

/-! ### What queries return -/

/-- A persisted compliance gap returned by queries. -/
structure LocalDatabaseGap where
  controlId : Str
  ruleId : Str
  status : Str
deriving DecidableEq

/-- A persisted control result returned by queries. -/
structure LocalDatabaseResult where
  controlId : Str
  ruleId : Str
  runId : Str
  status : Str
deriving DecidableEq

/-- The status counts of one framework in a run. -/
structure ScoreSummaryRecord where
  frameworkId : Str
  passCount : ℕ
  failCount : ℕ
  warningCount : ℕ
deriving DecidableEq

/-- A query whose rows may fail to decode. -/
def fetch {α : Type} (needs : List Column) (read : Db → Option α) : DbTx α :=
  Tx.query .sqlite fun db =>
    if needs.all db.columnExists then
      match read db with
      | none => .error .sqlite
      | some a => .ok a
    else .error .sqlite

/-- What a query whose rows decode answers. -/
theorem answers_fetch {α : Type} {needs : List Column} {db : Db} (h : CurrentShape db)
    {read : Db → Option α} {a : α} (hread : read db = some a)
    (hneeds : needs ⊆ initialColumns := by decide) : (fetch needs read).Answers db a := by
  refine answers_query ?_
  rw [if_pos (h.all_columnExists hneeds), hread]

/-! ### Migrations and runs -/

/-- The names of the applied migrations in the order of their versions. -/
def appliedMigrations : DbTx (List Str) :=
  Tx.query .sqlite fun db =>
    match db.ledger with
    | none => .error .sqlite
    | some ledger => .ok ((ledger.rows.insertionSort fun a b => a.1 ≤ b.1).map Prod.snd)

/-- The timestamp of a completed run. -/
def completedRunExecutedAt (runId : Str) : DbTx (Option Str) :=
  ask (columnsOf .scanRuns [.id, .executedAt]) fun db =>
    (db.scanRuns.get runId).map ScanRunRow.executedAt

/-- The ids of the persisted runs. -/
def queryRuns : DbTx (List Str) :=
  ask (columnsOf .scanRuns [.id]) fun db => orderBy [id] (db.scanRuns.rows.map Prod.fst)

/-- The id of a run, if it is persisted. -/
def queryRun (runId : Str) : DbTx (List Str) :=
  ask (columnsOf .scanRuns [.id]) fun db =>
    (db.scanRuns.rows.filter fun r => r.1 = runId).map Prod.fst

/-! ### The records of a run -/

/-- The framework records of a run. -/
def frameworkRecordsForRun (runId : Str) : DbTx (List Str) :=
  ask (columnsOf .runFrameworkLinks [.runId, .frameworkId]) fun db =>
    orderBy [id] ((db.runFrameworkLinks.rows.filter fun r => r.1.1 = runId).map fun r => r.1.2)

/-- The control records of a run; a control of several frameworks has one for each. -/
def controlRecordsForRun (runId : Str) : DbTx (List Str) :=
  ask (columnsOf .runControlLinks [.runId, .controlId]) fun db =>
    orderBy [id] ((db.runControlLinks.rows.filter fun r => r.1.1 = runId).map fun r => r.1.2.2)

/-- The record of a framework, a control and a rule. -/
def recordText (frameworkId controlId ruleId : Str) : Str :=
  frameworkId ++ ':' :: (controlId ++ ':' :: ruleId)

/-- The record of a result row. -/
def ControlResultRow.record (row : ControlResultRow) : Str :=
  recordText row.frameworkId row.controlId row.ruleId

/-- The result records of a run. -/
def controlResultRecordsForRun (runId : Str) : DbTx (List Str) :=
  ask (columnsOf .controlResults [.runId, .frameworkId, .controlId, .ruleId]) fun db =>
    (orderBy [ControlResultRow.frameworkId, ControlResultRow.controlId, ControlResultRow.ruleId]
      ((db.controlResults.rows.filter fun r => r.2.runId = runId).map Prod.snd)).map
      ControlResultRow.record

/-- The record a gap id encodes; the id itself where it encodes none. -/
def gapRecordText (rowId : Str) : Str :=
  match complianceGapIdentity rowId with
  | some identity => recordText identity.frameworkId identity.controlId identity.ruleId
  | none => rowId

/-- The gap records of a run. -/
def complianceGapRecordsForRun (runId : Str) : DbTx (List Str) := do
  let rowIds ← ask (columnsOf .complianceGaps [.id, .runId]) fun db =>
    orderBy [id] ((db.complianceGaps.rows.filter fun r => r.2.runId = some runId).map Prod.fst)
  pure (rowIds.map gapRecordText)

/-- The evidence records of a run: its links whose metadata is stored. -/
def evidenceMetadataRecordsForRun (runId : Str) : DbTx (List Str) :=
  ask (columnsOf .evidenceMetadata [.id] ++ columnsOf .runEvidenceLinks [.runId, .evidenceId])
    fun db =>
      orderBy [id] ((db.evidenceMetadata.rows.flatMap fun r =>
        (db.runEvidenceLinks.rows.filter fun l => l.1.2 = r.1 ∧ l.1.1 = runId).map
          fun _ => r.1))

/-- The framework of a score row. -/
def scoreFramework (row : ScoreRow) : Str :=
  row.frameworkId.getD []

/-- The score rows of a run in the order of their frameworks. -/
def scoreRowsForRun (runId : Str) (db : Db) : List ScoreRow :=
  orderBy [scoreFramework]
    ((db.scoreSummaries.rows.filter fun r => r.2.runId = some runId).map Prod.snd)

/-- The score summary of a row, if no column is `NULL`. -/
def ScoreRow.summary (row : ScoreRow) : Option ScoreSummaryRecord :=
  row.frameworkId.bind fun frameworkId =>
    row.passCount.bind fun pass =>
      row.failCount.bind fun fail =>
        row.warningCount.map fun warning => ⟨frameworkId, pass, fail, warning⟩

/-- The frameworks with score summaries of a run. -/
def selectScoreFrameworks (runId : Str) : DbTx (List Str) :=
  fetch (columnsOf .scoreSummaries [.frameworkId, .runId]) fun db =>
    (scoreRowsForRun runId db).mapM ScoreRow.frameworkId

/-- The score summaries of a run. -/
def selectScoreSummaries (runId : Str) : DbTx (List ScoreSummaryRecord) :=
  fetch (columnsOf .scoreSummaries
      [.frameworkId, .passCount, .failCount, .warningCount, .runId]) fun db =>
    (scoreRowsForRun runId db).mapM ScoreRow.summary

/-- A query of the score table, which is repaired first; the repair stays even if the query
fails. -/
def readScores {α : Type} (select : DbTx α) (reads faults queries : ℕ → Bool) (db : Db) :
    Except LocalDatabaseError α × Db :=
  match ensureScoreSummarySchema reads faults db with
  | (.error e, db') => (.error e, db')
  | (.ok (), db') => (select.answer queries db', db')

/-- The frameworks with score summaries of a run, from a repaired table. -/
def scoreSummaryRecordsForRun (runId : Str) (reads faults queries : ℕ → Bool) (db : Db) :
    Except LocalDatabaseError (List Str) × Db :=
  readScores (selectScoreFrameworks runId) reads faults queries db

/-- The score summaries of a run, from a repaired table. -/
def scoreSummariesForRun (runId : Str) (reads faults queries : ℕ → Bool) (db : Db) :
    Except LocalDatabaseError (List ScoreSummaryRecord) × Db :=
  readScores (selectScoreSummaries runId) reads faults queries db

/-! ### Results and gaps -/

/-- The gap of a row, if no column is `NULL`. -/
def GapRow.listed (row : GapRow) : Option LocalDatabaseGap :=
  row.controlId.bind fun controlId =>
    row.ruleId.bind fun ruleId =>
      row.status.map fun status => ⟨controlId, ruleId, status⟩

/-- A nullable column as a text; `NULL` comes first. -/
def nullable (column : GapRow → Option Str) (row : GapRow) : Str :=
  (column row).getD []

/-- The gaps of a run with a status and a severity. -/
def queryGaps (runId status severity : Str) : DbTx (List LocalDatabaseGap) :=
  fetch (columnsOf .complianceGaps [.controlId, .ruleId, .status, .runId, .severity]) fun db =>
    (orderBy [nullable GapRow.controlId, nullable GapRow.ruleId]
      ((db.complianceGaps.rows.filter fun r => r.2.runId = some runId ∧
        r.2.status = some status ∧ r.2.severity = some severity).map Prod.snd)).mapM
      GapRow.listed

/-- The result of a row. -/
def ControlResultRow.listed (row : ControlResultRow) : LocalDatabaseResult :=
  ⟨row.controlId, row.ruleId, row.runId, row.status⟩

/-- The results of a run for a control, with a status. -/
def queryResults (runId controlId status : Str) : DbTx (List LocalDatabaseResult) :=
  ask (columnsOf .controlResults [.controlId, .ruleId, .runId, .status]) fun db =>
    (orderBy [ControlResultRow.ruleId] ((db.controlResults.rows.filter fun r =>
      r.2.runId = runId ∧ r.2.controlId = controlId ∧ r.2.status = status).map Prod.snd)).map
      ControlResultRow.listed

/-- The columns the results of a run are ordered by, the row id last. -/
def resultOrder : List (Str × ControlResultRow → Str) :=
  [fun r => r.2.controlId, fun r => r.2.ruleId, fun r => r.2.frameworkId, Prod.fst]

/-- The results of a run; no run has the empty id. -/
def queryResultsForRun (runId : Str) : DbTx (List LocalDatabaseResult) :=
  if runId = [] then pure []
  else
    ask (columnsOf .controlResults [.controlId, .ruleId, .runId, .status, .frameworkId, .id])
      fun db =>
        (orderBy resultOrder (db.controlResults.rows.filter fun r => r.2.runId = runId)).map
          fun r => r.2.listed

/-- **The filtered list of results** is the part of the list of the run that the filter asks
for: rows a filter keeps differ in their rules only. -/
theorem listed_filter (runId controlId status : Str) (rows : List (Str × ControlResultRow)) :
    (orderBy [ControlResultRow.ruleId] ((rows.filter fun r =>
      r.2.runId = runId ∧ r.2.controlId = controlId ∧ r.2.status = status).map Prod.snd)).map
        ControlResultRow.listed =
      ((orderBy resultOrder (rows.filter fun r => r.2.runId = runId)).map
        fun r => r.2.listed).filter fun result =>
          result.controlId = controlId ∧ result.status = status := by
  have hkept : ∀ r : Str × ControlResultRow, (decide (r.2.runId = runId) &&
      decide (r.2.listed.controlId = controlId ∧ r.2.listed.status = status)) =
      decide (r.2.runId = runId ∧ r.2.controlId = controlId ∧ r.2.status = status) := by
    intro r
    rw [Bool.decide_and, Bool.decide_and, Bool.decide_and]
    rfl
  rw [List.filter_map]
  refine eq_of_perm_of_sorted [LocalDatabaseResult.ruleId] ?_ ?_ ?_ ?_
  · refine ((orderBy_perm _ _).map _).trans ?_
    refine List.Perm.trans ?_ (((orderBy_perm _ _).filter _).map _).symm
    rw [List.map_map, List.filter_filter]
    refine List.Perm.of_eq (congrArg (List.map _) (List.filter_congr fun r _ => ?_))
    rw [Bool.and_comm]
    exact (hkept r).symm
  · exact List.pairwise_map.mpr ((orderBy_pairwise _ _).imp fun h => (lexLe_map _ _ _ _).trans h)
  · refine List.pairwise_map.mpr (((orderBy_pairwise _ _).filter _).imp_of_mem ?_)
    intro r r' hr hr' hle
    have hcontrol : r.2.controlId = controlId := (of_decide_eq_true (List.mem_filter.mp hr).2).1
    have hcontrol' : r'.2.controlId = controlId :=
      (of_decide_eq_true (List.mem_filter.mp hr').2).1
    rw [resultOrder, lexLe, if_pos (hcontrol.trans hcontrol'.symm), lexLe] at hle
    change lexLe [LocalDatabaseResult.ruleId] r.2.listed r'.2.listed = true
    rw [lexLe]
    split
    · rfl
    · next hne =>
        have hrule : r.2.ruleId ≠ r'.2.ruleId := hne
        rwa [if_neg hrule] at hle
  · intro a ha b hb hagree
    obtain ⟨row, hrow, rfl⟩ := List.mem_map.mp ha
    obtain ⟨r, hr, rfl⟩ := List.mem_map.mp ((orderBy_perm _ _).mem_iff.mp hrow)
    obtain ⟨hrun, hcontrol, hstatus⟩ := of_decide_eq_true (List.mem_filter.mp hr).2
    obtain ⟨r', hr', rfl⟩ := List.mem_map.mp hb
    obtain ⟨hmem', hfound⟩ := List.mem_filter.mp hr'
    have hrun' := of_decide_eq_true
      (List.mem_filter.mp ((orderBy_perm _ _).mem_iff.mp hmem')).2
    obtain ⟨hcontrol', hstatus'⟩ := of_decide_eq_true hfound
    exact LocalDatabaseResult.mk.injEq .. ▸ ⟨hcontrol.trans hcontrol'.symm,
      hagree _ (List.mem_singleton_self _), hrun.trans hrun'.symm, hstatus.trans hstatus'.symm⟩

end SovriAgent
