import SovriAgent.DerivedTables

/-!
# The Repair of the Score Table

Reading scores first brings the score table to its current shape. A table that lacks one of
the five data columns, or has a `NULL` in a row, is repaired in one transaction: the missing
columns are added, partial rows are deleted, the rows of every run and framework with
results are counted again, and the table is rebuilt with `NOT NULL` columns.

Whichever columns were missing, the added columns make every row partial (`AllLegacy`), so
there are two cases only: all columns were there, or no old row is kept.

## Main results

* `columnsAdded_of_missing`, `columnsAdded_of_exists`: the two cases.
* `succeeds_addMissingScoreSummaryColumns`: no statement of the repair fails.
* `ensureScoreSummarySchema_repairs`: the repair ends in one normal form, and repeating it
  changes nothing.
-/

namespace SovriAgent

open Keyed Transaction Transaction.Tx

/-! ### The repair -/

/-- Reads whether the score table has its current shape
(`score_summary_schema_is_current`). -/
def readScoreSummarySchemaIsCurrent : DbTx Bool := do
  let complete ← ask [] fun db => (columnsOf .scoreSummaries scoreColumns).all db.columnExists
  if complete then
    let notNull ← ask [] (·.scoreColumnsNotNull)
    if notNull then
      let legacy ← ask (columnsOf .scoreSummaries scoreColumns) legacyScoreSummaryRowsExist
      pure !legacy
    else pure false
  else pure false

/-- Repairs the score table unless it has its current shape; `reads` are the faults of the
check and `faults` those of the transaction. -/
def ensureScoreSummarySchema (reads faults : ℕ → Bool) (db : Db) :
    Except LocalDatabaseError Unit × Db :=
  match readScoreSummarySchemaIsCurrent.answer reads db with
  | .error e => (.error e, db)
  | .ok true => (.ok (), db)
  | .ok false => transaction .sqlite addMissingScoreSummaryColumns faults db

/-! ### The databases it repairs, and what it leaves -/

/-- A row without `NULL`; a column that does not exist counts as `NULL` in every row. -/
def CompleteScore (db : Db) (row : ScoreRow) : Prop :=
  (columnsOf .scoreSummaries scoreColumns).all db.columnExists = true ∧ row.isLegacy = false

/-- A run and a framework, both non-empty, with results. -/
def Scored (db : Db) (runId frameworkId : Str) : Prop :=
  runId ≠ [] ∧ frameworkId ≠ [] ∧ ∃ rowId row, db.controlResults.get rowId = some row ∧
    row.runId = runId ∧ row.frameworkId = frameworkId

/-- The score row with the counts of the results of a run and framework. -/
def countedRow (db : Db) (runId frameworkId : Str) : ScoreRow :=
  scoreRow runId frameworkId (statusCount db.controlResults runId frameworkId .pass)
    (statusCount db.controlResults runId frameworkId .fail)
    (statusCount db.controlResults runId frameworkId .warning)

/-- A database whose score table is to be repaired: it lacks a column or has a row with a
`NULL`, and its rows without `NULL` are in their place and agree with the results. -/
structure Repairable (db : Db) : Prop where
  idColumn : db.columnExists (.scoreSummaries, .id) = true
  resultColumns : scoredColumns.all db.columnExists = true
  damaged : (∃ name ∈ scoreColumns, db.columnExists (.scoreSummaries, name) = false) ∨
    ∃ id row, db.scoreSummaries.get id = some row ∧ row.isLegacy = true
  rows : ∀ id row, db.scoreSummaries.get id = some row → CompleteScore db row →
    ∃ runId frameworkId, row.runId = some runId ∧ row.frameworkId = some frameworkId ∧
      id = scoreSummaryRowId runId frameworkId ∧
      (Scored db runId frameworkId → row = countedRow db runId frameworkId)

/-- The normal form of a repaired database. -/
structure Repaired (db db' : Db) : Prop where
  columns : ∀ name ∈ scoreColumns, db'.columnExists (.scoreSummaries, name) = true
  notNull : db'.scoreColumnsNotNull = true
  /-- There is exactly one row for every run and framework with results. -/
  counted : ∀ runId frameworkId, Scored db runId frameworkId → ∀ id row,
    (db'.scoreSummaries.get id = some row ∧ row.runId = some runId ∧
      row.frameworkId = some frameworkId) ↔
    id = scoreSummaryRowId runId frameworkId ∧ row = countedRow db runId frameworkId
  kept : ∀ id row, db.scoreSummaries.get id = some row → CompleteScore db row →
    db'.scoreSummaries.get id = some row
  noOther : ∀ id row, db'.scoreSummaries.get id = some row →
    (∃ runId frameworkId, Scored db runId frameworkId ∧
      id = scoreSummaryRowId runId frameworkId ∧ row = countedRow db runId frameworkId) ∨
    db.scoreSummaries.get id = some row ∧ CompleteScore db row
  others : ScoresApart db db'

/-! ### The check -/

/-- The check reads whether the table has its current shape. -/
theorem answer_readScoreSummarySchemaIsCurrent (db : Db) :
    readScoreSummarySchemaIsCurrent.answer (fun _ => false) db =
      .ok (scoreSummarySchemaIsCurrent db) := by
  have hcheck : readScoreSummarySchemaIsCurrent.Answers db (scoreSummarySchemaIsCurrent db) := by
    refine answers_bind (a := (columnsOf .scoreSummaries scoreColumns).all db.columnExists)
      (answers_query (if_pos rfl)) ?_
    rw [scoreSummarySchemaIsCurrent]
    rcases hcolumns : (columnsOf .scoreSummaries scoreColumns).all db.columnExists with _ | _
    · exact answers_pure _ _
    · refine answers_bind (a := db.scoreColumnsNotNull) (answers_query (if_pos rfl)) ?_
      rcases hnotNull : db.scoreColumnsNotNull with _ | _
      · exact answers_pure _ _
      · exact answers_bind (a := legacyScoreSummaryRowsExist db)
          (answers_query (if_pos hcolumns)) (answers_pure _ _)
  exact hcheck.answer_eq

/-- A table of the current shape is left alone. -/
theorem ensureScoreSummarySchema_of_current {db : Db}
    (h : scoreSummarySchemaIsCurrent db = true) (faults : ℕ → Bool) :
    ensureScoreSummarySchema (fun _ => false) faults db = (.ok (), db) := by
  rw [ensureScoreSummarySchema, answer_readScoreSummarySchemaIsCurrent, h]

/-- A damaged score table is found out of date. -/
theorem scoreSummarySchemaIsCurrent_of_repairable {db : Db} (h : Repairable db) :
    scoreSummarySchemaIsCurrent db = false := by
  rw [scoreSummarySchemaIsCurrent]
  rcases h.damaged with ⟨name, hname, hmissing⟩ | ⟨id, row, hget, hlegacy⟩
  · have hall : (columnsOf .scoreSummaries scoreColumns).all db.columnExists = false := by
      rw [List.all_eq_false]
      exact ⟨_, List.mem_map_of_mem hname, by rw [hmissing]; exact Bool.false_ne_true⟩
    rw [hall, Bool.false_and, Bool.false_and]
  · have hexist : legacyScoreSummaryRowsExist db = true :=
      List.any_eq_true.mpr ⟨(id, row), Table.mem_rows_iff.mpr hget, hlegacy⟩
    rw [hexist, Bool.not_true, Bool.and_false]

/-! ### Adding the columns -/

/-- Adds score columns one after the other: whether one was missing, and the database with
them. -/
def columnsAdded : List ColumnName → Db → Bool × Db
  | [], db => (false, db)
  | name :: names, db =>
      let first := columnAdded name db
      let rest := columnsAdded names first.2
      (first.1 || rest.1, rest.2)

/-- What a repair does, in its three steps. -/
theorem repaired_eq (db : Db) : repaired db =
    rebuilt (backfilledIf (columnsAdded scoreColumns db).1 (columnsAdded scoreColumns db).2) := by
  simp only [repaired, scoreColumns, columnsAdded, Bool.or_false, Bool.or_assoc]

/-- The columns after one is added. -/
theorem columnExists_columnAdded (name : ColumnName) (db : Db) (column : Column) :
    (columnAdded name db).2.columnExists column =
      (db.columnExists column || decide (column = (.scoreSummaries, name))) := by
  rw [columnAdded]
  split
  · next hexists =>
      by_cases heq : column = (.scoreSummaries, name)
      · rw [heq, hexists, Bool.true_or]
      · rw [decide_eq_false heq, Bool.or_false]
  · simp [Db.columnExists, addColumn, Bool.or_comm]

/-- The columns there are when all have been added. -/
theorem columnExists_columnsAdded (names : List ColumnName) (db : Db) (column : Column) :
    (columnsAdded names db).2.columnExists column =
      (db.columnExists column || decide (column ∈ columnsOf .scoreSummaries names)) := by
  induction names generalizing db with
  | nil => simp [columnsAdded, columnsOf]
  | cons name names ih =>
      rw [columnsAdded, ih, columnExists_columnAdded, Bool.or_assoc]
      simp [columnsOf]

/-- Adding columns to the scores leaves the other tables alone. -/
theorem scoresApart_columnsAdded (names : List ColumnName) (db : Db) :
    ScoresApart db (columnsAdded names db).2 := by
  induction names generalizing db with
  | nil => exact .refl db
  | cons name names ih => exact (scoresApart_columnAdded name db).trans (ih _)

/-- Nothing is added where all columns exist. -/
theorem columnsAdded_of_exists {names : List ColumnName} {db : Db}
    (h : (columnsOf .scoreSummaries names).all db.columnExists = true) :
    columnsAdded names db = (false, db) := by
  induction names with
  | nil => rfl
  | cons name names ih =>
      obtain ⟨hname, hnames⟩ := Bool.and_eq_true_iff.mp h
      rw [columnsAdded, columnAdded, if_pos hname]
      simp only [ih hnames, Bool.or_self]

/-- Every score row has a `NULL`. -/
def AllLegacy (db : Db) : Prop :=
  Table.AllRows (fun _ row => row.isLegacy = true) db.scoreSummaries

/-- A legacy row stays one when a column is cleared. -/
theorem ScoreRow.isLegacy_clear {row : ScoreRow} (h : row.isLegacy = true) (name : ColumnName) :
    (row.clear name).isLegacy = true := by
  rw [ScoreRow.isLegacy] at h ⊢
  cases name with
  | runId => rfl
  | frameworkId => simp [ScoreRow.clear]
  | passCount => simp [ScoreRow.clear]
  | failCount => simp [ScoreRow.clear]
  | warningCount => simp [ScoreRow.clear]
  | _ => exact h

/-- A row with a cleared column is a legacy row. -/
theorem ScoreRow.isLegacy_clear_self (row : ScoreRow) {name : ColumnName}
    (h : name ∈ scoreColumns) : (row.clear name).isLegacy = true := by
  rw [ScoreRow.isLegacy]
  cases name <;> simp [scoreColumns, ScoreRow.clear] at h ⊢

/-- Legacy rows stay legacy rows when columns are added. -/
theorem AllLegacy.columnsAdded {db : Db} (h : AllLegacy db) (names : List ColumnName) :
    AllLegacy (columnsAdded names db).2 := by
  induction names generalizing db with
  | nil => exact h
  | cons name names ih =>
      refine ih fun id row hget => ?_
      rw [columnAdded] at hget
      split at hget
      · exact h id row hget
      · rw [addColumn, clearColumn, Table.get_update, Option.map_eq_some_iff] at hget
        obtain ⟨row', hget', rfl⟩ := hget
        exact ScoreRow.isLegacy_clear (h id row' hget') name

/-- Where a column is missing, one is added and every row is partial. -/
theorem columnsAdded_of_missing {names : List ColumnName} (hnames : names ⊆ scoreColumns)
    {db : Db} {missing : ColumnName} (hmem : missing ∈ names)
    (hmissing : db.columnExists (.scoreSummaries, missing) = false) :
    (columnsAdded names db).1 = true ∧ AllLegacy (columnsAdded names db).2 := by
  induction names generalizing db with
  | nil => cases hmem
  | cons name names ih =>
      rw [columnsAdded]
      by_cases hname : db.columnExists (.scoreSummaries, name) = true
      · -- the missing column is a later one
        have hlater : missing ∈ names := by
          rcases List.mem_cons.mp hmem with rfl | hlater
          · rw [hname] at hmissing
            cases hmissing
          · exact hlater
        rw [columnAdded, if_pos hname]
        exact ih (fun other hother => hnames (List.mem_cons_of_mem _ hother)) hlater hmissing
      · rw [columnAdded, if_neg hname]
        refine ⟨rfl, AllLegacy.columnsAdded (fun id row hget => ?_) names⟩
        rw [addColumn, clearColumn, Table.get_update, Option.map_eq_some_iff] at hget
        obtain ⟨row', -, rfl⟩ := hget
        exact row'.isLegacy_clear_self (hnames List.mem_cons_self)

/-! ### The rows after the repair -/

/-- The columns the repair needs: those of the score table, and the results'. -/
def repairColumns : List Column :=
  columnsOf .scoreSummaries (.id :: scoreColumns) ++ scoredColumns

/-- The columns a repair needs are there once they are added. -/
theorem columns_columnsAdded {db : Db} (h : Repairable db) :
    repairColumns.all (columnsAdded scoreColumns db).2.columnExists = true := by
  rw [List.all_eq_true]
  intro column hcolumn
  rw [columnExists_columnsAdded]
  rcases List.mem_append.mp hcolumn with hscore | hresult
  · rw [columnsOf, List.map_cons, List.mem_cons] at hscore
    rcases hscore with rfl | hadded
    · rw [h.idColumn, Bool.true_or]
    · rw [columnsOf, decide_eq_true hadded, Bool.or_true]
  · rw [List.all_eq_true.mp h.resultColumns column hresult, Bool.true_or]

/-- The rows are recomputed: a column was added, or a partial row is there. -/
theorem backfilledIf_of_repairable {db : Db} (h : Repairable db) :
    backfilledIf (columnsAdded scoreColumns db).1 (columnsAdded scoreColumns db).2 =
      scoreRowsReplaced (scoreGroups db.controlResults) (columnsAdded scoreColumns db).2 := by
  have hbackfilled : backfilled (columnsAdded scoreColumns db).2 =
      scoreRowsReplaced (scoreGroups db.controlResults) (columnsAdded scoreColumns db).2 := by
    have hresults : (columnsAdded scoreColumns db).2.controlResults = db.controlResults := by
      rw [scoresApart_columnsAdded scoreColumns db]
    have hcolumns := columns_columnsAdded h
    rw [repairColumns, List.all_append, Bool.and_eq_true] at hcolumns
    rw [backfilled, if_pos hcolumns.2, hresults]
  rw [backfilledIf]
  split
  · exact hbackfilled
  · next hnone =>
      rw [if_pos, hbackfilled]
      rcases h.damaged with ⟨name, hname, hmissing⟩ | ⟨id, row, hget, hlegacy⟩
      · exact absurd (columnsAdded_of_missing (List.Subset.refl _) hname hmissing).1 hnone
      · have hall : (columnsOf .scoreSummaries scoreColumns).all db.columnExists = true := by
          by_contra hsome
          rw [Bool.not_eq_true, List.all_eq_false] at hsome
          obtain ⟨column, hcolumn, hmissing⟩ := hsome
          obtain ⟨name, hname, rfl⟩ := List.mem_map.mp hcolumn
          exact hnone (columnsAdded_of_missing (List.Subset.refl _) hname
            (Bool.not_eq_true _ ▸ hmissing)).1
        rw [columnsAdded_of_exists hall]
        exact List.any_eq_true.mpr ⟨(id, row), Table.mem_rows_iff.mpr hget, hlegacy⟩

/-- The rows that are left when the partial ones are deleted are the complete ones of before. -/
theorem get_deleteLegacy {db : Db} {id : Str} {row : ScoreRow} :
    ((columnsAdded scoreColumns db).2.scoreSummaries.deleteWhere fun _ row => row.isLegacy).get id =
        some row ↔
      db.scoreSummaries.get id = some row ∧ CompleteScore db row := by
  rw [Table.get_deleteWhere, Option.filter_eq_some_iff, CompleteScore]
  by_cases hall : (columnsOf .scoreSummaries scoreColumns).all db.columnExists = true
  · rw [columnsAdded_of_exists hall]
    simp [hall]
  · have hlegacy : AllLegacy (columnsAdded scoreColumns db).2 := by
      rw [Bool.not_eq_true, List.all_eq_false] at hall
      obtain ⟨column, hcolumn, hmissing⟩ := hall
      obtain ⟨name, hname, rfl⟩ := List.mem_map.mp hcolumn
      exact (columnsAdded_of_missing (List.Subset.refl _) hname (Bool.not_eq_true _ ▸ hmissing)).2
    constructor
    · rintro ⟨hget, hcomplete⟩
      rw [hlegacy id row hget] at hcomplete
      cases hcomplete
    · rintro ⟨-, hcomplete, -⟩
      exact absurd hcomplete hall

/-- The groups of the results are the scored runs and frameworks, with their counts. -/
theorem mem_scoreGroups_of_scored {db : Db} {group : ScoreGroup} :
    group ∈ scoreGroups db.controlResults ↔
      Scored db group.runId group.frameworkId ∧
        group.row = countedRow db group.runId group.frameworkId := by
  obtain ⟨runId, frameworkId, pass, fail, warning⟩ := group
  rw [mem_scoreGroups, Scored]
  simp only [ScoreGroup.row, countedRow, scoreRow, ScoreRow.mk.injEq, Option.some.injEq, true_and]
  constructor
  · rintro ⟨⟨rowId, row, hget, hrun, hframework, hrunNe, hframeworkNe⟩, hcounts⟩
    exact ⟨⟨hrunNe, hframeworkNe, rowId, row, hget, hrun, hframework⟩, hcounts⟩
  · rintro ⟨⟨hrunNe, hframeworkNe, rowId, row, hget, hrun, hframework⟩, hcounts⟩
    exact ⟨⟨rowId, row, hget, hrun, hframework, hrunNe, hframeworkNe⟩, hcounts⟩

/-- The row of a group stands under its id. -/
theorem lastOf_scoreGroups {db : Db} {runId frameworkId : Str} (h : Scored db runId frameworkId) :
    Table.lastOf ScoreGroup.rowId ScoreGroup.row (scoreGroups db.controlResults)
        (scoreSummaryRowId runId frameworkId) = some (countedRow db runId frameworkId) := by
  have hgroup : (⟨runId, frameworkId, statusCount db.controlResults runId frameworkId .pass,
      statusCount db.controlResults runId frameworkId .fail,
      statusCount db.controlResults runId frameworkId .warning⟩ : ScoreGroup) ∈
        scoreGroups db.controlResults :=
    mem_scoreGroups_of_scored.mpr ⟨h, rfl⟩
  obtain ⟨row, hrow⟩ := Table.exists_lastOf ScoreGroup.rowId ScoreGroup.row hgroup
  obtain ⟨group, hmem, hid, rfl⟩ := Table.mem_of_lastOf hrow
  obtain ⟨hrun, hframework⟩ := scoreSummaryRowId_inj hid
  rw [ScoreGroup.rowId] at hrow
  rw [hrow, (mem_scoreGroups_of_scored.mp hmem).2, hrun, hframework]

/-- **The rows of a repaired table**: those with counts, and the complete ones of before. -/
theorem get_scoreRowsReplaced {db : Db} (h : Repairable db) {id : Str} {row : ScoreRow} :
    (scoreRowsReplaced (scoreGroups db.controlResults)
        (columnsAdded scoreColumns db).2).scoreSummaries.get id = some row ↔
      (∃ runId frameworkId, Scored db runId frameworkId ∧
        id = scoreSummaryRowId runId frameworkId ∧ row = countedRow db runId frameworkId) ∨
      db.scoreSummaries.get id = some row ∧ CompleteScore db row := by
  rw [scoreRowsReplaced, Table.get_replaceAll, Option.or_eq_some_iff, get_deleteLegacy]
  constructor
  · rintro (hlast | ⟨-, hbefore⟩)
    · obtain ⟨group, hmem, rfl, rfl⟩ := Table.mem_of_lastOf hlast
      obtain ⟨hscored, hrow⟩ := mem_scoreGroups_of_scored.mp hmem
      exact .inl ⟨_, _, hscored, rfl, hrow⟩
    · exact .inr hbefore
  · rintro (⟨runId, frameworkId, hscored, rfl, rfl⟩ | hbefore)
    · exact .inl (lastOf_scoreGroups hscored)
    · rcases hlast : Table.lastOf ScoreGroup.rowId ScoreGroup.row (scoreGroups db.controlResults) id
        with _ | counted
      · exact .inr ⟨rfl, hbefore⟩
      · -- a complete row of a counted group already had its counts
        obtain ⟨group, hmem, rfl, rfl⟩ := Table.mem_of_lastOf hlast
        obtain ⟨hscored, hrow⟩ := mem_scoreGroups_of_scored.mp hmem
        obtain ⟨runId, frameworkId, -, -, hid, hcounts⟩ := h.rows _ row hbefore.1 hbefore.2
        obtain ⟨rfl, rfl⟩ := scoreSummaryRowId_inj hid
        exact .inl (congrArg some (hrow.trans (hcounts hscored).symm))

/-! ### No statement of the repair fails -/

/-- The columns the repair needs are there. -/
def HasRepairColumns (db : Db) : Prop :=
  repairColumns.all db.columnExists = true

theorem HasRepairColumns.all {db : Db} (h : HasRepairColumns db) {needs : List Column}
    (hneeds : needs ⊆ repairColumns) : needs.all db.columnExists = true :=
  List.all_eq_true.mpr fun column hcolumn => List.all_eq_true.mp h column (hneeds hcolumn)

/-- A statement of a repair does not fail. -/
theorem safe_repair_sql {needs : List Column} (hneeds : needs ⊆ repairColumns) {effect : Db → Db}
    (heffect : ∀ db, (effect db).schema = db.schema) : (sql needs effect).Safe HasRepairColumns := by
  refine safe_execute fun db hdb => ⟨effect db, if_pos (hdb.all hneeds), ?_⟩
  have hexists : (effect db).columnExists = db.columnExists := by
    funext column
    rw [Db.columnExists, Db.columnExists, heffect]
  rwa [HasRepairColumns, hexists]

/-- A query of a repair does not fail. -/
theorem safe_repair_ask {α : Type} {needs : List Column} (hneeds : needs ⊆ repairColumns)
    (read : Db → α) : (ask needs read).Safe HasRepairColumns :=
  safe_query fun db hdb => ⟨read db, if_pos (hdb.all hneeds)⟩

/-- The back-fill of the scores does not fail. -/
theorem safe_backfillIfRepaired (schemaRepaired : Bool) :
    (backfillIfRepaired schemaRepaired).Safe HasRepairColumns := by
  have hreplace : ∀ groups, (replaceScoreRows groups).Safe HasRepairColumns := fun groups =>
    safe_bind (safe_repair_sql (by decide) fun _ => rfl) fun _ =>
      safe_forM fun _ _ => safe_repair_sql (by decide) fun _ => rfl
  have hbackfill : backfillScoreSummariesFromResults.Safe HasRepairColumns :=
    safe_bind (safe_repair_ask (by decide) _) fun _ =>
      safe_ite (safe_bind (safe_repair_ask (by decide) _) hreplace) (safe_pure ())
  exact safe_ite hbackfill <| safe_bind (safe_repair_ask (by decide) _) fun _ =>
    safe_ite hbackfill (safe_pure ())

/-- A table without partial rows is rebuilt. -/
theorem succeeds_rebuildIfNullable {db : Db} (hcolumns : HasRepairColumns db)
    (hcomplete : legacyScoreSummaryRowsExist db = false) : rebuildIfNullable.Succeeds db := by
  refine succeeds_bind ((safe_repair_ask (by decide) _).succeeds db hcolumns) fun notNull db' h => ?_
  obtain ⟨rfl, rfl⟩ := runs_ask h
  split
  · exact succeeds_pure () db'
  · exact succeeds_execute (if_pos ⟨hcolumns.all (by decide), hcomplete⟩)

/-- One column is added, and the rest goes on from there. -/
theorem succeeds_addScoreColumn {name : ColumnName} {db : Db} {k : Bool → DbTx Unit}
    (hid : db.columnExists (.scoreSummaries, .id) = true)
    (hk : (k (columnAdded name db).1).Succeeds (columnAdded name db).2) :
    (addScoreColumnIfMissing name >>= k).Succeeds db := by
  have hadd : (addScoreColumnIfMissing name).Succeeds db := by
    refine succeeds_bind (succeeds_query (if_pos rfl)) fun present db' h => ?_
    obtain ⟨rfl, rfl⟩ := runs_ask h
    split
    · exact succeeds_pure false db'
    · next hmissing =>
        have htable : db'.tableExists .scoreSummaries = true :=
          decide_eq_true ⟨_, of_decide_eq_true hid, rfl⟩
        exact succeeds_bind
          (succeeds_execute (if_pos ⟨htable, Bool.eq_false_iff.mpr hmissing⟩))
          fun _ db'' _ => succeeds_pure true db''
  refine succeeds_bind hadd fun added db' h => ?_
  obtain ⟨rfl, rfl⟩ := Prod.mk.inj (yields_addScoreColumnIfMissing name db added db' h)
  exact hk

/-- No legacy row is left once the rows are replaced. -/
theorem legacy_scoreRowsReplaced {db : Db} (h : Repairable db) :
    legacyScoreSummaryRowsExist (scoreRowsReplaced (scoreGroups db.controlResults)
      (columnsAdded scoreColumns db).2) = false := by
  rw [legacyScoreSummaryRowsExist, List.any_eq_false]
  rintro ⟨id, row⟩ hmem
  rcases (get_scoreRowsReplaced h).mp (Table.mem_rows_iff.mp hmem) with
    ⟨runId, frameworkId, -, -, rfl⟩ | ⟨-, -, hcomplete⟩
  · exact Bool.false_ne_true
  · rw [hcomplete]
    exact Bool.false_ne_true

/-- **A repair succeeds** on every damaged score table. -/
theorem succeeds_addMissingScoreSummaryColumns {db : Db} (h : Repairable db) :
    addMissingScoreSummaryColumns.Succeeds db := by
  have hcolumns : HasRepairColumns (columnsAdded scoreColumns db).2 := columns_columnsAdded h
  have hfinish : ∀ added, added = (columnsAdded scoreColumns db).1 →
      (backfillIfRepaired added >>= fun _ => rebuildIfNullable).Succeeds
        (columnsAdded scoreColumns db).2 := by
    rintro added rfl
    refine succeeds_bind ((safe_backfillIfRepaired _).succeeds _ hcolumns) fun a db' hruns => ?_
    have hkept := (safe_backfillIfRepaired _).keeps _ a db' hruns hcolumns
    obtain rfl := (Prod.mk.inj (hasEffect_backfillIfRepaired _ _ a db' hruns)).2
    refine succeeds_rebuildIfNullable hkept ?_
    rw [backfilledIf_of_repairable h]
    exact legacy_scoreRowsReplaced h
  have hid : ∀ name db', db'.columnExists (.scoreSummaries, .id) = true →
      (columnAdded name db').2.columnExists (.scoreSummaries, .id) = true := by
    intro name db' hdb'
    rw [columnExists_columnAdded, hdb', Bool.true_or]
  have hrest := hfinish _ rfl
  simp only [scoreColumns, columnsAdded, Bool.or_false, ← Bool.or_assoc] at hrest
  have hrunId := hid .runId _ h.idColumn
  have hframeworkId := hid .frameworkId _ hrunId
  have hpass := hid .passCount _ hframeworkId
  have hfail := hid .failCount _ hpass
  exact succeeds_addScoreColumn h.idColumn <| succeeds_addScoreColumn hrunId <|
    succeeds_addScoreColumn hframeworkId <| succeeds_addScoreColumn hpass <|
      succeeds_addScoreColumn hfail hrest

/-! ### The normal form -/

/-- A rebuilt table has the same rows. -/
theorem scoreSummaries_rebuilt (db : Db) : (rebuilt db).scoreSummaries = db.scoreSummaries := by
  rw [rebuilt]
  split <;> rfl

/-- A rebuilt table has the same columns. -/
theorem schema_rebuilt (db : Db) : (rebuilt db).schema = db.schema := by
  rw [rebuilt]
  split <;> rfl

/-- A rebuilt table allows no `NULL`. -/
theorem scoreColumnsNotNull_rebuilt (db : Db) : (rebuilt db).scoreColumnsNotNull = true := by
  rw [rebuilt]
  split
  · next hnotNull => exact hnotNull
  · rfl

/-- A repair leaves a repaired score table. -/
theorem repaired_of_repairable {db : Db} (h : Repairable db) : Repaired db (repaired db) := by
  have hrepaired : repaired db = rebuilt (scoreRowsReplaced (scoreGroups db.controlResults)
      (columnsAdded scoreColumns db).2) := by
    rw [repaired_eq, backfilledIf_of_repairable h]
  have hrows : ∀ id row, (repaired db).scoreSummaries.get id = some row ↔
      (∃ runId frameworkId, Scored db runId frameworkId ∧
        id = scoreSummaryRowId runId frameworkId ∧ row = countedRow db runId frameworkId) ∨
      db.scoreSummaries.get id = some row ∧ CompleteScore db row := by
    intro id row
    rw [hrepaired, ← get_scoreRowsReplaced h, scoreSummaries_rebuilt]
  have hexists : ∀ column, (repaired db).columnExists column =
      (columnsAdded scoreColumns db).2.columnExists column := by
    intro column
    rw [hrepaired, Db.columnExists, Db.columnExists, schema_rebuilt, scoreRowsReplaced]
  refine ⟨fun name hname => ?_, ?_, fun runId frameworkId hscored id row => ?_, fun id row hget hrow =>
    (hrows id row).mpr (.inr ⟨hget, hrow⟩), fun id row => (hrows id row).mp, scoresApart_repaired db⟩
  · rw [hexists]
    exact List.all_eq_true.mp (columns_columnsAdded h) _
      (List.mem_append_left _ (List.mem_map_of_mem (List.mem_cons_of_mem _ hname)))
  · rw [hrepaired, scoreColumnsNotNull_rebuilt]
  · constructor
    · rintro ⟨hget, hrun, hframework⟩
      rcases (hrows id row).mp hget with ⟨runId', frameworkId', -, rfl, rfl⟩ | ⟨hget', hrow⟩
      · obtain rfl := Option.some.inj hrun
        obtain rfl := Option.some.inj hframework
        exact ⟨rfl, rfl⟩
      · obtain ⟨runId', frameworkId', hrun', hframework', rfl, hcounts⟩ := h.rows id row hget' hrow
        obtain rfl := Option.some.inj (hrun'.symm.trans hrun)
        obtain rfl := Option.some.inj (hframework'.symm.trans hframework)
        exact ⟨rfl, hcounts hscored⟩
    · rintro ⟨rfl, rfl⟩
      exact ⟨(hrows _ _).mpr (.inl ⟨runId, frameworkId, hscored, rfl, rfl⟩), rfl, rfl⟩

/-- A repaired table has its current shape. -/
theorem Repaired.current {db db' : Db} (h : Repaired db db') :
    scoreSummarySchemaIsCurrent db' = true := by
  have hcolumns : (columnsOf .scoreSummaries scoreColumns).all db'.columnExists = true := by
    rw [List.all_eq_true]
    intro column hcolumn
    obtain ⟨name, hname, rfl⟩ := List.mem_map.mp hcolumn
    exact h.columns name hname
  have hcomplete : legacyScoreSummaryRowsExist db' = false := by
    rw [legacyScoreSummaryRowsExist, List.any_eq_false]
    rintro ⟨id, row⟩ hmem
    rcases h.noOther id row (Table.mem_rows_iff.mp hmem) with ⟨_, _, -, -, rfl⟩ | ⟨-, -, hrow⟩
    · exact Bool.false_ne_true
    · rw [hrow]
      exact Bool.false_ne_true
  rw [scoreSummarySchemaIsCurrent, hcolumns, h.notNull, hcomplete]
  rfl

/-- **The repair is complete and idempotent**: from every database whose score table is to be
repaired it succeeds and leaves the normal form, and repeating it changes nothing. -/
theorem ensureScoreSummarySchema_repairs (db : Db) (h : Repairable db) :
    ∃ db', ensureScoreSummarySchema (fun _ => false) (fun _ => false) db = (.ok (), db') ∧
      Repaired db db' ∧
      ensureScoreSummarySchema (fun _ => false) (fun _ => false) db' = (.ok (), db') := by
  have hsucceeds : ∃ a db', transaction LocalDatabaseError.sqlite addMissingScoreSummaryColumns
      (fun _ => false) db = (.ok a, db') :=
    transaction_succeeds (succeeds_addMissingScoreSummaryColumns h)
  obtain ⟨⟨⟩, db', hcommit⟩ := hsucceeds
  obtain rfl :=
    (Prod.mk.inj (hasEffect_addMissingScoreSummaryColumns _ _ _ (transaction_ok hcommit))).2
  refine ⟨repaired db, ?_, repaired_of_repairable h,
    ensureScoreSummarySchema_of_current (repaired_of_repairable h).current _⟩
  rw [ensureScoreSummarySchema, answer_readScoreSummarySchemaIsCurrent,
    scoreSummarySchemaIsCurrent_of_repairable h]
  exact hcommit

/-- A database with a partial score row, with the scores of a run without results, and with
results of another run. -/
def damagedScoresDb : Db :=
  { emptyDb with
    schema := repairColumns.toFinset
    controlResults := Table.empty.insertOrIgnore "1".toList
      ⟨"run".toList, "c".toList, "r".toList, Status.fail.label, [], "gdpr".toList, [], 0, none, [],
        []⟩
    scoreSummaries := (Table.empty.insertOrIgnore "partial".toList
      ⟨some "run".toList, some "gdpr".toList, some 1, none, none⟩).insertOrIgnore
        (scoreSummaryRowId "old".toList "gdpr".toList) (scoreRow "old".toList "gdpr".toList 3 2 1) }

theorem repairable_damagedScoresDb : Repairable damagedScoresDb where
  idColumn := by decide +kernel
  resultColumns := by decide +kernel
  damaged := .inr ⟨"partial".toList, ⟨some "run".toList, some "gdpr".toList, some 1, none, none⟩,
    by decide +kernel, rfl⟩
  rows := by
    intro id row hget hrow
    have hrows : damagedScoresDb.scoreSummaries.rows = [
        ("partial".toList, ⟨some "run".toList, some "gdpr".toList, some 1, none, none⟩),
        (scoreSummaryRowId "old".toList "gdpr".toList, scoreRow "old".toList "gdpr".toList 3 2 1)] := by
      decide +kernel
    have hmem := Table.mem_rows_iff.mpr hget
    rw [hrows, List.mem_pair] at hmem
    rcases hmem with heq | heq
    · obtain ⟨rfl, rfl⟩ := Prod.mk.inj heq
      exact absurd hrow.2 (by decide)
    · obtain ⟨rfl, rfl⟩ := Prod.mk.inj heq
      refine ⟨_, _, rfl, rfl, rfl, ?_⟩
      -- no result is of that run
      rintro ⟨-, -, rowId, result, hresult, hrun, -⟩
      have hresults := Table.mem_rows_iff.mpr hresult
      have hone : damagedScoresDb.controlResults.rows.map (·.2.runId) = ["run".toList] := by
        decide +kernel
      have hrunMem := List.mem_map_of_mem (f := (·.2.runId)) hresults
      rw [hone, List.mem_singleton, hrun] at hrunMem
      exact absurd hrunMem (by decide)

/-- The repair of that database. -/
theorem ensureScoreSummarySchema_repairs_damaged :
    ∃ db', ensureScoreSummarySchema (fun _ => false) (fun _ => false) damagedScoresDb =
        (.ok (), db') ∧ Repaired damagedScoresDb db' ∧
      ensureScoreSummarySchema (fun _ => false) (fun _ => false) db' = (.ok (), db') :=
  ensureScoreSummarySchema_repairs damagedScoresDb repairable_damagedScoresDb

end SovriAgent
