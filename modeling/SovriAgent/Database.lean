import SovriAgent.Corpus
import SovriAgent.Keyed
import SovriAgent.RowId
import SovriAgent.Transaction

/-!
# The Local Database

The store a completed scan is written to: its schema, its tables, the ledger of applied
migrations, and the version pragma.

A schema is the set of columns that exist; a table exists when one of its columns does.
Every row carries all columns of the current schema. A column that does not exist yet
has, in every row, the value it gets when it is added; statements that name it fail, so
nothing reads it before. Columns that a legacy or repaired schema leaves nullable are
optional. The `exports` table and the time a migration was applied at are left out: no
modelled function reads them.
-/

namespace SovriAgent

open Keyed Transaction

/-! ### Schema -/

/-- The tables of the application. -/
inductive TableName where
  | scanRuns
  | frameworks
  | controls
  | controlResults
  | complianceGaps
  | evidenceMetadata
  | runEvidenceLinks
  | runFrameworkLinks
  | runControlLinks
  | scoreSummaries
  deriving DecidableEq, Repr

/-- The columns of the application's tables. -/
inductive ColumnName where
  | id
  | runId
  | executedAt
  | version
  | controlId
  | ruleId
  | status
  | evidenceId
  | frameworkId
  | severity
  | weight
  | reason
  | executionMetadata
  | digest
  | locator
  | classification
  | kind
  | sourceUrl
  | title
  | reference
  | passCount
  | failCount
  | warningCount
  deriving DecidableEq, Repr

/-- A column of a table. -/
abbrev Column := TableName × ColumnName

/-- The name of a table in the schema. -/
def TableName.label : TableName → Str
  | .scanRuns => "scan_runs".toList
  | .frameworks => "frameworks".toList
  | .controls => "controls".toList
  | .controlResults => "control_results".toList
  | .complianceGaps => "compliance_gaps".toList
  | .evidenceMetadata => "evidence_metadata".toList
  | .runEvidenceLinks => "run_evidence_links".toList
  | .runFrameworkLinks => "run_framework_links".toList
  | .runControlLinks => "run_control_links".toList
  | .scoreSummaries => "score_summaries".toList

/-- The name of a column in the schema. -/
def ColumnName.label : ColumnName → Str
  | .id => "id".toList
  | .runId => "run_id".toList
  | .executedAt => "executed_at".toList
  | .version => "version".toList
  | .controlId => "control_id".toList
  | .ruleId => "rule_id".toList
  | .status => "status".toList
  | .evidenceId => "evidence_id".toList
  | .frameworkId => "framework_id".toList
  | .severity => "severity".toList
  | .weight => "weight".toList
  | .reason => "reason".toList
  | .executionMetadata => "execution_metadata".toList
  | .digest => "digest".toList
  | .locator => "locator".toList
  | .classification => "classification".toList
  | .kind => "kind".toList
  | .sourceUrl => "source_url".toList
  | .title => "title".toList
  | .reference => "reference".toList
  | .passCount => "pass_count".toList
  | .failCount => "fail_count".toList
  | .warningCount => "warning_count".toList

/-! ### Rows -/

/-- A row of `scan_runs`, by run id. -/
structure ScanRunRow where
  executedAt : Str
  deriving DecidableEq

/-- A row of `frameworks`, by framework id. -/
structure FrameworkRow where
  version : Str
  deriving DecidableEq

/-- A row of `control_results`, by its derived id. -/
structure ControlResultRow where
  runId : Str
  controlId : Str
  ruleId : Str
  status : Str
  evidenceId : Str
  frameworkId : Str
  severity : Str
  weight : UInt32
  reason : Option Str
  executedAt : Str
  executionMetadata : Str
  deriving DecidableEq

/-- A row of `compliance_gaps`, by its derived id. The columns are nullable where a
migration added them. -/
structure GapRow where
  runId : Option Str
  status : Option Str
  severity : Option Str
  controlId : Option Str
  ruleId : Option Str
  deriving DecidableEq

/-- A row of `evidence_metadata`, by evidence id; `runId` is the legacy owner. -/
structure EvidenceRow where
  runId : Str
  digest : Str
  locator : Str
  classification : Str
  deriving DecidableEq

/-- A row of `run_evidence_links`, by run and evidence id. -/
structure EvidenceLinkRow where
  kind : Str
  digest : Str
  locator : Str
  classification : Str
  deriving DecidableEq

/-- A row of `run_framework_links`, by run and framework id. -/
structure FrameworkLinkRow where
  version : Str
  sourceUrl : Str
  deriving DecidableEq

/-- A row of `run_control_links`, by run, framework and control id. -/
structure ControlLinkRow where
  title : Str
  severity : Str
  weight : UInt32
  reference : Str
  deriving DecidableEq

/-- A row of `score_summaries`, by its derived id. -/
structure ScoreRow where
  runId : Option Str
  frameworkId : Option Str
  passCount : Option ℕ
  failCount : Option ℕ
  warningCount : Option ℕ
  deriving DecidableEq

/-! ### The database -/

/-- A local database. -/
structure Db where
  schema : Finset Column
  /-- Whether the data columns of `score_summaries` are declared `NOT NULL`. -/
  scoreColumnsNotNull : Bool
  scanRuns : Table Str ScanRunRow
  frameworks : Table Str FrameworkRow
  controls : Table Str Unit
  controlResults : Table Str ControlResultRow
  complianceGaps : Table Str GapRow
  evidenceMetadata : Table Str EvidenceRow
  runEvidenceLinks : Table (Str × Str) EvidenceLinkRow
  runFrameworkLinks : Table (Str × Str) FrameworkLinkRow
  runControlLinks : Table (Str × Str × Str) ControlLinkRow
  scoreSummaries : Table Str ScoreRow
  /-- The names of the applied migrations by version; `none` when there is no ledger. -/
  ledger : Option (Table ℕ Str)
  /-- The `user_version` pragma. -/
  userVersion : ℕ

/-- Why a database operation fails. -/
inductive LocalDatabaseError where
  | sqlite
  | schema (message : Str)
  | migration (name : Str)
  | destructiveMigration (name operation : Str)
  | integrityMismatch (evidenceId expected actual : Str)
  | missingEvidence (evidenceId expected : Str)
  | missingRun (runId : Str)
  | exportFailed (message : Str)
  | unsupportedExportFormat (format : Str)
  deriving DecidableEq

/-- A computation inside a transaction on the local database. -/
abbrev DbTx := Tx LocalDatabaseError Db

/-- Whether a column exists (`schema_column_exists`). -/
def Db.columnExists (db : Db) (column : Column) : Bool :=
  decide (column ∈ db.schema)

/-- Whether a table exists. -/
def Db.tableExists (db : Db) (table : TableName) : Bool :=
  decide (∃ column ∈ db.schema, column.1 = table)

/-- The columns a statement names, all of one table. -/
def columnsOf (table : TableName) (names : List ColumnName) : List Column :=
  names.map (table, ·)

/-- An SQL statement: it fails when a column it names does not exist. -/
def sql (needs : List Column) (effect : Db → Db) : DbTx Unit :=
  Tx.execute .sqlite fun db =>
    if needs.all db.columnExists then .ok (effect db) else .error .sqlite

/-- A query of the schema or of the rows of existing tables. -/
def ask {α : Type} (needs : List Column) (read : Db → α) : DbTx α :=
  Tx.query .sqlite fun db =>
    if needs.all db.columnExists then .ok (read db) else .error .sqlite

theorem hasEffect_sql (needs : List Column) (effect : Db → Db) :
    (sql needs effect).HasEffect effect := by
  refine Tx.hasEffect_execute fun db db' h => ?_
  split at h
  · exact (Except.ok.inj h).symm
  · cases h

theorem yields_ask {α : Type} (needs : List Column) (read : Db → α) :
    (ask needs read).Yields fun db => (read db, db) := by
  refine Tx.yields_query fun db a h => ?_
  split at h
  · exact (Except.ok.inj h).symm
  · cases h

theorem moves_sql {R : Db → Db → Prop} {needs : List Column} {effect : Db → Db}
    (h : ∀ db, R db (effect db)) : (sql needs effect).Moves R :=
  (hasEffect_sql needs effect).moves h

theorem moves_ask {R : Db → Db → Prop} (hrefl : ∀ db, R db db) {α : Type} (needs : List Column)
    (read : Db → α) : (ask needs read).Moves R :=
  Tx.moves_query hrefl _ _

/-- What a query that runs answers. -/
theorem runs_ask {α : Type} {needs : List Column} {read : Db → α} {db db' : Db} {a : α}
    (h : (ask needs read).Runs db a db') : a = read db ∧ db' = db :=
  Prod.mk.inj (yields_ask needs read db a db' h)

/-- What a statement that runs leaves. -/
theorem runs_sql {needs : List Column} {effect : Db → Db} {db db' : Db} {a : Unit}
    (h : (sql needs effect).Runs db a db') : db' = effect db :=
  (Prod.mk.inj (hasEffect_sql needs effect db a db' h)).2

/-- A step that depends on what a query answers. -/
theorem hasEffect_ask {α : Type} (needs : List Column) (read : Db → α) {k : α → DbTx Unit}
    {effect : α → Db → Db} (h : ∀ a, (k a).HasEffect (effect a)) :
    (ask needs read >>= k).HasEffect fun db => effect (read db) db :=
  Tx.yields_bind (yields_ask needs read) h

/-! ### Changes of the schema -/

/-- A result row with one column at its default. -/
def ControlResultRow.clear (row : ControlResultRow) : ColumnName → ControlResultRow
  | .runId => { row with runId := [] }
  | .controlId => { row with controlId := [] }
  | .ruleId => { row with ruleId := [] }
  | .status => { row with status := [] }
  | .evidenceId => { row with evidenceId := [] }
  | .frameworkId => { row with frameworkId := [] }
  | .severity => { row with severity := [] }
  | .weight => { row with weight := 0 }
  | .reason => { row with reason := none }
  | .executedAt => { row with executedAt := [] }
  | .executionMetadata => { row with executionMetadata := [] }
  | _ => row

/-- A gap row with one column at its default. -/
def GapRow.clear (row : GapRow) : ColumnName → GapRow
  | .runId => { row with runId := none }
  | .status => { row with status := none }
  | .severity => { row with severity := none }
  | .controlId => { row with controlId := none }
  | .ruleId => { row with ruleId := none }
  | _ => row

/-- An evidence row with one column at its default. -/
def EvidenceRow.clear (row : EvidenceRow) : ColumnName → EvidenceRow
  | .locator => { row with locator := [] }
  | .classification => { row with classification := Classification.unclassified.asStr }
  | _ => row

/-- An evidence link with one column at its default. -/
def EvidenceLinkRow.clear (row : EvidenceLinkRow) : ColumnName → EvidenceLinkRow
  | .kind => { row with kind := [] }
  | .digest => { row with digest := [] }
  | .locator => { row with locator := [] }
  | .classification => { row with classification := Classification.unclassified.asStr }
  | _ => row

/-- A framework link with one column at its default. -/
def FrameworkLinkRow.clear (row : FrameworkLinkRow) : ColumnName → FrameworkLinkRow
  | .version => { row with version := [] }
  | .sourceUrl => { row with sourceUrl := [] }
  | _ => row

/-- A control link with one column at its default. -/
def ControlLinkRow.clear (row : ControlLinkRow) : ColumnName → ControlLinkRow
  | .title => { row with title := [] }
  | .severity => { row with severity := [] }
  | .weight => { row with weight := 0 }
  | .reference => { row with reference := [] }
  | _ => row

/-- A run row with one column at its default. -/
def ScanRunRow.clear (row : ScanRunRow) : ColumnName → ScanRunRow
  | .executedAt => { row with executedAt := [] }
  | _ => row

/-- A score row with one column at its default. -/
def ScoreRow.clear (row : ScoreRow) : ColumnName → ScoreRow
  | .runId => { row with runId := none }
  | .frameworkId => { row with frameworkId := none }
  | .passCount => { row with passCount := none }
  | .failCount => { row with failCount := none }
  | .warningCount => { row with warningCount := none }
  | _ => row

/-- The rows of a table with one column at its default. The columns added to the score
table are nullable. -/
def clearColumn (column : Column) (db : Db) : Db :=
  match column.1 with
  | .scanRuns => { db with scanRuns := db.scanRuns.update fun _ row => row.clear column.2 }
  | .frameworks => db
  | .controls => db
  | .controlResults =>
      { db with controlResults := db.controlResults.update fun _ row => row.clear column.2 }
  | .complianceGaps =>
      { db with complianceGaps := db.complianceGaps.update fun _ row => row.clear column.2 }
  | .evidenceMetadata =>
      { db with evidenceMetadata := db.evidenceMetadata.update fun _ row => row.clear column.2 }
  | .runEvidenceLinks =>
      { db with runEvidenceLinks := db.runEvidenceLinks.update fun _ row => row.clear column.2 }
  | .runFrameworkLinks =>
      { db with runFrameworkLinks := db.runFrameworkLinks.update fun _ row => row.clear column.2 }
  | .runControlLinks =>
      { db with runControlLinks := db.runControlLinks.update fun _ row => row.clear column.2 }
  | .scoreSummaries =>
      { db with
        scoreColumnsNotNull := false
        scoreSummaries := db.scoreSummaries.update fun _ row => row.clear column.2 }

/-- The database with one more column, at its default in every row. -/
def addColumn (column : Column) (db : Db) : Db :=
  { clearColumn column db with schema := insert column db.schema }

/-- Adds a column (`ALTER TABLE ... ADD COLUMN`): the table exists, the column does not. -/
def alterAddColumn (column : Column) : DbTx Unit :=
  Tx.execute .sqlite fun db =>
    if db.tableExists column.1 ∧ db.columnExists column = false then .ok (addColumn column db)
    else .error .sqlite

/-- A column is only added when it does not exist. -/
theorem moves_alterAddColumn {R : Db → Db → Prop} {column : Column}
    (h : ∀ db, db.columnExists column = false → R db (addColumn column db)) :
    (alterAddColumn column).Moves R := by
  refine Tx.moves_execute fun db db' hdb => ?_
  split at hdb
  · next hmissing =>
      obtain rfl := Except.ok.inj hdb
      exact h db hmissing.2
  · cases hdb

theorem hasEffect_alterAddColumn (column : Column) :
    (alterAddColumn column).HasEffect (addColumn column) := by
  refine Tx.hasEffect_execute fun db db' h => ?_
  split at h
  · exact (Except.ok.inj h).symm
  · cases h

/-- The database with a table that has no rows. The score table is created with `NOT NULL`
columns. -/
def clearTable (table : TableName) (db : Db) : Db :=
  match table with
  | .scanRuns => { db with scanRuns := .empty }
  | .frameworks => { db with frameworks := .empty }
  | .controls => { db with controls := .empty }
  | .controlResults => { db with controlResults := .empty }
  | .complianceGaps => { db with complianceGaps := .empty }
  | .evidenceMetadata => { db with evidenceMetadata := .empty }
  | .runEvidenceLinks => { db with runEvidenceLinks := .empty }
  | .runFrameworkLinks => { db with runFrameworkLinks := .empty }
  | .runControlLinks => { db with runControlLinks := .empty }
  | .scoreSummaries => { db with scoreColumnsNotNull := true, scoreSummaries := .empty }

/-- The database with a table, created if it does not exist. -/
def tableEnsured (table : TableName) (names : List ColumnName) (db : Db) : Db :=
  if db.tableExists table then db
  else { clearTable table db with schema := db.schema ∪ (columnsOf table names).toFinset }

/-- Creates a table unless it exists (`CREATE TABLE IF NOT EXISTS`). -/
def createTable (table : TableName) (names : List ColumnName) : DbTx Unit :=
  sql [] (tableEnsured table names)

/-! ### Texts -/

/-- The characters with the Unicode white-space property. -/
def isWhitespace (c : Char) : Bool :=
  let n := c.toNat
  (9 ≤ n && n ≤ 13) || n == 0x20 || n == 0x85 || n == 0xa0 || n == 0x1680 ||
    (0x2000 ≤ n && n ≤ 0x200a) || n == 0x2028 || n == 0x2029 || n == 0x202f || n == 0x205f ||
    n == 0x3000

/-- A text without the white space around it (`trim`). -/
def trim (s : Str) : Str :=
  ((s.dropWhile isWhitespace).reverse.dropWhile isWhitespace).reverse

/-- A set of texts in ascending order (`BTreeSet`). -/
def orderedSet (items : List Str) : List Str :=
  sortBy strLe items.dedup

theorem mem_orderedSet {items : List Str} {s : Str} : s ∈ orderedSet items ↔ s ∈ items := by
  rw [orderedSet, sortBy, (List.perm_insertionSort _ _).mem_iff, List.mem_dedup]

/-- Framework ids separated by a comma and a blank; no separator follows an empty text. -/
def joinFrameworkIds (frameworkIds : List Str) : Str :=
  frameworkIds.foldl (fun message frameworkId =>
    (if message = [] then message else message ++ ", ".toList) ++ frameworkId) []

end SovriAgent
