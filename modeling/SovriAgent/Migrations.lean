import SovriAgent.Database
import SovriAgent.SqlGuard

/-!
# The Packaged Migrations

The migrations embedded in the agent: their texts, the columns each schema version
requires, when each is applicable, and what its body does. Migrations 3, 4, 5 and 8 have
no SQL text of their own; their bodies are written in the program. Back-fills recover
what they can from the row ids, the gaps and the stored metadata.

A text that is not packaged comes from the caller; what it does is the `Engine`.

## Main results

* `moves_migrationBody`: a body is a sequence of `BodyStep`s, or a text of the caller.
* `moves_packagedBody`: the body of a packaged migration adds the columns of its version.
-/

namespace SovriAgent

open Keyed Transaction Transaction.Tx

/-! ### The migrations -/

/-- A packaged migration. -/
structure PackagedMigration where
  version : ℕ
  name : Str
  sql : Str
  deriving DecidableEq

/-- A text of lines, with a line break before the first and after the last. -/
def sqlText (lines : List String) : Str :=
  (lines.flatMap fun line => '\n' :: line.toList) ++ ['\n']

/-- The text of the first migration (`INITIAL_SCHEMA_SQL`). -/
def initialSchemaSql : Str :=
  sqlText [
    "    CREATE TABLE IF NOT EXISTS scan_runs (",
    "      id TEXT PRIMARY KEY,",
    "      executed_at TEXT NOT NULL DEFAULT ''",
    "    );",
    "    CREATE TABLE IF NOT EXISTS frameworks (",
    "      id TEXT PRIMARY KEY,",
    "      version TEXT NOT NULL",
    "    );",
    "    CREATE TABLE IF NOT EXISTS controls (id TEXT PRIMARY KEY);",
    "    CREATE TABLE IF NOT EXISTS control_results (",
    "      id TEXT PRIMARY KEY,",
    "      run_id TEXT NOT NULL DEFAULT '',",
    "      control_id TEXT NOT NULL,",
    "      rule_id TEXT NOT NULL,",
    "      status TEXT NOT NULL DEFAULT '',",
    "      evidence_id TEXT NOT NULL,",
    "      framework_id TEXT NOT NULL DEFAULT '',",
    "      severity TEXT NOT NULL DEFAULT '',",
    "      weight INTEGER NOT NULL DEFAULT 0,",
    "      reason TEXT,",
    "      executed_at TEXT NOT NULL DEFAULT '',",
    "      execution_metadata TEXT NOT NULL DEFAULT ''",
    "    );",
    "    CREATE TABLE IF NOT EXISTS compliance_gaps (",
    "      id TEXT PRIMARY KEY,",
    "      run_id TEXT NOT NULL,",
    "      status TEXT NOT NULL,",
    "      severity TEXT NOT NULL,",
    "      control_id TEXT NOT NULL,",
    "      rule_id TEXT NOT NULL",
    "    );",
    "    CREATE TABLE IF NOT EXISTS evidence_metadata (",
    "      id TEXT PRIMARY KEY,",
    "      digest TEXT NOT NULL,",
    "      locator TEXT NOT NULL DEFAULT '',",
    "      classification TEXT NOT NULL DEFAULT 'Unclassified'",
    "    );",
    "    CREATE TABLE IF NOT EXISTS run_evidence_links (",
    "      run_id TEXT NOT NULL,",
    "      evidence_id TEXT NOT NULL,",
    "      kind TEXT NOT NULL DEFAULT '',",
    "      digest TEXT NOT NULL DEFAULT '',",
    "      locator TEXT NOT NULL DEFAULT '',",
    "      classification TEXT NOT NULL DEFAULT 'Unclassified',",
    "      PRIMARY KEY (run_id, evidence_id)",
    "    );",
    "    CREATE TABLE IF NOT EXISTS run_framework_links (",
    "      run_id TEXT NOT NULL,",
    "      framework_id TEXT NOT NULL,",
    "      version TEXT NOT NULL DEFAULT '',",
    "      source_url TEXT NOT NULL DEFAULT '',",
    "      PRIMARY KEY (run_id, framework_id)",
    "    );",
    "    CREATE TABLE IF NOT EXISTS run_control_links (",
    "      run_id TEXT NOT NULL,",
    "      framework_id TEXT NOT NULL,",
    "      control_id TEXT NOT NULL,",
    "      title TEXT NOT NULL DEFAULT '',",
    "      severity TEXT NOT NULL DEFAULT '',",
    "      weight INTEGER NOT NULL DEFAULT 0,",
    "      reference TEXT NOT NULL DEFAULT '',",
    "      PRIMARY KEY (run_id, framework_id, control_id)",
    "    );",
    "    CREATE TABLE IF NOT EXISTS score_summaries (",
    "      id TEXT PRIMARY KEY,",
    "      run_id TEXT NOT NULL,",
    "      framework_id TEXT NOT NULL,",
    "      pass_count INTEGER NOT NULL,",
    "      fail_count INTEGER NOT NULL,",
    "      warning_count INTEGER NOT NULL",
    "    );",
    "    CREATE TABLE IF NOT EXISTS exports (id TEXT PRIMARY KEY);"]

/-- The text of migration 2 (`RUN_EVIDENCE_LINKS_SCHEMA_SQL`). -/
def runEvidenceLinksSchemaSql : Str :=
  sqlText [
    "    CREATE TABLE IF NOT EXISTS run_evidence_links (",
    "      run_id TEXT NOT NULL,",
    "      evidence_id TEXT NOT NULL,",
    "      PRIMARY KEY (run_id, evidence_id)",
    "    );",
    "    INSERT OR IGNORE INTO run_evidence_links(run_id, evidence_id)",
    "    SELECT run_id, id",
    "    FROM evidence_metadata;"]

/-- The text of migration 6 (`RUN_EVIDENCE_INDEX_SCHEMA_SQL`). -/
def runEvidenceIndexSchemaSql : Str :=
  sqlText [
    "    CREATE TABLE IF NOT EXISTS run_evidence_links (",
    "      run_id TEXT NOT NULL,",
    "      evidence_id TEXT NOT NULL,",
    "      PRIMARY KEY (run_id, evidence_id)",
    "    );",
    "    INSERT OR IGNORE INTO run_evidence_links(run_id, evidence_id)",
    "    SELECT DISTINCT run_id, evidence_id",
    "    FROM control_results",
    "    WHERE run_id <> '' AND evidence_id <> '';",
    "    INSERT OR IGNORE INTO run_evidence_links(run_id, evidence_id)",
    "    SELECT scan_runs.id, evidence_metadata.id",
    "    FROM scan_runs",
    "    CROSS JOIN evidence_metadata",
    "    WHERE (SELECT COUNT(*) FROM scan_runs) = 1;"]

/-- The text of migration 7 (`EVIDENCE_CLASSIFICATIONS_SCHEMA_SQL`). -/
def evidenceClassificationsSchemaSql : Str :=
  sqlText [
    "    ALTER TABLE evidence_metadata",
    "    ADD COLUMN classification TEXT NOT NULL DEFAULT 'Unclassified';"]

/-- The migration that creates the initial schema. -/
def initialMigration : PackagedMigration :=
  ⟨1, "0001-initial".toList, initialSchemaSql⟩

/-- The migration that links evidence to runs. -/
def runEvidenceLinksMigration : PackagedMigration :=
  ⟨2, "0002-run-evidence-links".toList, runEvidenceLinksSchemaSql⟩

/-- The migration that adds the filter columns of gaps. -/
def gapQueryFiltersMigration : PackagedMigration :=
  ⟨3, "0003-gap-query-filters".toList, []⟩

/-- The migration that adds evidence locators. -/
def evidenceLocatorsMigration : PackagedMigration :=
  ⟨4, "0004-evidence-locators".toList, []⟩

/-- The migration that adds the filter columns of results. -/
def resultQueryFiltersMigration : PackagedMigration :=
  ⟨5, "0005-result-query-filters".toList, []⟩

/-- The migration that indexes the evidence of runs. -/
def runEvidenceIndexMigration : PackagedMigration :=
  ⟨6, "0006-run-evidence-index".toList, runEvidenceIndexSchemaSql⟩

/-- The migration that adds evidence classifications. -/
def evidenceClassificationsMigration : PackagedMigration :=
  ⟨7, "0007-evidence-classifications".toList, evidenceClassificationsSchemaSql⟩

/-- The migration that stores what an export is reconstructed from. -/
def exportReconstructionMigration : PackagedMigration :=
  ⟨8, "0008-export-reconstruction".toList, []⟩

/-- The migrations embedded in the agent (`PACKAGED_MIGRATIONS`). -/
def packagedMigrations : List PackagedMigration :=
  [initialMigration, runEvidenceLinksMigration, gapQueryFiltersMigration,
    evidenceLocatorsMigration, resultQueryFiltersMigration, runEvidenceIndexMigration,
    evidenceClassificationsMigration, exportReconstructionMigration]

/-! ### Required columns -/

def schemaVersion1RequiredColumns : List Column :=
  [(.frameworks, .version), (.evidenceMetadata, .digest)]

/-- The gap columns queries filter by (`GAP_QUERY_FILTER_COLUMNS`). -/
def gapQueryFilterColumns : List ColumnName :=
  [.runId, .status, .severity, .controlId, .ruleId]

def schemaVersion3RequiredColumns : List Column :=
  [(.frameworks, .version), (.evidenceMetadata, .digest)] ++
    columnsOf .complianceGaps gapQueryFilterColumns

def schemaVersion4RequiredColumns : List Column :=
  [(.frameworks, .version)] ++ columnsOf .controlResults [.controlId, .evidenceId] ++
    columnsOf .evidenceMetadata [.digest, .locator] ++
    columnsOf .complianceGaps gapQueryFilterColumns

/-- The result columns queries filter by (`CONTROL_RESULT_QUERY_FILTER_COLUMNS`). -/
def controlResultQueryFilterColumns : List ColumnName :=
  [.runId, .controlId, .ruleId, .status, .evidenceId]

def schemaVersion5RequiredColumns : List Column :=
  [(.frameworks, .version)] ++ columnsOf .controlResults controlResultQueryFilterColumns ++
    columnsOf .evidenceMetadata [.digest, .locator] ++
    columnsOf .complianceGaps gapQueryFilterColumns

def schemaVersion6RequiredColumns : List Column :=
  schemaVersion5RequiredColumns ++ columnsOf .runEvidenceLinks [.runId, .evidenceId]

def schemaVersion7RequiredColumns : List Column :=
  [(.frameworks, .version)] ++ columnsOf .controlResults controlResultQueryFilterColumns ++
    columnsOf .evidenceMetadata [.digest, .locator, .classification] ++
    columnsOf .complianceGaps gapQueryFilterColumns ++
    columnsOf .runEvidenceLinks [.runId, .evidenceId]

/-- The result columns an export is reconstructed from. -/
def exportResultColumns : List ColumnName :=
  [.frameworkId, .severity, .weight, .reason, .executedAt, .executionMetadata]

/-- The columns of an evidence link beside its key. -/
def evidenceLinkColumns : List ColumnName :=
  [.kind, .digest, .locator, .classification]

/-- The columns of a framework link beside its key. -/
def frameworkLinkColumns : List ColumnName :=
  [.version, .sourceUrl]

/-- The columns of a control link beside its key. -/
def controlLinkColumns : List ColumnName :=
  [.title, .severity, .weight, .reference]

def schemaVersion8RequiredColumns : List Column :=
  [(.scanRuns, .executedAt), (.frameworks, .version)] ++
    columnsOf .controlResults (controlResultQueryFilterColumns ++ exportResultColumns) ++
    columnsOf .evidenceMetadata [.digest, .locator, .classification] ++
    columnsOf .complianceGaps gapQueryFilterColumns ++
    columnsOf .runEvidenceLinks ([.runId, .evidenceId] ++ evidenceLinkColumns) ++
    columnsOf .runFrameworkLinks ([.runId, .frameworkId] ++ frameworkLinkColumns) ++
    columnsOf .runControlLinks ([.runId, .frameworkId, .controlId] ++ controlLinkColumns)

/-- The columns each supported schema version requires (`SUPPORTED_SCHEMA_REQUIREMENTS`). -/
def supportedSchemaRequirements : List (ℕ × List Column) :=
  [(1, schemaVersion1RequiredColumns), (2, schemaVersion1RequiredColumns),
    (3, schemaVersion3RequiredColumns), (4, schemaVersion4RequiredColumns),
    (5, schemaVersion5RequiredColumns), (6, schemaVersion6RequiredColumns),
    (7, schemaVersion7RequiredColumns), (8, schemaVersion8RequiredColumns)]

/-- Whether all of the given columns exist. -/
def schemaHasRequiredColumns (db : Db) (columns : List Column) : Bool :=
  columns.all db.columnExists

/-! ### Applicability -/

/-- Whether the ledger records a version. -/
def migrationIsApplied (db : Db) (version : ℕ) : Bool :=
  db.ledger.any fun ledger => (ledger.get version).isSome

/-- Whether the database is at a recorded version from 1 on and below the given one. -/
def isRecordedBelow (db : Db) (version : ℕ) : Bool :=
  decide (1 ≤ db.userVersion) && decide (db.userVersion < version) &&
    migrationIsApplied db db.userVersion

/-- Whether a migration fits the tables the database has. Migrations that are not packaged
always do. -/
def migrationIsApplicable (db : Db) (migration : PackagedMigration) : Bool :=
  if migration = runEvidenceLinksMigration then db.columnExists (.evidenceMetadata, .runId)
  else if migration = gapQueryFiltersMigration then
    db.columnExists (.complianceGaps, .id) && !db.columnExists (.complianceGaps, .runId)
  else if migration = evidenceLocatorsMigration then
    db.columnExists (.evidenceMetadata, .id) && db.columnExists (.controlResults, .controlId) &&
      db.columnExists (.controlResults, .evidenceId) &&
      !db.columnExists (.evidenceMetadata, .locator)
  else if migration = resultQueryFiltersMigration then
    db.columnExists (.controlResults, .id) &&
      (!db.columnExists (.controlResults, .runId) || !db.columnExists (.controlResults, .status))
  else if migration = runEvidenceIndexMigration then
    let linkColumnsMissing :=
      !db.columnExists (.runEvidenceLinks, .runId) ||
        !db.columnExists (.runEvidenceLinks, .evidenceId)
    let canBackfill :=
      db.columnExists (.scanRuns, .id) && db.columnExists (.evidenceMetadata, .id) &&
        db.columnExists (.controlResults, .runId) && db.columnExists (.controlResults, .evidenceId)
    isRecordedBelow db 6 && canBackfill && (decide (1 < db.userVersion) || linkColumnsMissing)
  else if migration = evidenceClassificationsMigration then
    isRecordedBelow db 7 && schemaHasRequiredColumns db schemaVersion6RequiredColumns &&
      !db.columnExists (.evidenceMetadata, .classification)
  else if migration = exportReconstructionMigration then
    isRecordedBelow db 8 && schemaHasRequiredColumns db schemaVersion7RequiredColumns &&
      !schemaHasRequiredColumns db schemaVersion8RequiredColumns
  else true

/-! ### Bodies in SQL -/

/-- The tables of the initial schema with their columns. -/
def initialTables : List (TableName × List ColumnName) :=
  [(.scanRuns, [.id, .executedAt]),
    (.frameworks, [.id, .version]),
    (.controls, [.id]),
    (.controlResults, [.id, .runId, .controlId, .ruleId, .status, .evidenceId, .frameworkId,
      .severity, .weight, .reason, .executedAt, .executionMetadata]),
    (.complianceGaps, [.id, .runId, .status, .severity, .controlId, .ruleId]),
    (.evidenceMetadata, [.id, .digest, .locator, .classification]),
    (.runEvidenceLinks, [.runId, .evidenceId, .kind, .digest, .locator, .classification]),
    (.runFrameworkLinks, [.runId, .frameworkId, .version, .sourceUrl]),
    (.runControlLinks, [.runId, .frameworkId, .controlId, .title, .severity, .weight, .reference]),
    (.scoreSummaries, [.id, .runId, .frameworkId, .passCount, .failCount, .warningCount])]

/-- Creates the tables of the initial schema that do not exist. -/
def createInitialSchema : DbTx Unit :=
  initialTables.forM fun table => createTable table.1 table.2

/-- An evidence link with every column but its key at the default. -/
def defaultEvidenceLink : EvidenceLinkRow :=
  ⟨[], [], [], Classification.unclassified.asStr⟩

/-- Creates the link table of migrations 2 and 6. -/
def createEvidenceLinks : DbTx Unit :=
  createTable .runEvidenceLinks [.runId, .evidenceId]

/-- Adds an evidence link for each of the given keys that has none. -/
def insertEvidenceLinks (needs : List Column) (keys : Db → List (Str × Str)) : DbTx Unit :=
  sql (needs ++ columnsOf .runEvidenceLinks [.runId, .evidenceId]) fun db =>
    { db with
      runEvidenceLinks :=
        Table.insertAll id (fun _ => defaultEvidenceLink) db.runEvidenceLinks (keys db) }

/-- Migration 2: each evidence record is linked to the run that owns it. -/
def linkOwnedEvidence : DbTx Unit := do
  createEvidenceLinks
  insertEvidenceLinks (columnsOf .evidenceMetadata [.id, .runId]) fun db =>
    db.evidenceMetadata.rows.map fun r => (r.2.runId, r.1)

/-- Migration 6: each result's evidence is linked to its run, and all evidence to the only
run if there is just one. -/
def indexRunEvidence : DbTx Unit := do
  createEvidenceLinks
  insertEvidenceLinks (columnsOf .controlResults [.runId, .evidenceId]) fun db =>
    (db.controlResults.rows.filter fun r => r.2.runId ≠ [] ∧ r.2.evidenceId ≠ []).map fun r =>
      (r.2.runId, r.2.evidenceId)
  insertEvidenceLinks (columnsOf .scanRuns [.id] ++ columnsOf .evidenceMetadata [.id]) fun db =>
    if db.scanRuns.rows.length = 1 then
      db.scanRuns.rows.flatMap fun run => db.evidenceMetadata.rows.map fun r => (run.1, r.1)
    else []

/-- What the texts that are not packaged do to a database, unless they fail. -/
abbrev Engine := Str → Db → Except LocalDatabaseError Db

/-- Runs the statements of a text (`execute_batch`). -/
def executeBatch (engine : Engine) (text : Str) : DbTx Unit :=
  if text = [] then pure ()
  else if text = initialSchemaSql then createInitialSchema
  else if text = runEvidenceLinksSchemaSql then linkOwnedEvidence
  else if text = runEvidenceIndexSchemaSql then indexRunEvidence
  else if text = evidenceClassificationsSchemaSql then
    alterAddColumn (.evidenceMetadata, .classification)
  else Tx.execute .sqlite (engine text)

/-! ### Bodies in the program -/

/-- Adds a column unless it exists. -/
def addColumnIfMissing (column : Column) : DbTx Unit := do
  let present ← ask [] fun db => db.columnExists column
  if present then pure () else alterAddColumn column

/-- Adds the columns of a table that do not exist. -/
def addColumnsIfMissing (table : TableName) (names : List ColumnName) : DbTx Unit :=
  (columnsOf table names).forM addColumnIfMissing

def applyGapQueryFiltersMigration : DbTx Unit :=
  addColumnsIfMissing .complianceGaps gapQueryFilterColumns

def applyEvidenceLocatorsMigration : DbTx Unit :=
  addColumnIfMissing (.evidenceMetadata, .locator)

/-- The first of the rows of a table that satisfy a condition, in the order of a key. -/
def firstBy {κ ν : Type} (key : κ × ν → Str) (p : κ × ν → Bool) (table : Table κ ν) :
    Option (κ × ν) :=
  (sortBy (fun a b => strLe (key a) (key b)) (table.rows.filter p)).head?

/-- The first gap of the run, control and rule of a result, by id. -/
def gapOfResult (gaps : Table Str GapRow) (row : ControlResultRow) : Option GapRow :=
  (firstBy Prod.fst (fun gap => gap.2.runId = some row.runId ∧
    gap.2.controlId = some row.controlId ∧ gap.2.ruleId = some row.ruleId) gaps).map Prod.snd

/-- A text, or another one when it is empty (`COALESCE(NULLIF(text, ''), other)`). -/
def orElseText (text other : Str) : Str :=
  if text = [] then other else text

/-- A result row with the run its id encodes, and with the control and rule its id encodes
where these are empty. -/
def withIdentity (identity : RowIdentity) (row : ControlResultRow) : ControlResultRow :=
  { row with
    runId := identity.runId
    controlId := orElseText row.controlId identity.controlId
    ruleId := orElseText row.ruleId identity.ruleId }

/-- Fills the identity of a result from its id. -/
def backfillIdentity (rowId : Str) : DbTx Unit :=
  match controlResultIdentity rowId with
  | none => pure ()
  | some identity =>
      sql (columnsOf .controlResults [.id, .runId, .controlId, .ruleId]) fun db =>
        { db with controlResults := db.controlResults.updateAt rowId (withIdentity identity) }

/-- Fills the identities of the results from their ids. -/
def backfillControlResultIdentityFields : DbTx Unit := do
  let rowIds ← ask (columnsOf .controlResults [.id]) fun db =>
    db.controlResults.rows.map Prod.fst
  rowIds.forM backfillIdentity

/-- A result row with the status of its gap, if it has no status. -/
def withGapStatus (gaps : Table Str GapRow) (row : ControlResultRow) : ControlResultRow :=
  if row.status = [] then
    { row with status := ((gapOfResult gaps row).bind (·.status)).getD row.status }
  else row

/-- Adds the locator column if there is an evidence table. -/
def addLocatorIfEvidence : DbTx Unit := do
  let present ← ask [] fun db => db.columnExists (.evidenceMetadata, .id)
  if present then addColumnIfMissing (.evidenceMetadata, .locator) else pure ()

def applyResultQueryFiltersMigration : DbTx Unit := do
  addColumnsIfMissing .controlResults controlResultQueryFilterColumns
  addLocatorIfEvidence
  backfillControlResultIdentityFields
  sql (columnsOf .controlResults [.runId, .controlId, .ruleId, .status] ++
      columnsOf .complianceGaps [.id, .runId, .status, .controlId, .ruleId]) fun db =>
    { db with
      controlResults := db.controlResults.update fun _ row =>
        withGapStatus db.complianceGaps row }

/-- Adds the columns and tables an export is reconstructed from. -/
def ensureExportReconstructionSchema : DbTx Unit := do
  addColumnIfMissing (.scanRuns, .executedAt)
  addColumnsIfMissing .controlResults exportResultColumns
  createTable .runFrameworkLinks ([.runId, .frameworkId] ++ frameworkLinkColumns)
  createTable .runControlLinks ([.runId, .frameworkId, .controlId] ++ controlLinkColumns)
  addColumnsIfMissing .runEvidenceLinks evidenceLinkColumns
  addColumnsIfMissing .runFrameworkLinks frameworkLinkColumns
  addColumnsIfMissing .runControlLinks controlLinkColumns

/-- A framework link with every column but its key at the default. -/
def defaultFrameworkLink : FrameworkLinkRow :=
  ⟨[], []⟩

/-- A control link with every column but its key at the default. -/
def defaultControlLink : ControlLinkRow :=
  ⟨[], [], 0, []⟩

/-- Adds the framework links of the given keys that are missing. -/
def insertFrameworkLinks (needs : List Column) (keys : Db → List (Str × Str)) : DbTx Unit :=
  sql (needs ++ columnsOf .runFrameworkLinks [.runId, .frameworkId]) fun db =>
    { db with
      runFrameworkLinks :=
        Table.insertAll id (fun _ => defaultFrameworkLink) db.runFrameworkLinks (keys db) }

/-- Adds the control links of the given keys that are missing. -/
def insertControlLinks (needs : List Column) (keys : Db → List (Str × Str × Str)) : DbTx Unit :=
  sql (needs ++ columnsOf .runControlLinks [.runId, .frameworkId, .controlId]) fun db =>
    { db with
      runControlLinks :=
        Table.insertAll id (fun _ => defaultControlLink) db.runControlLinks (keys db) }

/-- A result row with a framework, if it has none. -/
def withFramework (frameworkId : Str) (row : ControlResultRow) : ControlResultRow :=
  { row with frameworkId := orElseText row.frameworkId frameworkId }

/-- Adds the framework link of a result whose id encodes a framework. -/
def insertEncodedFramework (runId frameworkId : Str) : DbTx Unit :=
  if frameworkId = [] then pure () else insertFrameworkLinks [] fun _ => [(runId, frameworkId)]

/-- Fills the framework of a result from its id, and adds the links the result implies. -/
def backfillCatalogLinks (result : Str × Str × Str) : DbTx Unit :=
  match controlResultIdentity result.1 with
  | none => pure ()
  | some identity => do
      let runId := orElseText result.2.1 identity.runId
      let controlId := orElseText result.2.2 identity.controlId
      sql (columnsOf .controlResults [.id, .frameworkId]) fun db =>
        { db with
          controlResults :=
            db.controlResults.updateAt result.1 (withFramework identity.frameworkId) }
      insertEncodedFramework runId identity.frameworkId
      insertControlLinks [] fun _ => [(runId, identity.frameworkId, controlId)]

/-- Links the only framework to all controls. -/
def backfillSingleFramework (runId : Str) (frameworkIds : List Str) : DbTx Unit :=
  match frameworkIds with
  | [frameworkId] =>
      insertControlLinks (columnsOf .controls [.id]) fun db =>
        db.controls.rows.map fun r => (runId, frameworkId, r.1)
  | _ => pure ()

/-- Links the only run to all frameworks, and to all controls if there is one framework. -/
def backfillSingleRun (runIds : List Str) : DbTx Unit :=
  match runIds with
  | [runId] => do
      insertFrameworkLinks (columnsOf .frameworks [.id]) fun db =>
        db.frameworks.rows.map fun r => (runId, r.1)
      let frameworkIds ← ask (columnsOf .frameworks [.id]) fun db =>
        sortBy strLe (db.frameworks.rows.map Prod.fst)
      backfillSingleFramework runId frameworkIds
  | _ => pure ()

def backfillSingleRunCatalogLinks : DbTx Unit := do
  let runIds ← ask (columnsOf .scanRuns [.id]) fun db =>
    sortBy strLe (db.scanRuns.rows.map Prod.fst)
  backfillSingleRun runIds

/-- Fills the frameworks of the results and adds the catalog links they imply. -/
def backfillExportCatalogLinks : DbTx Unit := do
  let results ← ask (columnsOf .controlResults [.id, .runId, .controlId]) fun db =>
    (sortBy (fun a b => strLe a.1 b.1) db.controlResults.rows).map fun r =>
      (r.1, r.2.runId, r.2.controlId)
  results.forM backfillCatalogLinks
  backfillSingleRunCatalogLinks

/-- A result row with the severity of its gap, if it has no severity. -/
def withGapSeverity (gaps : Table Str GapRow) (row : ControlResultRow) : ControlResultRow :=
  if row.severity = [] then
    { row with severity := ((gapOfResult gaps row).bind (·.severity)).getD row.severity }
  else row

/-- A result row with the timestamp of its run, if it has no timestamp. -/
def withRunExecutedAt (runs : Table Str ScanRunRow) (row : ControlResultRow) :
    ControlResultRow :=
  if row.executedAt = [] then
    { row with executedAt := ((runs.get row.runId).map (·.executedAt)).getD row.executedAt }
  else row

/-- Fills the severities and timestamps of the results. -/
def backfillExportResultMetadata : DbTx Unit := do
  sql (columnsOf .controlResults [.runId, .controlId, .ruleId, .severity] ++
      columnsOf .complianceGaps [.id, .runId, .severity, .controlId, .ruleId]) fun db =>
    { db with
      controlResults := db.controlResults.update fun _ row =>
        withGapSeverity db.complianceGaps row }
  sql (columnsOf .controlResults [.runId, .executedAt] ++ columnsOf .scanRuns [.id, .executedAt])
    fun db =>
      { db with
        controlResults := db.controlResults.update fun _ row =>
          withRunExecutedAt db.scanRuns row }

/-- A framework link with the version of its framework. -/
def withFrameworkVersion (frameworks : Table Str FrameworkRow) (key : Str × Str)
    (row : FrameworkLinkRow) : FrameworkLinkRow :=
  { row with version := ((frameworks.get key.2).map (·.version)).getD row.version }

/-- The first result of a control link by rule id, among those that satisfy a condition. -/
def resultOfLink (p : ControlResultRow → Bool) (results : Table Str ControlResultRow)
    (key : Str × Str × Str) : Option ControlResultRow :=
  (firstBy (fun r => r.2.ruleId) (fun r => r.2.runId = key.1 ∧ r.2.frameworkId = key.2.1 ∧
    r.2.controlId = key.2.2 ∧ p r.2) results).map Prod.snd

/-- A control link with the severity and weight its results carry. -/
def withResultMetadata (results : Table Str ControlResultRow) (key : Str × Str × Str)
    (row : ControlLinkRow) : ControlLinkRow :=
  { row with
    severity := ((resultOfLink (·.severity ≠ []) results key).map (·.severity)).getD row.severity
    weight := ((resultOfLink (fun _ => true) results key).map (·.weight)).getD row.weight }

/-- An evidence link with the stored metadata of its evidence. -/
def withEvidenceMetadata (metadata : Table Str EvidenceRow) (key : Str × Str)
    (row : EvidenceLinkRow) : EvidenceLinkRow :=
  match metadata.get key.2 with
  | none => row
  | some stored =>
      { row with
        digest := stored.digest
        locator := stored.locator
        classification := stored.classification }

/-- Copies versions, severities, weights and evidence metadata into the links of runs. -/
def backfillRunSnapshotMetadata : DbTx Unit := do
  sql (columnsOf .runFrameworkLinks [.frameworkId, .version] ++
      columnsOf .frameworks [.id, .version]) fun db =>
    { db with
      runFrameworkLinks := db.runFrameworkLinks.update (withFrameworkVersion db.frameworks) }
  sql (columnsOf .runControlLinks [.runId, .frameworkId, .controlId, .severity, .weight] ++
      columnsOf .controlResults [.runId, .frameworkId, .controlId, .severity, .weight, .ruleId])
    fun db =>
      { db with
        runControlLinks := db.runControlLinks.update (withResultMetadata db.controlResults) }
  sql (columnsOf .runEvidenceLinks [.evidenceId, .digest, .locator, .classification] ++
      columnsOf .evidenceMetadata [.id, .digest, .locator, .classification]) fun db =>
    { db with
      runEvidenceLinks := db.runEvidenceLinks.update (withEvidenceMetadata db.evidenceMetadata) }

def applyExportReconstructionMigration : DbTx Unit := do
  ensureExportReconstructionSchema
  backfillExportCatalogLinks
  backfillExportResultMetadata
  backfillRunSnapshotMetadata

/-- The body of a migration: packaged code, or its text. -/
def migrationBody (engine : Engine) (migration : PackagedMigration) : DbTx Unit :=
  if migration = gapQueryFiltersMigration then applyGapQueryFiltersMigration
  else if migration = evidenceLocatorsMigration then applyEvidenceLocatorsMigration
  else if migration = resultQueryFiltersMigration then applyResultQueryFiltersMigration
  else if migration = exportReconstructionMigration then applyExportReconstructionMigration
  else executeBatch engine migration.sql

/-! ### The steps of the bodies -/

/-- What one statement of a packaged body does that adds columns, tables or rows, or fills
values in; the columns it may add are named. -/
inductive FillStep (columns : List Column) : Db → Db → Prop where
  | addColumn (column : Column) (db : Db) (hcolumn : column ∈ columns)
      (hmissing : db.columnExists column = false) : FillStep columns db (addColumn column db)
  | createTable (table : TableName) (names : List ColumnName) (db : Db)
      (hnames : columnsOf table names ⊆ columns) :
      FillStep columns db (tableEnsured table names db)
  | evidenceLinks (keys : List (Str × Str)) (db : Db) :
      FillStep columns db { db with
        runEvidenceLinks :=
          Table.insertAll id (fun _ => defaultEvidenceLink) db.runEvidenceLinks keys }
  | frameworkLinks (keys : List (Str × Str)) (db : Db) :
      FillStep columns db { db with
        runFrameworkLinks :=
          Table.insertAll id (fun _ => defaultFrameworkLink) db.runFrameworkLinks keys }
  | controlLinks (keys : List (Str × Str × Str)) (db : Db) :
      FillStep columns db { db with
        runControlLinks :=
          Table.insertAll id (fun _ => defaultControlLink) db.runControlLinks keys }
  | identity (rowId : Str) (identity : RowIdentity) (db : Db)
      (hidentity : controlResultIdentity rowId = some identity) :
      FillStep columns db { db with
        controlResults := db.controlResults.updateAt rowId (withIdentity identity) }
  | gapStatus (db : Db) :
      FillStep columns db { db with
        controlResults := db.controlResults.update fun _ row =>
          withGapStatus db.complianceGaps row }
  | framework (rowId : Str) (identity : RowIdentity) (db : Db)
      (hidentity : controlResultIdentity rowId = some identity) :
      FillStep columns db { db with
        controlResults := db.controlResults.updateAt rowId (withFramework identity.frameworkId) }
  | gapSeverity (db : Db) :
      FillStep columns db { db with
        controlResults := db.controlResults.update fun _ row =>
          withGapSeverity db.complianceGaps row }
  | runExecutedAt (db : Db) :
      FillStep columns db { db with
        controlResults := db.controlResults.update fun _ row =>
          withRunExecutedAt db.scanRuns row }

/-- What one statement of a packaged body does: it fills, or copies stored metadata into the
links of runs. -/
inductive BodyStep (columns : List Column) : Db → Db → Prop where
  | fill {db db' : Db} (h : FillStep columns db db') : BodyStep columns db db'
  | frameworkVersions (db : Db) :
      BodyStep columns db { db with
        runFrameworkLinks := db.runFrameworkLinks.update (withFrameworkVersion db.frameworks) }
  | resultMetadata (db : Db) :
      BodyStep columns db { db with
        runControlLinks := db.runControlLinks.update (withResultMetadata db.controlResults) }
  | evidenceMetadata (db : Db) :
      BodyStep columns db { db with
        runEvidenceLinks :=
          db.runEvidenceLinks.update (withEvidenceMetadata db.evidenceMetadata) }

/-- What a sequence of statements that fill does. -/
abbrev FillSteps (columns : List Column) : Db → Db → Prop :=
  Relation.ReflTransGen (FillStep columns)

/-- What a sequence of statements of the bodies does. -/
abbrev BodySteps (columns : List Column) : Db → Db → Prop :=
  Relation.ReflTransGen (BodyStep columns)

/-- Steps that fill are steps of a body. -/
theorem FillSteps.bodySteps {columns : List Column} {db db' : Db} (h : FillSteps columns db db') :
    BodySteps columns db db' := by
  induction h with
  | refl => exact .refl
  | tail _ hstep ih => exact ih.tail (.fill hstep)

section Moves

variable {columns : List Column}

theorem moves_step {needs : List Column} {effect : Db → Db}
    (h : ∀ db, FillStep columns db (effect db)) : (sql needs effect).Moves (FillSteps columns) :=
  moves_sql fun db => .single (h db)

theorem moves_done : (pure () : DbTx Unit).Moves (FillSteps columns) :=
  moves_pure (fun _ => .refl) ()

/-- A query and what follows it. -/
theorem moves_asking {α : Type} {needs : List Column} {read : Db → α} {k : α → DbTx Unit}
    (h : ∀ a, (k a).Moves (FillSteps columns)) :
    (ask needs read >>= k).Moves (FillSteps columns) :=
  moves_bind (fun _ _ _ => .trans) (moves_ask (fun _ => .refl) _ _) h

theorem moves_seq {tx tx' : DbTx Unit} (h : tx.Moves (FillSteps columns))
    (h' : tx'.Moves (FillSteps columns)) : (tx >>= fun _ => tx').Moves (FillSteps columns) :=
  moves_bind (fun _ _ _ => .trans) h fun _ => h'

theorem moves_loop {α : Type} {body : α → DbTx Unit} {items : List α}
    (h : ∀ a ∈ items, (body a).Moves (FillSteps columns)) :
    (items.forM body).Moves (FillSteps columns) :=
  moves_forM (fun _ => .refl) (fun _ _ _ => .trans) h

theorem moves_column {column : Column} (hcolumn : column ∈ columns) :
    (alterAddColumn column).Moves (FillSteps columns) :=
  moves_alterAddColumn fun db hmissing => .single (.addColumn column db hcolumn hmissing)

theorem moves_addColumnIfMissing {column : Column} (hcolumn : column ∈ columns) :
    (addColumnIfMissing column).Moves (FillSteps columns) :=
  moves_asking fun _ => moves_ite moves_done (moves_column hcolumn)

theorem moves_addColumnsIfMissing {table : TableName} {names : List ColumnName}
    (hnames : columnsOf table names ⊆ columns) :
    (addColumnsIfMissing table names).Moves (FillSteps columns) :=
  moves_loop fun _ hcolumn => moves_addColumnIfMissing (hnames hcolumn)

theorem moves_createTable {table : TableName} {names : List ColumnName}
    (hnames : columnsOf table names ⊆ columns) :
    (createTable table names).Moves (FillSteps columns) :=
  moves_step fun db => .createTable table names db hnames

theorem moves_insertEvidenceLinks (needs : List Column) (keys : Db → List (Str × Str)) :
    (insertEvidenceLinks needs keys).Moves (FillSteps columns) :=
  moves_step fun db => .evidenceLinks (keys db) db

theorem moves_insertFrameworkLinks (needs : List Column) (keys : Db → List (Str × Str)) :
    (insertFrameworkLinks needs keys).Moves (FillSteps columns) :=
  moves_step fun db => .frameworkLinks (keys db) db

theorem moves_insertControlLinks (needs : List Column) (keys : Db → List (Str × Str × Str)) :
    (insertControlLinks needs keys).Moves (FillSteps columns) :=
  moves_step fun db => .controlLinks (keys db) db

theorem moves_backfillIdentity (rowId : Str) :
    (backfillIdentity rowId).Moves (FillSteps columns) := by
  rw [backfillIdentity]
  split
  · exact moves_done
  · next identity hidentity => exact moves_step fun db => .identity rowId identity db hidentity

theorem moves_backfillIdentities :
    backfillControlResultIdentityFields.Moves (FillSteps columns) :=
  moves_asking fun _ => moves_loop fun rowId _ => moves_backfillIdentity rowId

theorem moves_backfillCatalogLinks (result : Str × Str × Str) :
    (backfillCatalogLinks result).Moves (FillSteps columns) := by
  rw [backfillCatalogLinks]
  split
  · exact moves_done
  · next identity hidentity =>
      have hframework : ∀ runId, (insertEncodedFramework runId identity.frameworkId).Moves
          (FillSteps columns) :=
        fun runId => moves_ite moves_done (moves_insertFrameworkLinks _ _)
      exact moves_seq (moves_step fun db => .framework result.1 identity db hidentity) <|
        moves_seq (hframework _) (moves_insertControlLinks _ _)

theorem moves_backfillSingleFramework (runId : Str) (frameworkIds : List Str) :
    (backfillSingleFramework runId frameworkIds).Moves (FillSteps columns) := by
  rcases frameworkIds with _ | ⟨frameworkId, _ | ⟨_, _⟩⟩
  · exact moves_done
  · exact moves_insertControlLinks _ _
  · exact moves_done

theorem moves_backfillSingleRun (runIds : List Str) :
    (backfillSingleRun runIds).Moves (FillSteps columns) := by
  rcases runIds with _ | ⟨runId, _ | ⟨_, _⟩⟩
  · exact moves_done
  · exact moves_seq (moves_insertFrameworkLinks _ _) <|
      moves_asking (moves_backfillSingleFramework runId)
  · exact moves_done

end Moves

/-! ### The bodies as sequences of steps -/

/-- The columns migration 5 adds. -/
def resultQueryFiltersColumns : List Column :=
  columnsOf .controlResults controlResultQueryFilterColumns ++ [(.evidenceMetadata, .locator)]

theorem moves_resultQueryFilters :
    applyResultQueryFiltersMigration.Moves (FillSteps resultQueryFiltersColumns) := by
  have hlocator : addLocatorIfEvidence.Moves (FillSteps resultQueryFiltersColumns) :=
    moves_asking fun _ => moves_ite (moves_addColumnIfMissing (by decide)) moves_done
  exact moves_seq (moves_addColumnsIfMissing (by decide)) <| moves_seq hlocator <|
    moves_seq moves_backfillIdentities <| moves_step .gapStatus

/-- The columns of a framework link. -/
def runFrameworkLinkColumns : List Column :=
  columnsOf .runFrameworkLinks ([.runId, .frameworkId] ++ frameworkLinkColumns)

/-- The columns of a control link. -/
def runControlLinkColumns : List Column :=
  columnsOf .runControlLinks ([.runId, .frameworkId, .controlId] ++ controlLinkColumns)

/-- The columns migration 8 adds. -/
def exportReconstructionColumns : List Column :=
  [(.scanRuns, .executedAt)] ++ columnsOf .controlResults exportResultColumns ++
    columnsOf .runEvidenceLinks evidenceLinkColumns ++ runFrameworkLinkColumns ++
    runControlLinkColumns

theorem moves_ensureExportReconstructionSchema :
    ensureExportReconstructionSchema.Moves (FillSteps exportReconstructionColumns) :=
  moves_seq (moves_addColumnIfMissing (by decide)) <|
    moves_seq (moves_addColumnsIfMissing (by decide)) <|
      moves_seq (moves_createTable (by decide)) <| moves_seq (moves_createTable (by decide)) <|
        moves_seq (moves_addColumnsIfMissing (by decide)) <|
          moves_seq (moves_addColumnsIfMissing (by decide))
            (moves_addColumnsIfMissing (by decide))

theorem moves_backfillExportCatalogLinks :
    backfillExportCatalogLinks.Moves (FillSteps exportReconstructionColumns) :=
  moves_asking fun _ => moves_seq (moves_loop fun result _ => moves_backfillCatalogLinks result)
    (moves_asking moves_backfillSingleRun)

theorem moves_backfillExportResultMetadata :
    backfillExportResultMetadata.Moves (FillSteps exportReconstructionColumns) :=
  moves_seq (moves_step .gapSeverity) (moves_step .runExecutedAt)

/-- The database with the stored metadata copied into the links of runs. -/
def snapshotMetadata (db : Db) : Db :=
  { db with
    runFrameworkLinks := db.runFrameworkLinks.update (withFrameworkVersion db.frameworks)
    runControlLinks := db.runControlLinks.update (withResultMetadata db.controlResults)
    runEvidenceLinks := db.runEvidenceLinks.update (withEvidenceMetadata db.evidenceMetadata) }

theorem hasEffect_backfillRunSnapshotMetadata :
    backfillRunSnapshotMetadata.HasEffect snapshotMetadata :=
  (hasEffect_seq (hasEffect_sql _ _)
    (hasEffect_seq (hasEffect_sql _ _) (hasEffect_sql _ _))).congr fun _ => rfl

/-- Migration 8 fills, and then copies metadata. -/
theorem runs_exportReconstruction {db db' : Db}
    (h : applyExportReconstructionMigration.Runs db () db') :
    ∃ filled, FillSteps exportReconstructionColumns db filled ∧ db' = snapshotMetadata filled := by
  obtain ⟨_, db₁, hschema, h⟩ := h.of_bind
  obtain ⟨_, db₂, hlinks, h⟩ := h.of_bind
  obtain ⟨_, filled, hresults, hsnapshot⟩ := h.of_bind
  have hfilled := ((moves_ensureExportReconstructionSchema _ _ _ hschema).trans
    (moves_backfillExportCatalogLinks _ _ _ hlinks)).trans
    (moves_backfillExportResultMetadata _ _ _ hresults)
  exact ⟨filled, hfilled, (Prod.mk.inj (hasEffect_backfillRunSnapshotMetadata _ _ _ hsnapshot)).2⟩

theorem moves_exportReconstruction :
    applyExportReconstructionMigration.Moves (BodySteps exportReconstructionColumns) := by
  intro db _ db' h
  obtain ⟨filled, hfilled, rfl⟩ := runs_exportReconstruction h
  exact ((hfilled.bodySteps.tail (.frameworkVersions _)).tail (.resultMetadata _)).tail
    (.evidenceMetadata _)

/-- The columns of an evidence link's key. -/
def evidenceLinkKey : List Column :=
  columnsOf .runEvidenceLinks [.runId, .evidenceId]

theorem moves_linkOwnedEvidence : linkOwnedEvidence.Moves (FillSteps evidenceLinkKey) :=
  moves_seq (moves_createTable (List.Subset.refl _)) (moves_insertEvidenceLinks _ _)

theorem moves_indexRunEvidence : indexRunEvidence.Moves (FillSteps evidenceLinkKey) :=
  moves_seq (moves_createTable (List.Subset.refl _)) <|
    moves_seq (moves_insertEvidenceLinks _ _) (moves_insertEvidenceLinks _ _)

/-- The columns of the initial schema. -/
def initialColumns : List Column :=
  initialTables.flatMap fun table => columnsOf table.1 table.2

theorem moves_createInitialSchema : createInitialSchema.Moves (FillSteps initialColumns) :=
  moves_loop fun table htable =>
    moves_createTable fun _ hcolumn => List.mem_flatMap.mpr ⟨table, htable, hcolumn⟩

/-- The columns a migration adds, by its version. -/
def addedColumns (version : ℕ) : List Column :=
  match version with
  | 1 => initialColumns
  | 2 => evidenceLinkKey
  | 3 => columnsOf .complianceGaps gapQueryFilterColumns
  | 4 => [(.evidenceMetadata, .locator)]
  | 5 => resultQueryFiltersColumns
  | 6 => evidenceLinkKey
  | 7 => [(.evidenceMetadata, .classification)]
  | 8 => exportReconstructionColumns
  | _ => []

/-- The texts of the packaged migrations. -/
def packagedTexts : List Str :=
  [[], initialSchemaSql, runEvidenceLinksSchemaSql, runEvidenceIndexSchemaSql,
    evidenceClassificationsSchemaSql]

/-- What a body does: the steps of a packaged one, or what a text of the caller does. -/
def BodyRan (engine : Engine) (text : Str) (db db' : Db) : Prop :=
  (∃ columns, BodySteps columns db db') ∨ text ∉ packagedTexts ∧ engine text db = .ok db'

theorem moves_bodyRan (engine : Engine) (text : Str) (columns : List Column) {tx : DbTx Unit}
    (h : tx.Moves (FillSteps columns)) : tx.Moves (BodyRan engine text) :=
  fun db a db' hruns => .inl ⟨columns, (h db a db' hruns).bodySteps⟩

theorem moves_executeBatch (engine : Engine) (text : Str) :
    (executeBatch engine text).Moves (BodyRan engine text) := by
  rw [executeBatch]
  split_ifs with hempty hinitial hlinks hindex hclasses
  · exact moves_bodyRan _ _ [] moves_done
  · exact moves_bodyRan _ _ _ moves_createInitialSchema
  · exact moves_bodyRan _ _ _ moves_linkOwnedEvidence
  · exact moves_bodyRan _ _ _ moves_indexRunEvidence
  · exact moves_bodyRan _ _ (addedColumns 7) (moves_column (by decide))
  · refine moves_execute fun db db' h => .inr ⟨?_, h⟩
    simp [packagedTexts, hempty, hinitial, hlinks, hindex, hclasses]

/-- **A body is a sequence of the packaged steps, or a text of the caller.** -/
theorem moves_migrationBody (engine : Engine) (migration : PackagedMigration) :
    (migrationBody engine migration).Moves (BodyRan engine migration.sql) := by
  rw [migrationBody]
  split_ifs
  · exact moves_bodyRan _ _ (addedColumns 3) (moves_addColumnsIfMissing (List.Subset.refl _))
  · exact moves_bodyRan _ _ (addedColumns 4) (moves_addColumnIfMissing (by decide))
  · exact moves_bodyRan _ _ _ moves_resultQueryFilters
  · exact fun db a db' hruns => .inl ⟨_, moves_exportReconstruction db a db' hruns⟩
  · exact moves_executeBatch engine migration.sql

/-- The packaged migrations whose body is their text. -/
theorem migrationBody_text {engine : Engine} {migration : PackagedMigration}
    (h : migration ≠ gapQueryFiltersMigration ∧ migration ≠ evidenceLocatorsMigration ∧
      migration ≠ resultQueryFiltersMigration ∧ migration ≠ exportReconstructionMigration) :
    migrationBody engine migration = executeBatch engine migration.sql := by
  rw [migrationBody, if_neg h.1, if_neg h.2.1, if_neg h.2.2.1, if_neg h.2.2.2]

theorem migrationBody_initial (engine : Engine) :
    migrationBody engine initialMigration = createInitialSchema := by
  rw [migrationBody_text (by decide), executeBatch, if_neg (by decide),
    if_pos (show initialMigration.sql = initialSchemaSql from rfl)]

theorem migrationBody_runEvidenceLinks (engine : Engine) :
    migrationBody engine runEvidenceLinksMigration = linkOwnedEvidence := by
  have hinitial : runEvidenceLinksMigration.sql ≠ initialSchemaSql :=
    ne_of_apply_ne (·[32]?) (by decide +kernel)
  rw [migrationBody_text (by decide), executeBatch, if_neg (by decide), if_neg hinitial,
    if_pos (show runEvidenceLinksMigration.sql = runEvidenceLinksSchemaSql from rfl)]

theorem migrationBody_runEvidenceIndex (engine : Engine) :
    migrationBody engine runEvidenceIndexMigration = indexRunEvidence := by
  have hinitial : runEvidenceIndexMigration.sql ≠ initialSchemaSql :=
    ne_of_apply_ne (·[32]?) (by decide +kernel)
  have hlinks : runEvidenceIndexMigration.sql ≠ runEvidenceLinksSchemaSql := by decide +kernel
  rw [migrationBody_text (by decide), executeBatch, if_neg (by decide), if_neg hinitial,
    if_neg hlinks,
    if_pos (show runEvidenceIndexMigration.sql = runEvidenceIndexSchemaSql from rfl)]

theorem migrationBody_evidenceClassifications (engine : Engine) :
    migrationBody engine evidenceClassificationsMigration =
      alterAddColumn (.evidenceMetadata, .classification) := by
  -- the only text that alters a table
  have hinitial : evidenceClassificationsMigration.sql ≠ initialSchemaSql :=
    ne_of_apply_ne (·[5]?) (by decide +kernel)
  have hlinks : evidenceClassificationsMigration.sql ≠ runEvidenceLinksSchemaSql :=
    ne_of_apply_ne (·[5]?) (by decide +kernel)
  have hindex : evidenceClassificationsMigration.sql ≠ runEvidenceIndexSchemaSql :=
    ne_of_apply_ne (·[5]?) (by decide +kernel)
  rw [migrationBody_text (by decide), executeBatch, if_neg (by decide), if_neg hinitial,
    if_neg hlinks, if_neg hindex,
    if_pos (show evidenceClassificationsMigration.sql = evidenceClassificationsSchemaSql from rfl)]

theorem migrationBody_exportReconstruction (engine : Engine) :
    migrationBody engine exportReconstructionMigration = applyExportReconstructionMigration := by
  rw [migrationBody, if_neg (by decide), if_neg (by decide), if_neg (by decide), if_pos rfl]

/-- The packaged migrations before the last one. -/
theorem mem_packagedMigrations_iff {migration : PackagedMigration} :
    migration ∈ packagedMigrations ↔
      migration ∈ packagedMigrations.dropLast ∨ migration = exportReconstructionMigration := by
  simp [packagedMigrations, or_assoc]

/-- **The bodies before the last one** only fill; they add the columns of their version. -/
theorem moves_fillingBody (engine : Engine) {migration : PackagedMigration}
    (h : migration ∈ packagedMigrations.dropLast) :
    (migrationBody engine migration).Moves (FillSteps (addedColumns migration.version)) := by
  simp only [packagedMigrations, List.dropLast, List.mem_cons, List.not_mem_nil, or_false] at h
  rcases h with rfl | rfl | rfl | rfl | rfl | rfl | rfl
  · rw [migrationBody_initial]
    exact moves_createInitialSchema
  · rw [migrationBody_runEvidenceLinks]
    exact moves_linkOwnedEvidence
  · rw [migrationBody, if_pos rfl]
    exact moves_addColumnsIfMissing (List.Subset.refl _)
  · rw [migrationBody, if_neg (by decide), if_pos rfl]
    exact moves_addColumnIfMissing (by decide)
  · rw [migrationBody, if_neg (by decide), if_neg (by decide), if_pos rfl]
    exact moves_resultQueryFilters
  · rw [migrationBody_runEvidenceIndex]
    exact moves_indexRunEvidence
  · rw [migrationBody_evidenceClassifications]
    exact moves_column (by decide)

/-- **A packaged body** is a sequence of steps that add the columns of its version. -/
theorem moves_packagedBody (engine : Engine) {migration : PackagedMigration}
    (h : migration ∈ packagedMigrations) :
    (migrationBody engine migration).Moves (BodySteps (addedColumns migration.version)) := by
  rcases mem_packagedMigrations_iff.mp h with hfilling | rfl
  · exact fun db a db' hruns => (moves_fillingBody engine hfilling db a db' hruns).bodySteps
  · rw [migrationBody_exportReconstruction]
    exact moves_exportReconstruction

end SovriAgent
