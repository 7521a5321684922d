import SovriAgent.OrderBy
import SovriAgent.SignedJson
import SovriAgent.WriteCorpus

/-!
# Exporting a Persisted Run

The way back from the local database: the rows of a run are read in a stable order and put
together to a corpus, which an exporter renders. A result row is rebuilt through the builder
of the SDK, which may refuse it.
-/

namespace SovriAgent

open Keyed Transaction

/-- What the reconstruction uses from outside: the result builder of the SDK, which gets the
fields and returns the result or says why not, the SDK's description of a status, and the
quoting of texts in messages. -/
structure ResultSdk where
  build : ControlResult → Except Str ControlResult
  description : Status → Str
  quoted : Str → Str

/-! ### Rows -/

/-- The frameworks of a run. -/
def exportFrameworkRows (runId : Str) : DbTx (List Framework) :=
  ask (columnsOf .runFrameworkLinks [.runId, .frameworkId, .version, .sourceUrl]) fun db =>
    orderBy [Framework.id] ((db.runFrameworkLinks.rows.filter fun r => r.1.1 = runId).map fun r =>
      ⟨r.1.2, r.2.version, r.2.sourceUrl⟩)

/-- The result rows of a run. -/
def exportResultRows (runId : Str) : DbTx (List ControlResultRow) :=
  ask (columnsOf .controlResults [.runId, .frameworkId, .controlId, .ruleId, .status, .evidenceId,
      .severity, .weight, .reason, .executedAt, .executionMetadata]) fun db =>
    orderBy [ControlResultRow.controlId, ControlResultRow.ruleId, ControlResultRow.frameworkId]
      ((db.controlResults.rows.filter fun r => r.2.runId = runId).map Prod.snd)

/-- The catalogued controls of a run. -/
def exportControlRows (runId : Str) : DbTx (List Control) :=
  ask (columnsOf .runControlLinks
      [.runId, .frameworkId, .controlId, .title, .severity, .weight, .reference]) fun db =>
    orderBy [Control.frameworkId, Control.id]
      ((db.runControlLinks.rows.filter fun r => r.1.1 = runId).map fun r =>
        ⟨r.1.2.1, r.1.2.2, r.2.title, r.2.severity, r.2.weight, r.2.reference⟩)

/-- The evidence a link row stands for; an unknown class is read as the most protected. -/
def linkedEvidence (evidenceId : Str) (link : EvidenceLinkRow) : Evidence where
  id := evidenceId
  kind := link.kind
  location := link.locator
  integrity := link.digest
  classification := (Classification.fromPersisted link.classification).getD .secret

/-- The evidence of a run. -/
def exportEvidenceRows (runId : Str) : DbTx (List Evidence) :=
  ask (columnsOf .runEvidenceLinks
      [.runId, .evidenceId, .kind, .digest, .locator, .classification]) fun db =>
    orderBy [Evidence.id] ((db.runEvidenceLinks.rows.filter fun r => r.1.1 = runId).map fun r =>
      linkedEvidence r.1.2 r.2)

/-! ### Results -/

/-- The status with a persisted label. -/
def persistedStatus (sdk : ResultSdk) (label : Str) : Except LocalDatabaseError Status :=
  if label = Status.pass.label then .ok .pass
  else if label = Status.fail.label then .ok .fail
  else if label = Status.warning.label then .ok .warning
  else if label = Status.skipped.label then .ok .skipped
  else if label = Status.error.label then .ok .error
  else .error (.schema ("persisted control result has unsupported status ".toList ++
    sdk.quoted label))

/-- The beginning of the messages about a persisted result. -/
def persistedResultLabel (persisted : ControlResultRow) : Str :=
  "persisted result ".toList ++ persisted.controlId ++ ":".toList ++ persisted.ruleId

/-- The reason a result is rebuilt with: its own unless it is blank, and otherwise, unless it
passed, the description of its status. -/
def restoredReason (sdk : ResultSdk) (status : Status) (reason : Option Str) : Option Str :=
  match reason.filter (trim · ≠ []) with
  | some reason => some reason
  | none => if status ≠ .pass then some (sdk.description status) else none

/-- The fields a result row is rebuilt from. -/
def restoredFields (sdk : ResultSdk) (persisted : ControlResultRow) (status : Status)
    (executedAt : Str) : ControlResult where
  controlId := persisted.controlId
  ruleId := persisted.ruleId
  status := status
  severity := persisted.severity
  weight := persisted.weight
  evidenceRefs := if persisted.evidenceId = [] then [] else [persisted.evidenceId]
  reason := restoredReason sdk status persisted.reason
  executedAt := executedAt
  executionMetadata := persisted.executionMetadata

/-- Rebuilds a result from its row; a row without timestamp has the one of the run. -/
def reconstructControlResult (sdk : ResultSdk) (persisted : ControlResultRow)
    (runExecutedAt : Str) : Except LocalDatabaseError ControlResult :=
  match persistedStatus sdk persisted.status with
  | .error e => .error e
  | .ok status =>
      let executedAt :=
        if persisted.executedAt = [] then runExecutedAt else persisted.executedAt
      if executedAt = [] then
        .error (.schema (persistedResultLabel persisted ++
          " execution timestamp is missing".toList))
      else
        match sdk.build (restoredFields sdk persisted status executedAt) with
        | .error message =>
            .error (.schema (persistedResultLabel persisted ++ " is invalid: ".toList ++ message))
        | .ok result => .ok result

/-- Rebuilds a result with its scope. -/
def reconstructScopedResult (sdk : ResultSdk) (runExecutedAt : Str)
    (persisted : ControlResultRow) : Except LocalDatabaseError ScopedResult :=
  match reconstructControlResult sdk persisted runExecutedAt with
  | .error e => .error e
  | .ok result =>
      .ok ⟨if persisted.frameworkId = [] then none else some persisted.frameworkId, result⟩

/-! ### The corpus -/

/-- Adds a result under its scope. -/
def Corpus.withScopedResult (corpus : Corpus) (item : ScopedResult) : Corpus :=
  match item.frameworkId with
  | none => corpus.withUnscopedControlResult item.result
  | some frameworkId => corpus.withControlResult frameworkId item.result

/-- The corpus put together from what was read of a run. -/
def rebuiltCorpus (runId executedAt : Str) (frameworks : List Framework)
    (controls : List Control) (results : List ScopedResult) (evidence : List Evidence) :
    Corpus :=
  let corpus := frameworks.foldl Corpus.withFramework ((Corpus.new executedAt).withRunId runId)
  let corpus := controls.foldl Corpus.withControl corpus
  let corpus := results.foldl Corpus.withScopedResult corpus
  evidence.foldl Corpus.withClassifiedEvidence corpus

/-- Reads a persisted run back. -/
def reconstructExportCorpus (sdk : ResultSdk) (runId : Str) : DbTx Corpus := do
  let run ← ask (columnsOf .scanRuns [.id, .executedAt]) fun db => db.scanRuns.get runId
  match run with
  | none => Tx.lift (.error (.missingRun runId))
  | some run =>
      let frameworks ← exportFrameworkRows runId
      let persisted ← exportResultRows runId
      let controls ← exportControlRows runId
      let results ← Tx.lift (persisted.mapM (reconstructScopedResult sdk run.executedAt))
      let evidence ← exportEvidenceRows runId
      pure (rebuiltCorpus runId run.executedAt frameworks controls results evidence)

/-- The three exporters of a corpus; the PDF renderer may fail. -/
structure Exporters where
  pdf : Corpus → Except Str (List UInt8)
  spreadsheet : Corpus → Str
  signedJson : Corpus → Bytes 32 → Str

/-- A corpus in one of the export formats. -/
def exportAs (exporters : Exporters) (format : Str) (seed : Bytes 32) (corpus : Corpus) :
    Except LocalDatabaseError (List UInt8) :=
  if format = "PDF".toList then
    match exporters.pdf corpus with
    | .error message => .error (.exportFailed message)
    | .ok bytes => .ok bytes
  else if format = "SpreadsheetML".toList then .ok (utf8 (exporters.spreadsheet corpus))
  else if format = "signed JSON".toList then .ok (utf8 (exporters.signedJson corpus seed))
  else .error (.unsupportedExportFormat format)

/-- Exports a persisted run. -/
def exportRun (sdk : ResultSdk) (exporters : Exporters) (format runId : Str) (seed : Bytes 32) :
    DbTx (List UInt8) := do
  let corpus ← reconstructExportCorpus sdk runId
  Tx.lift (exportAs exporters format seed corpus)

end SovriAgent
