import SovriAgent.Text

/-!
# The Compliance Corpus

The in-memory result of a scan run, which both the signed export and the local database
start from: its identity, the catalogued controls, the control results with the
framework each was evaluated under, the collected evidence, and the frameworks.

`Status`, `ControlResult` and the scores are types of the SDK; a `ControlResult` is the
record of the values its accessors return, and the score computation is a parameter
(`Scoring`), for the program only reads what it returns.
-/

namespace SovriAgent

/-! ### Values of the SDK -/

/-- The outcome of a control. -/
inductive Status where
  | pass
  | fail
  | warning
  | skipped
  | error
  deriving DecidableEq, Repr

/-- The label a status is rendered and persisted under. -/
def Status.label : Status → Str
  | .pass => "PASS".toList
  | .fail => "FAIL".toList
  | .warning => "WARNING".toList
  | .skipped => "SKIPPED".toList
  | .error => "ERROR".toList

theorem Status.label_injective {status status' : Status} (h : status.label = status'.label) :
    status = status' := by
  cases status <;> cases status' <;> first | rfl | (revert h; decide)

/-- A control result, as the values its accessors return. -/
structure ControlResult where
  controlId : Str
  ruleId : Str
  status : Status
  severity : Str
  weight : UInt32
  evidenceRefs : List Str
  reason : Option Str
  executedAt : Str
  executionMetadata : Str
  deriving DecidableEq

/-- How many results of a framework have each status. -/
structure StatusCounts where
  pass : ℕ
  fail : ℕ
  warning : ℕ
  skipped : ℕ
  error : ℕ
  deriving DecidableEq

/-- A score summary of one control. -/
structure ControlScore where
  controlId : Str
  ruleId : Str
  status : Status
  isApplicable : Bool
  weight : UInt32
  earned : UInt32

/-- The scores of one framework. -/
structure FrameworkScore (Ratio : Type) where
  frameworkId : Str
  counts : StatusCounts
  ratio : Ratio
  controls : List ControlScore

/-- The pooled score with the framework scores it was pooled from. -/
structure EnvironmentScore (Ratio : Type) where
  ratio : Ratio
  frameworks : List (FrameworkScore Ratio)
  incomplete : Bool

/-- A control of the catalog the SDK scores against. -/
structure CatalogControl where
  id : Str
  severity : Str
  weight : UInt32

/-- The catalog the SDK partitions results by: framework ids, controls, and the
control-to-framework mappings. -/
structure Catalog where
  frameworks : List Str
  controls : List CatalogControl
  mappings : List (Str × Str)

/-- The score computation of the SDK. -/
structure Scoring where
  Ratio : Type
  compute : Catalog → List ControlResult → EnvironmentScore Ratio
  fromWeights : UInt32 → UInt32 → Ratio
  render : Ratio → Str

/-! ### The corpus -/

/-- A control result together with the framework it was evaluated under. -/
structure ScopedResult where
  frameworkId : Option Str
  result : ControlResult
  deriving DecidableEq

/-- A compliance framework the corpus covers. -/
structure Framework where
  id : Str
  version : Str
  sourceUrl : Str
  deriving DecidableEq

/-- A catalogued control the corpus evaluated. -/
structure Control where
  frameworkId : Str
  id : Str
  title : Str
  severity : Str
  weight : UInt32
  reference : Str
  deriving DecidableEq

/-- The confidentiality classification a persisted evidence record carries. -/
inductive Classification where
  | secret
  | sensitive
  | unclassified
  deriving DecidableEq, Repr

/-- The persisted name of a classification. -/
def Classification.asStr : Classification → Str
  | .secret => "Secret".toList
  | .sensitive => "Sensitive".toList
  | .unclassified => "Unclassified".toList

/-- The classification with a persisted name. -/
def Classification.fromPersisted (value : Str) : Option Classification :=
  if value = "Secret".toList then some .secret
  else if value = "Sensitive".toList then some .sensitive
  else if value = "Unclassified".toList then some .unclassified
  else none

theorem Classification.fromPersisted_asStr (c : Classification) :
    Classification.fromPersisted c.asStr = some c := by
  cases c <;> decide

/-- The redaction status a classification yields. -/
def redactionStatus : Classification → Str
  | .secret => "redacted".toList
  | .sensitive => "redacted".toList
  | .unclassified => "none".toList

/-- A collected evidence record the corpus holds. -/
structure Evidence where
  id : Str
  kind : Str
  location : Str
  integrity : Str
  classification : Classification
  deriving DecidableEq

/-- The evidence metadata exposed to the exporters. -/
structure EvidenceRecord where
  id : Str
  kind : Str
  locator : Str
  integrity : Str
  classification : Str
  redactionStatus : Str

/-- A persisted compliance corpus. -/
structure Corpus where
  executedAt : Str
  runId : Str
  controls : List Control
  results : List ScopedResult
  evidence : List Evidence
  frameworks : List Framework
  deriving DecidableEq

namespace Corpus

/-- An empty corpus for a run with the given executed-at timestamp. -/
def new (executedAt : Str) : Corpus :=
  { executedAt, runId := [], controls := [], results := [], evidence := [], frameworks := [] }

/-- Records the stable id of the run. -/
def withRunId (corpus : Corpus) (runId : Str) : Corpus :=
  { corpus with runId }

/-- Adds a catalogued control. -/
def withControl (corpus : Corpus) (control : Control) : Corpus :=
  { corpus with controls := corpus.controls ++ [control] }

/-- Adds a control result evaluated under a framework. -/
def withControlResult (corpus : Corpus) (frameworkId : Str) (result : ControlResult) : Corpus :=
  { corpus with results := corpus.results ++ [⟨some frameworkId, result⟩] }

/-- Adds a control result evaluated under no framework. -/
def withUnscopedControlResult (corpus : Corpus) (result : ControlResult) : Corpus :=
  { corpus with results := corpus.results ++ [⟨none, result⟩] }

/-- Adds an evidence record with its classification. -/
def withClassifiedEvidence (corpus : Corpus) (evidence : Evidence) : Corpus :=
  { corpus with evidence := corpus.evidence ++ [evidence] }

/-- Adds a framework the corpus covers. -/
def withFramework (corpus : Corpus) (framework : Framework) : Corpus :=
  { corpus with frameworks := corpus.frameworks ++ [framework] }

/-- The stable ids of the catalogued controls, in the order they were added. -/
def controlIds (corpus : Corpus) : List Str :=
  corpus.controls.map (·.id)

/-- The evidence metadata records, in the order they were collected. -/
def evidenceRecords (corpus : Corpus) : List EvidenceRecord :=
  corpus.evidence.map fun record =>
    { id := record.id, kind := record.kind, locator := record.location,
      integrity := record.integrity, classification := record.classification.asStr,
      redactionStatus := redactionStatus record.classification }

end Corpus

/-- Mappings are equal if their controls and frameworks are. -/
instance : LawfulBEq (Str × Str) := inferInstance

/-- One step of building the scoring catalog: a framework, a control and a mapping are
added for the first result that names them. -/
def Catalog.record (catalog : Catalog) (item : ScopedResult) : Catalog :=
  match item.frameworkId with
  | none => catalog
  | some frameworkId =>
      let controlId := item.result.controlId
      { frameworks :=
          if frameworkId ∈ catalog.frameworks then catalog.frameworks
          else catalog.frameworks ++ [frameworkId]
        controls :=
          if catalog.controls.any (·.id = controlId) then catalog.controls
          else catalog.controls ++ [⟨controlId, item.result.severity, item.result.weight⟩]
        mappings :=
          if (controlId, frameworkId) ∈ catalog.mappings then catalog.mappings
          else catalog.mappings ++ [(controlId, frameworkId)] }

/-- The minimal catalog the SDK needs to partition results by framework. -/
def scoringCatalog (results : List ScopedResult) : Catalog :=
  results.foldl Catalog.record ⟨[], [], []⟩

/-- The environment score of the corpus's framework-scoped results. -/
def Corpus.environmentScore (sdk : Scoring) (corpus : Corpus) : EnvironmentScore sdk.Ratio :=
  sdk.compute (scoringCatalog corpus.results) (corpus.results.map (·.result))

/-! ### Samples -/

/-- A result of a control and a framework, or of none. -/
def plainResult (frameworkId : Option Str) (controlId : Str) (status : Status) : ScopedResult where
  frameworkId := frameworkId
  result :=
    { controlId := controlId, ruleId := "rule".toList, status := status,
      severity := "major".toList, weight := 8, evidenceRefs := ["ev-0001".toList],
      reason := if status = .pass then none else some "observed".toList,
      executedAt := "2026-06-24T13:16:28Z".toList, executionMetadata := [] }

/-- A corpus of some results. -/
def resultsCorpus (results : List ScopedResult) : Corpus :=
  { Corpus.new "2026-06-24T13:16:28Z".toList with runId := "run".toList, results := results }

/-! ### Orders on ids -/

/-- Stable sorting by a comparison (`sort_by`). -/
def sortBy {α : Type} (le : α → α → Bool) (items : List α) : List α :=
  items.insertionSort fun a b => le a b = true

/-- Lexicographic comparison by two keys. -/
def leThen {α : Type} (first second : α → Str) (a b : α) : Bool :=
  if first a = first b then strLe (second a) (second b) else strLe (first a) (first b)

/-- The order of optional ids: an absent id comes first. -/
def optionLe : Option Str → Option Str → Bool
  | none, _ => true
  | some _, none => false
  | some a, some b => strLe a b

end SovriAgent
