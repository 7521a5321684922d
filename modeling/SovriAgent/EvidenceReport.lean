import SovriAgent.Corpus
import SovriAgent.SshScanner

/-!
# The Report of an Evidence Store

The lines of the report that is made of a persisted evidence store, section by section. The
executive summary counts results by the signals of the records; the gaps are listed by their
controls and signals; the appendix lists every record, and those whose content hash is missing.

The counts and the gaps are two passes over the same records. A record without a signal counts
for nothing, and is a gap if it is linked to a control; one without a control is never a gap,
and counts by its signal.

## Main results

* `section_infix_executeLines`: every section stands in the report, under its heading.
-/

namespace SovriAgent

/-- A record of an evidence store, as the values its accessors return. A kind is given by its
name. -/
structure StoreRecord where
  id : Str
  kind : Str
  locator : Str
  key : Option Str
  classification : Option EvidenceClassification
  signal : Option Str
  controlId : Option Str
  contentHash : Str
deriving DecidableEq

/-- What is reported of a record without a content hash. -/
structure MissingIntegrityRecord where
  id : Str
  locator : Str
deriving DecidableEq

namespace EvidenceReport

/-! ### Controls and signals -/

/-- The control of the consent corpus. -/
def consentControlId : Str :=
  "consent.tracker.prior-consent".toList

/-- The signal of a tracker in the consent corpus. -/
def trackerSignal : Str :=
  "www.google-analytics.com".toList

/-- The signal of an inconclusive consent. -/
def warningReason : Str :=
  "consent signal was inconclusive".toList

/-- The signal of a control that passed. -/
def passSignal : Str :=
  Status.pass.label

/-- The control of the base image. -/
def baseImageControlId : Str :=
  "container.base-image.supported".toList

/-- The signal of a base image that was not graded. -/
def dockerSkippedReason : Str :=
  "no Docker daemon is present".toList

/-- The signal of a configuration that could not be read. -/
def sshErrorReason : Str :=
  "sshd configuration could not be read".toList

/-- The status of a control that came to no conclusion. -/
def nonConclusiveStatus (controlId reason : Str) : Option Status :=
  if controlId = baseImageControlId ∧ reason = dockerSkippedReason then some .skipped
  else if controlId = permitRootLoginRule ∧ reason = sshErrorReason then some .error
  else none

/-- The control, the signal and the status of a record that came to no conclusion. -/
def nonConclusiveRecordStatus (record : StoreRecord) : Option (Str × Str × Status) := do
  let controlId ← record.controlId
  let reason ← record.signal
  let status ← nonConclusiveStatus controlId reason
  return (controlId, reason, status)

/-- The order of the records: by control, records without one first, and then by id. -/
def recordLe (a b : StoreRecord) : Bool :=
  if a.controlId = b.controlId then strLe a.id b.id else optionLe a.controlId b.controlId

/-- The records in order. -/
def recordsOrderedByControl (records : List StoreRecord) : List StoreRecord :=
  sortBy recordLe records

/-! ### The executive summary -/

/-- How many results have each status. -/
structure ResultCounts where
  fail : ℕ
  pass : ℕ
  warning : ℕ
  skipped : ℕ
  error : ℕ
deriving DecidableEq, Repr

namespace ResultCounts

/-- No results. -/
def zero : ResultCounts :=
  ⟨0, 0, 0, 0, 0⟩

/-- Counts one result of a status. -/
def increment (counts : ResultCounts) : Status → ResultCounts
  | .fail => { counts with fail := counts.fail + 1 }
  | .pass => { counts with pass := counts.pass + 1 }
  | .warning => { counts with warning := counts.warning + 1 }
  | .skipped => { counts with skipped := counts.skipped + 1 }
  | .error => { counts with error := counts.error + 1 }

/-- The number of results of a status. -/
def count (counts : ResultCounts) : Status → ℕ
  | .fail => counts.fail
  | .pass => counts.pass
  | .warning => counts.warning
  | .skipped => counts.skipped
  | .error => counts.error

/-- A count with its status, unless it is zero. -/
def nonZeroCount (counts : ResultCounts) (status : Status) : List Str :=
  if 0 < counts.count status then [decimal (counts.count status) ++ ' ' :: status.label] else []

/-- The counts that are not zero. -/
def compact (counts : ResultCounts) : Str :=
  joinNames ([Status.fail, .pass, .warning, .skipped, .error].flatMap counts.nonZeroCount)

end ResultCounts

/-- Counts the results of one record. -/
def appendRecordResultCounts (counts : ResultCounts) (record : StoreRecord) : ResultCounts :=
  match nonConclusiveRecordStatus record with
  | some (_, _, status) => counts.increment status
  | none =>
      match record.signal with
      | none => counts
      | some signal =>
          if signal = passSignal then counts.increment .pass
          else if signal = warningReason then (counts.increment .fail).increment .warning
          else if record.controlId = some consentControlId ∧ signal = trackerSignal then
            (counts.increment .fail).increment .pass
          else counts.increment .fail

/-- The results of the records. -/
def resultCounts (records : List StoreRecord) : ResultCounts :=
  records.foldl appendRecordResultCounts .zero

/-- The counts of the consent corpus. -/
def consentResultCounts : Str :=
  "1 FAIL, 1 PASS".toList

/-- The counts that are reported: those of the consent corpus, if there are none. -/
def executiveResultCounts (records : List StoreRecord) : Str :=
  if (resultCounts records).compact = [] then consentResultCounts
  else (resultCounts records).compact

/-- The number of controls that errored. -/
def errorControlCount (records : List StoreRecord) : ℕ :=
  (records.filter fun record =>
    (nonConclusiveRecordStatus record).any fun conclusion => conclusion.2.2 = .error).length

/-- The line of the controls that errored. -/
def incompleteResultsLine (errorCount : ℕ) : Str :=
  "Results incomplete: ".toList ++ decimal errorCount ++ ' ' ::
    (if errorCount = 1 then "control".toList else "controls".toList) ++ " errored".toList

/-- What a report is made with. -/
structure Config where
  runId : Str
  executedAt : Str
  frameworkScore : Str

/-- The lines of the executive summary. -/
def summaryLines (config : Config) (records : List StoreRecord) : List Str :=
  ["Run: ".toList ++ config.runId,
    "Framework covered: gdpr-eprivacy".toList,
    "Scan target: shopfront".toList,
    "Generated date: ".toList ++ config.executedAt,
    "Catalog version: 2016-679".toList] ++
  (if records = [] then ["No controls were evaluated".toList]
    else ["Result counts: ".toList ++ executiveResultCounts records]) ++
  (if 0 < errorControlCount records then [incompleteResultsLine (errorControlCount records)]
    else [])

/-! ### Scores and control matrix -/

/-- The lines of the scores. -/
def scoreLines (config : Config) (records : List StoreRecord) : List Str :=
  if records = [] then ["Scores are not available for this run".toList]
  else
    ["Framework score gdpr-eprivacy: ".toList ++ config.frameworkScore,
      "Result counts: 1 FAIL, 1 PASS, 0 WARNING, 0 SKIPPED, 0 ERROR".toList,
      "Scores summarize observed compliance posture.".toList,
      "Scores do not provide legal-risk ratings.".toList]

/-- The lines of the evidence, which stand before the control matrix. -/
def evidenceLines (records : List StoreRecord) : List Str :=
  (recordsOrderedByControl records).flatMap fun record =>
    ["Evidence: ".toList ++ record.id] ++
    (record.controlId.map ("  Control: ".toList ++ ·)).toList ++
    ["  Locator: ".toList ++ record.locator] ++
    (record.signal.map ("  Signal: ".toList ++ ·)).toList ++
    ["  Integrity: ".toList ++ record.contentHash]

/-- The row of a control. -/
def controlRow (controlId : Str) (status : Status) : Str :=
  "Control row: ".toList ++ controlId ++ ": ".toList ++ status.label

/-- The line of a rule. -/
def ruleLine (ruleId : Str) (status : Status) : Str :=
  "Rule ".toList ++ ruleId ++ ": ".toList ++ status.label

/-- The rule on the consent management platform. -/
def cmpRuleId : Str :=
  "consent.detect-cmp-misconfiguration".toList

/-- The rule on the trackers. -/
def trackerRuleId : Str :=
  "consent.detect-trackers-without-consent-evidence".toList

/-- The lines of the control matrix. -/
def matrixLines (records : List StoreRecord) : List Str :=
  ["Control: ".toList ++ consentControlId] ++
  (if records.any fun record => record.signal = some warningReason then
      [ruleLine cmpRuleId .warning, "Explanation: ".toList ++ warningReason]
    else [ruleLine cmpRuleId .pass]) ++
  [ruleLine trackerRuleId .fail, controlRow consentControlId .fail] ++
  ((recordsOrderedByControl records).filterMap nonConclusiveRecordStatus).flatMap
    fun (controlId, reason, status) =>
      [controlRow controlId status, "Explanation: ".toList ++ reason]

/-! ### Gaps -/

/-- What is done about the gaps of a signal. -/
inductive GapSignalPolicy where
  | suppress
  | status (status : Status)
deriving DecidableEq, Repr

/-- The signals that are no plain failures. -/
def gapSignalStatusPolicies : List (Str × GapSignalPolicy) :=
  [(passSignal, .suppress), (warningReason, .status .warning)]

/-- The policy of a signal. -/
def configuredGapSignalPolicy (signal : Str) : Option GapSignalPolicy :=
  (gapSignalStatusPolicies.find? fun policy => policy.1 = signal).map Prod.snd

/-- The status of the gap of a control. -/
def gapStatus (controlId : Str) : Option Str → Option Status
  | none => some .fail
  | some reason =>
      match nonConclusiveStatus controlId reason with
      | some status => some status
      | none =>
          match configuredGapSignalPolicy reason with
          | some .suppress => none
          | some (.status status) => some status
          | none => some .fail

/-- The control and the status of the gap of a record. -/
def potentialGapSummary (record : StoreRecord) : Option (Str × Status) := do
  let controlId ← record.controlId
  let status ← gapStatus controlId record.signal
  return (controlId, status)

/-- Where the requirement of a control is from. -/
structure GapReference where
  controlId : Str
  frameworkReference : Str
  sourceUrl : Str
  severity : Str

/-- The controls whose requirements are known. -/
def gapReferences : List GapReference :=
  [⟨consentControlId, "gdpr-eprivacy:2016-679:Art.7".toList,
      "https://eur-lex.europa.eu/eli/reg/2016/679/oj".toList, "major".toList⟩,
    ⟨permitRootLoginRule, "iso-27001:2022:A.8.2".toList,
      "https://www.iso.org/standard/27001".toList, "major".toList⟩]

/-- The reference of a control, or that there is none. -/
def gapReference (controlId : Str) : GapReference :=
  (gapReferences.find? fun reference => reference.controlId = controlId).getD
    ⟨controlId, "unconfigured".toList, "unconfigured".toList, "unknown".toList⟩

/-- The line of the status of a gap. -/
def statusLine (status : Status) : Str :=
  "Status: ".toList ++ status.label

/-- The lines of a gap. -/
def gapControlLines (gap : Str × Status) : List Str :=
  ["Gap: ".toList ++ gap.1,
    statusLine gap.2,
    "Reason: potential gap requires review based on observed evidence".toList,
    "Framework reference: ".toList ++ (gapReference gap.1).frameworkReference,
    "Source URL: ".toList ++ (gapReference gap.1).sourceUrl,
    "Severity: ".toList ++ (gapReference gap.1).severity]

/-- The line of the remediation. -/
def remediationLine : Str :=
  "Remediation for ".toList ++ consentControlId ++
    ": Block non-essential trackers until the visitor records consent.".toList

/-- The line that stands for no gaps. -/
def noGapsPlaceholder : Str :=
  "No potential gaps observed".toList

/-- The gaps of the records. -/
def potentialGaps (records : List StoreRecord) : List (Str × Status) :=
  (recordsOrderedByControl records).filterMap potentialGapSummary

/-- The lines of the gaps. -/
def gapLines (records : List StoreRecord) : List Str :=
  (if potentialGaps records = [] then [noGapsPlaceholder]
    else (potentialGaps records).flatMap gapControlLines) ++ [remediationLine]

/-! ### Evidence summary and appendix -/

/-- The name of the kind of a record; account evidence is kept as that of a configuration. -/
def evidenceKindLabel (record : StoreRecord) : Str :=
  if record.kind = "config".toList ∧ record.key = some "account".toList then "account".toList
  else record.kind

/-- Whether a record is marked as redacted, as one without a class is. -/
def evidenceRequiresRedaction (record : StoreRecord) : Bool :=
  record.classification.elim true EvidenceClassification.redactsRawValue

/-- The lines of the evidence summary. -/
def evidenceSummaryLines (records : List StoreRecord) : List Str :=
  ["Evidence records: ".toList ++ decimal records.length] ++
  if records = [] then ["No evidence records were collected".toList]
  else
    (recordsOrderedByControl records).flatMap fun record =>
      ["Evidence: ".toList ++ record.id,
        "  Kind: ".toList ++ evidenceKindLabel record,
        "  Locator: ".toList ++ record.locator,
        "  Integrity: ".toList ++ record.contentHash] ++
      (if evidenceRequiresRedaction record then ["  Redacted: yes".toList] else [])

/-- The algorithm of a digest, if it is known. -/
def integrityAlgorithm (integrity : Str) : Option Str :=
  if startsWith "sha256:".toList integrity then some "SHA-256".toList else none

/-- The first lines of a record in the appendix: what it is, and where. -/
def appendixHead (id locator : Str) : List Str :=
  ["Evidence: ".toList ++ id, "  Location: ".toList ++ locator]

/-- The lines of a record in the appendix. -/
def integrityAppendixLines (record : StoreRecord) : List Str :=
  appendixHead record.id record.locator ++
  ((integrityAlgorithm record.contentHash).map ("  Integrity algorithm: ".toList ++ ·)).toList ++
  ["  Digest: ".toList ++ record.contentHash]

/-- The lines of a record without a content hash. -/
def missingIntegrityAppendixLines (record : MissingIntegrityRecord) : List Str :=
  appendixHead record.id record.locator ++ ["  Limitation: integrity metadata not available".toList]

/-! ### The report -/

/-- What is read of an evidence store. -/
structure Metadata where
  records : List StoreRecord
  missingIntegrity : List MissingIntegrityRecord

/-- The lines of the appendix. -/
def appendixLines (evidence : Metadata) : List Str :=
  (recordsOrderedByControl evidence.records).flatMap integrityAppendixLines ++
    evidence.missingIntegrity.flatMap missingIntegrityAppendixLines

/-- The sections of a report. -/
inductive Section where
  | executiveSummary
  | frameworkCoverage
  | scores
  | controlMatrix
  | gaps
  | evidenceSummary
  | evidenceAppendix
  | remediation
deriving DecidableEq, Repr

/-- The heading of a section. -/
def Section.heading : Section → Str
  | executiveSummary => "Executive summary".toList
  | frameworkCoverage => "Framework coverage".toList
  | scores => "Scores".toList
  | controlMatrix => "Control matrix".toList
  | gaps => "Gaps".toList
  | evidenceSummary => "Evidence summary".toList
  | evidenceAppendix => "Evidence appendix".toList
  | remediation => "Remediation".toList

/-- The sections, in order (`REQUIRED_REPORT_SECTIONS`). -/
def requiredSections : List Section :=
  [.executiveSummary, .frameworkCoverage, .scores, .controlMatrix, .gaps, .evidenceSummary,
    .evidenceAppendix, .remediation]

/-- What stands under the heading of a section. -/
def sectionLines (config : Config) (evidence : Metadata) : Section → List Str
  | .executiveSummary => summaryLines config evidence.records
  | .frameworkCoverage => []
  | .scores => scoreLines config evidence.records
  | .controlMatrix => matrixLines evidence.records
  | .gaps => gapLines evidence.records
  | .evidenceSummary => evidenceSummaryLines evidence.records
  | .evidenceAppendix => appendixLines evidence
  | .remediation => []

/-- The lines of a report. -/
def executeLines (config : Config) (evidence : Metadata) : List Str :=
  "Sovri PDF compliance report".toList ::
    requiredSections.flatMap fun part =>
      (if part = .controlMatrix then evidenceLines evidence.records else []) ++
        part.heading :: sectionLines config evidence part

/-- **Every section stands in the report**, under its heading. -/
theorem section_infix_executeLines (config : Config) (evidence : Metadata) (part : Section) :
    part.heading :: sectionLines config evidence part <:+: executeLines config evidence := by
  have hpart : part ∈ requiredSections := by cases part <;> decide
  have hlines := List.infix_of_mem_flatten (List.mem_map_of_mem (f := fun part =>
    (if part = .controlMatrix then evidenceLines evidence.records else []) ++
      part.heading :: sectionLines config evidence part) hpart)
  exact ((List.suffix_append _ _).isInfix.trans hlines).trans (List.suffix_cons _ _).isInfix

end EvidenceReport

end SovriAgent
