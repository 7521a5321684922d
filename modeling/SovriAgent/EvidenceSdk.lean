import SovriAgent.Database

/-!
# What the Scanners Use of the SDK

Evidence records and their builder, and the evaluations a rule is answered with. Both are code
of the SDK: the builder is a parameter, and what the agent relies on is stated about it.
-/

namespace SovriAgent

/-! ### Evidence -/

/-- The kinds of evidence the agent collects. -/
inductive EvidenceKind where
  | command
  | config
  | routeBuild
deriving DecidableEq, Repr

/-- The confidentiality class of collected evidence. -/
inductive EvidenceClassification where
  | secret
  | sensitive
  | isPublic
deriving DecidableEq, Repr

/-- Whether the raw value of a class is dropped (`redacts_raw_value`). -/
def EvidenceClassification.redactsRawValue : EvidenceClassification → Bool
  | .secret => true
  | .sensitive => true
  | .isPublic => false

/-- An evidence record of the SDK. Its digest is never empty, and like the size it is kept for
content that is dropped. What no scanner sets (a line, a signal, a control) is left out. -/
structure StoredEvidence where
  id : Str
  kind : EvidenceKind
  locator : Str
  key : Option Str
  classification : Option EvidenceClassification
  excerpt : Option Str
  sizeBytes : Option ℕ
  contentHash : Str
  contentHash_ne : contentHash ≠ []
deriving DecidableEq

/-- What an evidence record is built from. -/
structure EvidenceBuilder where
  id : Str
  kind : EvidenceKind
  locator : Str
  key : Option Str
  classification : Option EvidenceClassification
  content : Str
deriving DecidableEq

/-- The evidence builder of the SDK, which may refuse what it is given, and the text of a
kind. -/
structure EvidenceSdk where
  build : EvidenceBuilder → Option StoredEvidence
  kindText : EvidenceKind → Str

/-- The records that are built of some evidence; what the builder refuses is left out. -/
def EvidenceSdk.collect (sdk : EvidenceSdk) (builders : List EvidenceBuilder) :
    List StoredEvidence :=
  builders.filterMap sdk.build

/-- A text that is not blank. -/
def NonBlank (text : Str) : Prop :=
  trim text ≠ []

instance (text : Str) : Decidable (NonBlank text) :=
  inferInstanceAs (Decidable (trim text ≠ []))

/-- The builder succeeds for an id, a locator and a key that are not blank, and keeps the id. -/
structure EvidenceSdk.Builds (sdk : EvidenceSdk) : Prop where
  succeeds : ∀ builder, NonBlank builder.id → NonBlank builder.locator →
    (∀ key, builder.key = some key → NonBlank key) → ∃ record, sdk.build builder = some record
  id : ∀ builder record, sdk.build builder = some record → record.id = builder.id

/-- The builder keeps what identifies a record, drops the excerpt of what is secret or
sensitive, and refuses nothing for its content. -/
structure EvidenceSdk.Redacts (sdk : EvidenceSdk) : Prop where
  builds : ∀ builder content record, sdk.build builder = some record →
    ∃ record', sdk.build { builder with content := content } = some record'
  keeps : ∀ builder record, sdk.build builder = some record →
    record.id = builder.id ∧ record.kind = builder.kind ∧ record.locator = builder.locator ∧
      record.key = builder.key ∧ record.classification = builder.classification
  redacts : ∀ builder record, sdk.build builder = some record →
    builder.classification.any EvidenceClassification.redactsRawValue → record.excerpt = none

/-- A builder that refuses what is blank, and records the size of the content. The digest of a
record is its content, marked as one. -/
def keepingSdk : EvidenceSdk where
  build := fun builder =>
    if NonBlank builder.id ∧ NonBlank builder.locator ∧
        builder.key.all (fun key => decide (NonBlank key)) then
      some
        { id := builder.id
          kind := builder.kind
          locator := builder.locator
          key := builder.key
          classification := builder.classification
          excerpt :=
            if builder.classification.any EvidenceClassification.redactsRawValue then none
            else some builder.content
          sizeBytes := some (byteLen builder.content)
          contentHash := '#' :: builder.content
          contentHash_ne := List.cons_ne_nil _ _ }
    else none
  kindText := fun
    | .command => "command".toList
    | .config => "config".toList
    | .routeBuild => "route-build".toList

theorem keepingSdk_builds : keepingSdk.Builds where
  succeeds := by
    intro builder hid hlocator hkey
    have hkey : builder.key.all (fun key => decide (NonBlank key)) = true := by
      cases hbuilder : builder.key with
      | none => rfl
      | some key => exact decide_eq_true (hkey key hbuilder)
    exact ⟨_, if_pos ⟨hid, hlocator, hkey⟩⟩
  id := by
    intro builder record h
    obtain ⟨-, h⟩ := Option.ite_none_right_eq_some.mp h
    cases h
    rfl

theorem keepingSdk_redacts : keepingSdk.Redacts where
  builds := by
    intro builder content record h
    obtain ⟨hcomplete, -⟩ := Option.ite_none_right_eq_some.mp h
    exact ⟨_, if_pos hcomplete⟩
  keeps := by
    intro builder record h
    obtain ⟨-, h⟩ := Option.ite_none_right_eq_some.mp h
    cases h
    exact ⟨rfl, rfl, rfl, rfl, rfl⟩
  redacts := by
    intro builder record h hredacts
    obtain ⟨-, h⟩ := Option.ite_none_right_eq_some.mp h
    cases h
    exact if_pos hredacts

/-! ### Evaluations -/

/-- The outcome of an evaluation; the engine derives the status from it and the policy of the
rule. -/
inductive Outcome where
  | satisfied
  | finding
  | notApplicable (reason : Str)
deriving DecidableEq, Repr

/-- An evaluation of a rule. -/
structure Evaluation where
  outcome : Outcome
  evidenceRefs : List Str
  targets : List Str
  detail : Option Str
deriving DecidableEq, Repr

namespace Evaluation

/-- An evaluation of some outcome, and nothing else. -/
def plain (outcome : Outcome) : Evaluation :=
  ⟨outcome, [], [], none⟩

/-- The rule is satisfied. -/
def satisfied : Evaluation :=
  plain .satisfied

/-- The rule has a finding. -/
def finding : Evaluation :=
  plain .finding

/-- The rule does not apply. -/
def notApplicable (reason : Str) : Evaluation :=
  plain (.notApplicable reason)

/-- Cites evidence. -/
def withEvidenceRefs (evaluation : Evaluation) (refs : List Str) : Evaluation :=
  { evaluation with evidenceRefs := refs }

/-- Names the files it is about (`with_targets`). -/
def withTargets (evaluation : Evaluation) (files : List Str) : Evaluation :=
  { evaluation with targets := files }

/-- States the technical situation. -/
def withDetail (evaluation : Evaluation) (detail : Str) : Evaluation :=
  { evaluation with detail := some detail }

end Evaluation

/-- Why a rule could not be evaluated. -/
structure ExecutionFailure where
  message : Str
deriving DecidableEq, Repr

/-- The answer of a scanner to a rule. -/
abbrev Answer :=
  Except ExecutionFailure Evaluation

/-- What could not be determined, for a rule that needs it. -/
def failed {α : Type} (message : Str) : Except ExecutionFailure α :=
  .error ⟨message⟩

/-- An answer that the engine reports as a pass. -/
def Passes (answer : Answer) : Prop :=
  ∃ evaluation, answer = .ok evaluation ∧ evaluation.outcome = .satisfied

/-- Every evidence id an answer cites is the id of a record. -/
def Resolves (answer : Answer) (log : List StoredEvidence) : Prop :=
  ∀ evaluation, answer = .ok evaluation →
    ∀ ref ∈ evaluation.evidenceRefs, ∃ record ∈ log, record.id = ref

end SovriAgent
