import SovriAgent.ConcurrentOpen

/-!
# Upgrading Keeps the Corpus

The packaged migrations change the tables of a database with rows in place. No row is
deleted, and a value that is not empty is kept wherever its column existed before. By design
the run of a result row is repaired from the id of the row, which is taken as authoritative.

Where a partly migrated database had the snapshot columns of the run links already, the last
migration copies the stored metadata over them, without the guard its other back-fills have.
What such a column then holds is no part of what an upgrade keeps.

The proof relates the database before the upgrade to every database on the way. All steps
but the last three of migration 8 only fill values in (`FillStep`).

## Main results

* `Filled.step`, `Filled.migrated`: what fills keeps the rows and values of the old database.
* `upgrade_keeps_corpus`: what an upgrade keeps.
* `upgrade_repairs_values`: a partly migrated database in which values change.
-/

namespace SovriAgent

open Keyed Transaction Transaction.Tx

/-! ### The values of a row -/

/-- A stored value. -/
inductive Value where
  | null
  | text (s : Str)
  | integer (n : ℕ)
  deriving DecidableEq

/-- Whether a value is missing or an empty text. -/
def Value.isEmpty : Value → Bool
  | .null => true
  | .text s => s.isEmpty
  | .integer _ => false

/-- A nullable text. -/
def Value.ofText : Option Str → Value
  | none => .null
  | some s => .text s

/-- The value of a run row in a column beside its key. -/
def ScanRunRow.value (row : ScanRunRow) : ColumnName → Value
  | .executedAt => .text row.executedAt
  | _ => .null

/-- The value of a framework row in a column beside its key. -/
def FrameworkRow.value (row : FrameworkRow) : ColumnName → Value
  | .version => .text row.version
  | _ => .null

/-- The value of a result row in a column beside its key. -/
def ControlResultRow.value (row : ControlResultRow) : ColumnName → Value
  | .runId => .text row.runId
  | .controlId => .text row.controlId
  | .ruleId => .text row.ruleId
  | .status => .text row.status
  | .evidenceId => .text row.evidenceId
  | .frameworkId => .text row.frameworkId
  | .severity => .text row.severity
  | .weight => .integer row.weight.toNat
  | .reason => .ofText row.reason
  | .executedAt => .text row.executedAt
  | .executionMetadata => .text row.executionMetadata
  | _ => .null

/-- The value of a gap row in a column beside its key. -/
def GapRow.value (row : GapRow) : ColumnName → Value
  | .runId => .ofText row.runId
  | .status => .ofText row.status
  | .severity => .ofText row.severity
  | .controlId => .ofText row.controlId
  | .ruleId => .ofText row.ruleId
  | _ => .null

/-- The value of an evidence row in a column beside its key. -/
def EvidenceRow.value (row : EvidenceRow) : ColumnName → Value
  | .runId => .text row.runId
  | .digest => .text row.digest
  | .locator => .text row.locator
  | .classification => .text row.classification
  | _ => .null

/-- The value of an evidence link in a column beside its key. -/
def EvidenceLinkRow.value (row : EvidenceLinkRow) : ColumnName → Value
  | .kind => .text row.kind
  | .digest => .text row.digest
  | .locator => .text row.locator
  | .classification => .text row.classification
  | _ => .null

/-- The value of a framework link in a column beside its key. -/
def FrameworkLinkRow.value (row : FrameworkLinkRow) : ColumnName → Value
  | .version => .text row.version
  | .sourceUrl => .text row.sourceUrl
  | _ => .null

/-- The value of a control link in a column beside its key. -/
def ControlLinkRow.value (row : ControlLinkRow) : ColumnName → Value
  | .title => .text row.title
  | .severity => .text row.severity
  | .weight => .integer row.weight.toNat
  | .reference => .text row.reference
  | _ => .null

/-! ### What is kept -/

/-- Every value of a row that is not empty, in a column that existed, is kept, or is one of
the values its column may change to. -/
def ValuesKept {κ ν : Type} (old : Db) (table : TableName) (value : ν → ColumnName → Value)
    (changed : κ → ColumnName → Value → Prop) (key : κ) (row row' : ν) : Prop :=
  ∀ name, old.columnExists (table, name) = true → (value row name).isEmpty = false →
    value row' name = value row name ∨ changed key name (value row' name)

/-- Nothing changes. -/
def unchanged {κ : Type} : κ → ColumnName → Value → Prop :=
  fun _ _ _ => False

/-- The run of a result may become the run the id of its row encodes. -/
def repairedRun (rowId : Str) (name : ColumnName) (value : Value) : Prop :=
  name = .runId ∧ ∃ identity, controlResultIdentity rowId = some identity ∧
    value = .text identity.runId

/-- The version of a framework link may become the version of its framework. -/
def copiedVersion (frameworks : Table Str FrameworkRow) (key : Str × Str) (name : ColumnName)
    (value : Value) : Prop :=
  name = .version ∧ ∃ framework, frameworks.get key.2 = some framework ∧
    value = .text framework.version

/-- The severity and the weight of a control link may become those of one of its results. -/
def copiedResult (results : Table Str ControlResultRow) (key : Str × Str × Str)
    (name : ColumnName) (value : Value) : Prop :=
  ∃ rowId row, results.get rowId = some row ∧
    (row.runId, row.frameworkId, row.controlId) = key ∧
    (name = .severity ∧ row.severity ≠ [] ∧ value = .text row.severity ∨
      name = .weight ∧ value = .integer row.weight.toNat)

/-- The digest, the locator and the class of an evidence link may become the stored ones. -/
def copiedEvidence (metadata : Table Str EvidenceRow) (key : Str × Str) (name : ColumnName)
    (value : Value) : Prop :=
  ∃ stored, metadata.get key.2 = some stored ∧
    (name = .digest ∧ value = .text stored.digest ∨
      name = .locator ∧ value = .text stored.locator ∨
      name = .classification ∧ value = .text stored.classification)

/-- What is kept of a database: the rows of every table that existed, and in them the values
that are not empty, but for repaired runs and for what the links may change to. -/
structure Kept (old : Db) (evidenceLink : Str × Str → ColumnName → Value → Prop)
    (frameworkLink : Str × Str → ColumnName → Value → Prop)
    (controlLink : Str × Str × Str → ColumnName → Value → Prop) (db : Db) : Prop where
  columns : ∀ column, old.columnExists column = true → db.columnExists column = true
  scanRuns : old.tableExists .scanRuns = true →
    old.scanRuns.Carries (ValuesKept old .scanRuns ScanRunRow.value unchanged) db.scanRuns
  frameworks : old.tableExists .frameworks = true →
    old.frameworks.Carries (ValuesKept old .frameworks FrameworkRow.value unchanged)
      db.frameworks
  controls : old.tableExists .controls = true →
    old.controls.Carries (fun _ _ _ => True) db.controls
  controlResults : old.tableExists .controlResults = true →
    old.controlResults.Carries
      (ValuesKept old .controlResults ControlResultRow.value repairedRun) db.controlResults
  complianceGaps : old.tableExists .complianceGaps = true →
    old.complianceGaps.Carries (ValuesKept old .complianceGaps GapRow.value unchanged)
      db.complianceGaps
  evidenceMetadata : old.tableExists .evidenceMetadata = true →
    old.evidenceMetadata.Carries (ValuesKept old .evidenceMetadata EvidenceRow.value unchanged)
      db.evidenceMetadata
  runEvidenceLinks : old.tableExists .runEvidenceLinks = true →
    old.runEvidenceLinks.Carries
      (ValuesKept old .runEvidenceLinks EvidenceLinkRow.value evidenceLink) db.runEvidenceLinks
  runFrameworkLinks : old.tableExists .runFrameworkLinks = true →
    old.runFrameworkLinks.Carries
      (ValuesKept old .runFrameworkLinks FrameworkLinkRow.value frameworkLink)
      db.runFrameworkLinks
  runControlLinks : old.tableExists .runControlLinks = true →
    old.runControlLinks.Carries
      (ValuesKept old .runControlLinks ControlLinkRow.value controlLink) db.runControlLinks

/-- What filling keeps: also the values in the links of runs. -/
abbrev Filled (old db : Db) : Prop :=
  Kept old unchanged unchanged unchanged db

/-- What the steps of an upgrade leave: the values in the links of runs are as before, or are
the ones stored in the tables they are copied from. -/
abbrev Upgraded (old db : Db) : Prop :=
  Kept old (copiedEvidence db.evidenceMetadata) (copiedVersion db.frameworks)
    (copiedResult db.controlResults) db

/-- Nothing is said of the version of a framework link whose framework is stored. -/
def openVersion (frameworks : Table Str FrameworkRow) (key : Str × Str) (name : ColumnName)
    (_ : Value) : Prop :=
  name = .version ∧ ∃ framework, frameworks.get key.2 = some framework

/-- Nothing is said of the weight of a control link that has a result, and of its severity if
the result has one. -/
def openResult (results : Table Str ControlResultRow) (key : Str × Str × Str)
    (name : ColumnName) (_ : Value) : Prop :=
  ∃ rowId row, results.get rowId = some row ∧ (row.runId, row.frameworkId, row.controlId) = key ∧
    (name = .severity ∧ row.severity ≠ [] ∨ name = .weight)

/-- Nothing is said of the digest, the locator and the class of an evidence link whose evidence
is stored. -/
def openEvidence (metadata : Table Str EvidenceRow) (key : Str × Str) (name : ColumnName)
    (_ : Value) : Prop :=
  name ∈ [ColumnName.digest, .locator, .classification] ∧
    ∃ stored, metadata.get key.2 = some stored

/-- What an upgrade keeps. The snapshot columns of links are left open where there is something
stored to be copied. -/
abbrev CorpusKept (old db : Db) : Prop :=
  Kept old (openEvidence db.evidenceMetadata) (openVersion db.frameworks)
    (openResult db.controlResults) db

/-! ### Values that are filled in -/

/-- A change of a row that keeps the values that are not empty, or changes them to one their
column may change to. -/
def Fills {ν : Type} (value : ν → ColumnName → Value) (changed : ColumnName → Value → Prop)
    (row row' : ν) : Prop :=
  ∀ name, (value row name).isEmpty = false →
    value row' name = value row name ∨ changed name (value row' name)

section ValuesKept

variable {κ ν : Type} {old : Db} {table : TableName} {value : ν → ColumnName → Value}
  {changed : κ → ColumnName → Value → Prop} {key : κ} {row row' row'' : ν}

theorem ValuesKept.refl (row : ν) : ValuesKept old table value changed key row row :=
  fun _ _ _ => .inl rfl

/-- Values stay kept when more is filled in. -/
theorem ValuesKept.fills (h : ValuesKept old table value changed key row row')
    (hchanged : ∀ name v, changed key name v → v.isEmpty = false)
    (hfills : Fills value (changed key) row' row'') :
    ValuesKept old table value changed key row row'' := by
  intro name hcolumn hvalue
  rcases h name hcolumn hvalue with hsame | hnew
  · rw [← hsame] at hvalue ⊢
    exact hfills name hvalue
  · rcases hfills name (hchanged name _ hnew) with hsame | hnewer
    · exact .inr (hsame ▸ hnew)
    · exact .inr hnewer

/-- A column that did not exist may be set to its default. -/
theorem ValuesKept.clear (h : ValuesKept old table value changed key row row')
    {cleared : ColumnName} (hmissing : old.columnExists (table, cleared) = false)
    (hclear : ∀ name, name ≠ cleared → value row'' name = value row' name) :
    ValuesKept old table value changed key row row'' := by
  intro name hcolumn hvalue
  have hne : name ≠ cleared := by
    rintro rfl
    rw [hmissing] at hcolumn
    cases hcolumn
  rw [hclear name hne]
  exact h name hcolumn hvalue

/-- Values that are kept without change may then be changed once. -/
theorem ValuesKept.copied (h : ValuesKept old table value unchanged key row row')
    (hcopied : ∀ name, value row'' name = value row' name ∨ changed key name (value row'' name)) :
    ValuesKept old table value changed key row row'' := by
  intro name hcolumn hvalue
  rcases h name hcolumn hvalue with hsame | hnever
  · rw [← hsame]
    exact hcopied name
  · exact hnever.elim

/-- More columns may change. -/
theorem ValuesKept.mono (h : ValuesKept old table value changed key row row')
    {changed' : κ → ColumnName → Value → Prop}
    (hchanged : ∀ key name v, changed key name v → changed' key name v) :
    ValuesKept old table value changed' key row row' :=
  fun name hcolumn hvalue => (h name hcolumn hvalue).imp_right (hchanged key name _)

end ValuesKept

/-- A text that is not empty is kept. -/
theorem orElseText_eq {text other : Str} (h : (Value.text text).isEmpty = false) :
    orElseText text other = text := by
  rw [orElseText, if_neg]
  rintro rfl
  cases h

/-- The parts of an encoded identity are not empty. -/
theorem repairedRun_isEmpty {rowId : Str} (name : ColumnName) (value : Value)
    (h : repairedRun rowId name value) : value.isEmpty = false := by
  obtain ⟨-, identity, hidentity, rfl⟩ := h
  rw [controlResultIdentity, Option.bind_eq_some_iff] at hidentity
  obtain ⟨run, -, hidentity⟩ := hidentity
  obtain ⟨framework, -, hidentity⟩ := Option.bind_eq_some_iff.mp hidentity
  obtain ⟨control, -, hidentity⟩ := Option.bind_eq_some_iff.mp hidentity
  split at hidentity
  · next hparts =>
      obtain rfl := Option.some.inj hidentity
      simpa [Value.isEmpty] using hparts.1
  · cases hidentity

/-- The identity a row id encodes fills the control and the rule, and repairs the run. -/
theorem fills_withIdentity {rowId : Str} {identity : RowIdentity}
    (h : controlResultIdentity rowId = some identity) (row : ControlResultRow) :
    Fills ControlResultRow.value (repairedRun rowId) row (withIdentity identity row) := by
  intro name hvalue
  cases name with
  | runId => exact .inr ⟨rfl, identity, h, rfl⟩
  | controlId => exact .inl (congrArg Value.text (orElseText_eq hvalue))
  | ruleId => exact .inl (congrArg Value.text (orElseText_eq hvalue))
  | _ => exact .inl rfl

/-- The framework of a row is filled in. -/
theorem fills_withFramework (frameworkId rowId : Str) (row : ControlResultRow) :
    Fills ControlResultRow.value (repairedRun rowId) row (withFramework frameworkId row) := by
  intro name hvalue
  cases name with
  | frameworkId => exact .inl (congrArg Value.text (orElseText_eq hvalue))
  | _ => exact .inl rfl

/-- A change of one column, made where the column is empty. -/
theorem fills_column {ν : Type} {value : ν → ColumnName → Value}
    {changed : ColumnName → Value → Prop} {row row' : ν} {condition : Prop} [Decidable condition]
    (column : ColumnName) (hempty : condition → (value row column).isEmpty = true)
    (hsame : ∀ name, name ≠ column → value row' name = value row name) :
    Fills value changed row (if condition then row' else row) := by
  intro name hvalue
  split_ifs with hcondition
  · refine .inl (hsame name ?_)
    rintro rfl
    rw [hempty hcondition] at hvalue
    cases hvalue
  · exact .inl rfl

/-- The status of a row is filled in from its gap. -/
theorem fills_withGapStatus (gaps : Table Str GapRow) (rowId : Str) (row : ControlResultRow) :
    Fills ControlResultRow.value (repairedRun rowId) row (withGapStatus gaps row) := by
  refine fills_column .status (fun hempty => congrArg List.isEmpty hempty) fun name hne => ?_
  cases name with
  | status => exact absurd rfl hne
  | _ => rfl

/-- The severity of a row is filled in from its gap. -/
theorem fills_withGapSeverity (gaps : Table Str GapRow) (rowId : Str) (row : ControlResultRow) :
    Fills ControlResultRow.value (repairedRun rowId) row (withGapSeverity gaps row) := by
  refine fills_column .severity (fun hempty => congrArg List.isEmpty hempty) fun name hne => ?_
  cases name with
  | severity => exact absurd rfl hne
  | _ => rfl

/-- The time of a row is filled in from its run. -/
theorem fills_withRunExecutedAt (runs : Table Str ScanRunRow) (rowId : Str)
    (row : ControlResultRow) :
    Fills ControlResultRow.value (repairedRun rowId) row (withRunExecutedAt runs row) := by
  refine fills_column .executedAt (fun hempty => congrArg List.isEmpty hempty) fun name hne => ?_
  cases name with
  | executedAt => exact absurd rfl hne
  | _ => rfl

/-! ### Columns set to their default -/

theorem ScanRunRow.value_clear (row : ScanRunRow) {name cleared : ColumnName}
    (h : name ≠ cleared) : (row.clear cleared).value name = row.value name := by
  cases cleared <;> first | rfl | (cases name <;> first | rfl | exact absurd rfl h)

theorem ControlResultRow.value_clear (row : ControlResultRow) {name cleared : ColumnName}
    (h : name ≠ cleared) : (row.clear cleared).value name = row.value name := by
  cases cleared <;> first | rfl | (cases name <;> first | rfl | exact absurd rfl h)

theorem GapRow.value_clear (row : GapRow) {name cleared : ColumnName}
    (h : name ≠ cleared) : (row.clear cleared).value name = row.value name := by
  cases cleared <;> first | rfl | (cases name <;> first | rfl | exact absurd rfl h)

theorem EvidenceRow.value_clear (row : EvidenceRow) {name cleared : ColumnName}
    (h : name ≠ cleared) : (row.clear cleared).value name = row.value name := by
  cases cleared <;> first | rfl | (cases name <;> first | rfl | exact absurd rfl h)

theorem EvidenceLinkRow.value_clear (row : EvidenceLinkRow) {name cleared : ColumnName}
    (h : name ≠ cleared) : (row.clear cleared).value name = row.value name := by
  cases cleared <;> first | rfl | (cases name <;> first | rfl | exact absurd rfl h)

theorem FrameworkLinkRow.value_clear (row : FrameworkLinkRow) {name cleared : ColumnName}
    (h : name ≠ cleared) : (row.clear cleared).value name = row.value name := by
  cases cleared <;> first | rfl | (cases name <;> first | rfl | exact absurd rfl h)

theorem ControlLinkRow.value_clear (row : ControlLinkRow) {name cleared : ColumnName}
    (h : name ≠ cleared) : (row.clear cleared).value name = row.value name := by
  cases cleared <;> first | rfl | (cases name <;> first | rfl | exact absurd rfl h)

/-! ### What one step keeps -/

variable {old db db' : Db}

theorem Filled.refl (db : Db) : Filled db db where
  columns := fun _ h => h
  scanRuns := fun _ => .refl (fun _ => .refl) _
  frameworks := fun _ => .refl (fun _ => .refl) _
  controls := fun _ => .refl (fun _ _ => trivial) _
  controlResults := fun _ => .refl (fun _ => .refl) _
  complianceGaps := fun _ => .refl (fun _ => .refl) _
  evidenceMetadata := fun _ => .refl (fun _ => .refl) _
  runEvidenceLinks := fun _ => .refl (fun _ => .refl) _
  runFrameworkLinks := fun _ => .refl (fun _ => .refl) _
  runControlLinks := fun _ => .refl (fun _ => .refl) _

/-- A table that exists still does. -/
theorem Filled.tableExists (h : Filled old db) {table : TableName}
    (hexists : old.tableExists table = true) : db.tableExists table = true := by
  obtain ⟨column, hcolumn, rfl⟩ := of_decide_eq_true hexists
  exact decide_eq_true ⟨column, of_decide_eq_true (h.columns column (decide_eq_true hcolumn)), rfl⟩

/-- A change of the result rows that fills values in. -/
theorem Filled.updateResults (h : Filled old db) {f : Str → ControlResultRow → ControlResultRow}
    (hf : ∀ rowId row, Fills ControlResultRow.value (repairedRun rowId) row (f rowId row)) :
    Filled old { db with controlResults := db.controlResults.update f } :=
  { h with
    controlResults := fun hexists => (h.controlResults hexists).update fun _ _ _ _ hkept =>
      hkept.fills repairedRun_isEmpty (hf _ _) }

/-- A change of one result row that fills values in. -/
theorem Filled.updateResultAt (h : Filled old db) {rowId : Str}
    {f : ControlResultRow → ControlResultRow}
    (hf : ∀ row, Fills ControlResultRow.value (repairedRun rowId) row (f row)) :
    Filled old { db with controlResults := db.controlResults.updateAt rowId f } := by
  refine h.updateResults fun rowId' row => ?_
  split
  · next heq => exact heq ▸ hf row
  · exact fun _ _ => .inl rfl

/-- A column that does not exist yet. -/
theorem Filled.addColumn (h : Filled old db) {column : Column}
    (hmissing : db.columnExists column = false) : Filled old (addColumn column db) := by
  have hold : old.columnExists column = false := by
    rw [Bool.eq_false_iff] at hmissing ⊢
    exact fun hexists => hmissing (h.columns column hexists)
  have hcolumns := fun c hc => (grows_addColumn (List.mem_singleton_self column) db).keeps c
    (h.columns c hc)
  obtain ⟨table, name⟩ := column
  cases table with
  | scanRuns =>
      exact { h with
        columns := hcolumns
        scanRuns := fun hexists => (h.scanRuns hexists).update fun _ _ v _ hkept =>
          hkept.clear hold fun _ => v.value_clear }
  | frameworks => exact { h with columns := hcolumns }
  | controls => exact { h with columns := hcolumns }
  | controlResults =>
      exact { h with
        columns := hcolumns
        controlResults := fun hexists => (h.controlResults hexists).update fun _ _ v _ hkept =>
          hkept.clear hold fun _ => v.value_clear }
  | complianceGaps =>
      exact { h with
        columns := hcolumns
        complianceGaps := fun hexists => (h.complianceGaps hexists).update fun _ _ v _ hkept =>
          hkept.clear hold fun _ => v.value_clear }
  | evidenceMetadata =>
      exact { h with
        columns := hcolumns
        evidenceMetadata := fun hexists =>
          (h.evidenceMetadata hexists).update fun _ _ v _ hkept =>
            hkept.clear hold fun _ => v.value_clear }
  | runEvidenceLinks =>
      exact { h with
        columns := hcolumns
        runEvidenceLinks := fun hexists =>
          (h.runEvidenceLinks hexists).update fun _ _ v _ hkept =>
            hkept.clear hold fun _ => v.value_clear }
  | runFrameworkLinks =>
      exact { h with
        columns := hcolumns
        runFrameworkLinks := fun hexists =>
          (h.runFrameworkLinks hexists).update fun _ _ v _ hkept =>
            hkept.clear hold fun _ => v.value_clear }
  | runControlLinks =>
      exact { h with
        columns := hcolumns
        runControlLinks := fun hexists =>
          (h.runControlLinks hexists).update fun _ _ v _ hkept =>
            hkept.clear hold fun _ => v.value_clear }
  | scoreSummaries => exact { h with columns := hcolumns }

/-- A table that is created if it does not exist: none of the old ones is emptied. -/
theorem Filled.tableEnsured (h : Filled old db) (table : TableName) (names : List ColumnName) :
    Filled old (tableEnsured table names db) := by
  have hcolumns := fun c hc =>
    (grows_tableEnsured (List.Subset.refl (columnsOf table names)) db).keeps c (h.columns c hc)
  rw [SovriAgent.tableEnsured] at hcolumns ⊢
  split
  · exact h
  · next hmissing =>
    have hnew : ¬ old.tableExists table = true := fun hexists => hmissing (h.tableExists hexists)
    rw [if_neg hmissing] at hcolumns
    cases table with
    | scanRuns => exact { h with columns := hcolumns, scanRuns := fun hexists => (hnew hexists).elim }
    | frameworks => exact { h with columns := hcolumns, frameworks := fun hexists => (hnew hexists).elim }
    | controls => exact { h with columns := hcolumns, controls := fun hexists => (hnew hexists).elim }
    | controlResults =>
        exact { h with columns := hcolumns, controlResults := fun hexists => (hnew hexists).elim }
    | complianceGaps =>
        exact { h with columns := hcolumns, complianceGaps := fun hexists => (hnew hexists).elim }
    | evidenceMetadata =>
        exact { h with columns := hcolumns, evidenceMetadata := fun hexists => (hnew hexists).elim }
    | runEvidenceLinks =>
        exact { h with columns := hcolumns, runEvidenceLinks := fun hexists => (hnew hexists).elim }
    | runFrameworkLinks =>
        exact { h with columns := hcolumns, runFrameworkLinks := fun hexists => (hnew hexists).elim }
    | runControlLinks =>
        exact { h with columns := hcolumns, runControlLinks := fun hexists => (hnew hexists).elim }
    | scoreSummaries => exact { h with columns := hcolumns }

/-- **A step that fills** keeps what was kept so far. -/
theorem Filled.step {columns : List Column} (h : Filled old db) (hstep : FillStep columns db db') :
    Filled old db' := by
  cases hstep with
  | addColumn column _ _ hmissing => exact h.addColumn hmissing
  | createTable table names _ _ => exact h.tableEnsured table names
  | evidenceLinks keys =>
      exact { h with
        runEvidenceLinks := fun hexists => (h.runEvidenceLinks hexists).insertAll _ _ keys }
  | frameworkLinks keys =>
      exact { h with
        runFrameworkLinks := fun hexists => (h.runFrameworkLinks hexists).insertAll _ _ keys }
  | controlLinks keys =>
      exact { h with
        runControlLinks := fun hexists => (h.runControlLinks hexists).insertAll _ _ keys }
  | identity rowId identity _ hidentity => exact h.updateResultAt (fills_withIdentity hidentity)
  | gapStatus => exact h.updateResults (fills_withGapStatus db.complianceGaps)
  | framework rowId identity => exact h.updateResultAt (fills_withFramework _ rowId)
  | gapSeverity => exact h.updateResults (fills_withGapSeverity db.complianceGaps)
  | runExecutedAt => exact h.updateResults (fills_withRunExecutedAt db.scanRuns)

/-- Any steps that fill keep what was kept so far. -/
theorem Filled.steps {columns : List Column} (h : Filled old db)
    (hsteps : FillSteps columns db db') : Filled old db' := by
  induction hsteps with
  | refl => exact h
  | tail _ hstep ih => exact ih.step hstep

/-! ### The metadata of the links -/

/-- The first row in the order of a key is a row that satisfies the condition. -/
theorem get_of_firstBy {ν : Type} {key : Str × ν → Str} {p : Str × ν → Bool} {t : Table Str ν}
    {r : Str × ν} (h : firstBy key p t = some r) : t.get r.1 = some r.2 ∧ p r = true := by
  have hmem := List.mem_of_mem_head? h
  rw [sortBy, (List.perm_insertionSort _ _).mem_iff, List.mem_filter] at hmem
  exact ⟨Table.mem_rows_iff.mp hmem.1, hmem.2⟩

/-- The result a link is filled from is one of the link. -/
theorem resultOfLink_eq_some {p : ControlResultRow → Bool} {results : Table Str ControlResultRow}
    {key : Str × Str × Str} {row : ControlResultRow} (h : resultOfLink p results key = some row) :
    ∃ rowId, results.get rowId = some row ∧ (row.runId, row.frameworkId, row.controlId) = key ∧
      p row = true := by
  obtain ⟨⟨rowId, row'⟩, hfirst, rfl⟩ := Option.map_eq_some_iff.mp h
  obtain ⟨hget, hlink⟩ := get_of_firstBy hfirst
  obtain ⟨hrun, hframework, hcontrol, hp⟩ := of_decide_eq_true hlink
  exact ⟨rowId, hget, Prod.ext hrun (Prod.ext hframework hcontrol), hp⟩

/-- A framework link gets the version that is stored. -/
theorem copied_withFrameworkVersion (frameworks : Table Str FrameworkRow) (key : Str × Str)
    (row : FrameworkLinkRow) (name : ColumnName) :
    (withFrameworkVersion frameworks key row).value name = row.value name ∨
      copiedVersion frameworks key name ((withFrameworkVersion frameworks key row).value name) := by
  cases name with
  | version =>
      rcases hget : frameworks.get key.2 with _ | framework
      · simp [withFrameworkVersion, hget]
      · exact .inr ⟨rfl, framework, hget, by simp [withFrameworkVersion, hget, FrameworkLinkRow.value]⟩
  | _ => exact .inl rfl

/-- A control link gets the severity and the weight of a result. -/
theorem copied_withResultMetadata (results : Table Str ControlResultRow) (key : Str × Str × Str)
    (row : ControlLinkRow) (name : ColumnName) :
    (withResultMetadata results key row).value name = row.value name ∨
      copiedResult results key name ((withResultMetadata results key row).value name) := by
  cases name with
  | severity =>
      simp only [withResultMetadata, ControlLinkRow.value]
      rcases hlink : resultOfLink (·.severity ≠ []) results key with _ | result
      · exact .inl rfl
      · obtain ⟨rowId, hget, hkey, hp⟩ := resultOfLink_eq_some hlink
        exact .inr ⟨rowId, result, hget, hkey, .inl ⟨rfl, of_decide_eq_true hp, rfl⟩⟩
  | weight =>
      simp only [withResultMetadata, ControlLinkRow.value]
      rcases hlink : resultOfLink (fun _ => true) results key with _ | result
      · exact .inl rfl
      · obtain ⟨rowId, hget, hkey, -⟩ := resultOfLink_eq_some hlink
        exact .inr ⟨rowId, result, hget, hkey, .inr ⟨rfl, rfl⟩⟩
  | _ => exact .inl rfl

/-- An evidence link gets what is stored of the evidence. -/
theorem copied_withEvidenceMetadata (metadata : Table Str EvidenceRow) (key : Str × Str)
    (row : EvidenceLinkRow) (name : ColumnName) :
    (withEvidenceMetadata metadata key row).value name = row.value name ∨
      copiedEvidence metadata key name ((withEvidenceMetadata metadata key row).value name) := by
  rw [withEvidenceMetadata]
  split
  · exact .inl rfl
  · next stored hget =>
      cases name with
      | digest => exact .inr ⟨stored, hget, .inl ⟨rfl, rfl⟩⟩
      | locator => exact .inr ⟨stored, hget, .inr (.inl ⟨rfl, rfl⟩)⟩
      | classification => exact .inr ⟨stored, hget, .inr (.inr ⟨rfl, rfl⟩)⟩
      | _ => exact .inl rfl

/-- What filling keeps, an upgrade keeps. -/
theorem Filled.upgraded (h : Filled old db) : Upgraded old db :=
  { h with
    runEvidenceLinks := fun hexists => (h.runEvidenceLinks hexists).mono fun _ _ _ hkept =>
      hkept.copied fun _ => .inl rfl
    runFrameworkLinks := fun hexists => (h.runFrameworkLinks hexists).mono fun _ _ _ hkept =>
      hkept.copied fun _ => .inl rfl
    runControlLinks := fun hexists => (h.runControlLinks hexists).mono fun _ _ _ hkept =>
      hkept.copied fun _ => .inl rfl }

/-- The metadata of the links is copied from tables that stay. -/
theorem Filled.snapshotMetadata (h : Filled old db) : Upgraded old (snapshotMetadata db) :=
  { h with
    runEvidenceLinks := fun hexists => (h.runEvidenceLinks hexists).update fun _ _ _ _ hkept =>
      hkept.copied (copied_withEvidenceMetadata _ _ _)
    runFrameworkLinks := fun hexists => (h.runFrameworkLinks hexists).update fun _ _ _ _ hkept =>
      hkept.copied (copied_withFrameworkVersion _ _ _)
    runControlLinks := fun hexists => (h.runControlLinks hexists).update fun _ _ _ _ hkept =>
      hkept.copied (copied_withResultMetadata _ _ _) }

/-! ### What an upgrade keeps -/

/-- **A migration before the last one** keeps what was kept so far. -/
theorem Filled.migrated {engine : Engine} {migration : PackagedMigration} (h : Filled old db)
    (hpackaged : migration ∈ packagedMigrations.dropLast)
    (hmigrated : Migrated engine migration db db') : Filled old db' := by
  obtain ⟨body, hbody, -, -, rfl⟩ := hmigrated
  have hledger : Filled old (ledgerEnsured db) := { h with }
  have hfilled := hledger.steps (moves_fillingBody engine hpackaged _ _ _ hbody)
  exact { hfilled with }

/-- The last migration. -/
theorem Filled.reconstructed {engine : Engine} (h : Filled old db)
    (hmigrated : Migrated engine exportReconstructionMigration db db') : Upgraded old db' := by
  obtain ⟨body, hbody, -, -, rfl⟩ := hmigrated
  have hledger : Filled old (ledgerEnsured db) := { h with }
  rw [migrationBody_exportReconstruction] at hbody
  obtain ⟨filled, hsteps, rfl⟩ := runs_exportReconstruction hbody
  exact { (hledger.steps hsteps).snapshotMetadata with }

/-- A pass over packaged migrations in ascending order; the last one is executed last. -/
theorem Filled.pass {engine : Engine} {migrations : List PackagedMigration} (h : Filled old db)
    (hpass : Pass engine migrations db db')
    (hpackaged : ∀ migration ∈ migrations, migration ∈ packagedMigrations)
    (hascending : migrations.Pairwise (·.version < ·.version)) : Upgraded old db' := by
  induction hpass with
  | done => exact h.upgraded
  | skip _ _ ih =>
      exact ih h (fun m hm => hpackaged m (List.mem_cons_of_mem _ hm))
        (List.pairwise_cons.mp hascending).2
  | @execute migration migrations faults db db₁ db' hpending _ happly hrest ih =>
      have hmigrated := migrated_of_pending happly hpending
      rcases mem_packagedMigrations_iff.mp (hpackaged _ List.mem_cons_self) with hbefore | rfl
      · exact ih (h.migrated hbefore hmigrated)
          (fun m hm => hpackaged m (List.mem_cons_of_mem _ hm)) (List.pairwise_cons.mp hascending).2
      · have hlast : migrations = [] := by
          refine List.eq_nil_iff_forall_not_mem.mpr fun m hm => ?_
          have hlater := (List.pairwise_cons.mp hascending).1 m hm
          have hle : ∀ m ∈ packagedMigrations, m.version ≤ 8 := by decide
          exact absurd (hle m (hpackaged m (List.mem_cons_of_mem _ hm))) (not_le.mpr hlater)
        subst hlast
        cases hrest
        exact h.reconstructed hmigrated

/-- What an upgrade leaves, whether or not it fails on the way. -/
theorem applyPackagedMigrations_upgraded (engine : Engine) (faults : ℕ → MigrationFaults)
    (db : Db) : Upgraded db (applyPackagedMigrations engine packagedMigrations faults db).2 := by
  obtain ⟨passed, left, hstack, hpass, -⟩ := applyPackagedMigrations_passes
    (Prod.mk.eta (p := applyPackagedMigrations engine packagedMigrations faults db)).symm
  have hascending : packagedMigrations.Pairwise (·.version < ·.version) := by decide
  refine (Filled.refl db).pass hpass (fun m hm => ?_) ?_
  · exact hstack ▸ List.mem_append_left left hm
  · exact (List.pairwise_append.mp (hstack ▸ hascending)).1

theorem openEvidence_of_copied {metadata : Table Str EvidenceRow} (key : Str × Str)
    (name : ColumnName) (v : Value) (h : copiedEvidence metadata key name v) :
    openEvidence metadata key name v := by
  obtain ⟨stored, hstored, ⟨rfl, -⟩ | ⟨rfl, -⟩ | ⟨rfl, -⟩⟩ := h
  · exact ⟨by decide, stored, hstored⟩
  · exact ⟨by decide, stored, hstored⟩
  · exact ⟨by decide, stored, hstored⟩

theorem openVersion_of_copied {frameworks : Table Str FrameworkRow} (key : Str × Str)
    (name : ColumnName) (v : Value) (h : copiedVersion frameworks key name v) :
    openVersion frameworks key name v := by
  obtain ⟨hname, framework, hframework, -⟩ := h
  exact ⟨hname, framework, hframework⟩

theorem openResult_of_copied {results : Table Str ControlResultRow} (key : Str × Str × Str)
    (name : ColumnName) (v : Value) (h : copiedResult results key name v) :
    openResult results key name v := by
  obtain ⟨rowId, row, hrow, hkey, ⟨hname, hseverity, -⟩ | ⟨hname, -⟩⟩ := h
  · exact ⟨rowId, row, hrow, hkey, .inl ⟨hname, hseverity⟩⟩
  · exact ⟨rowId, row, hrow, hkey, .inr hname⟩

/-- Whatever is copied into a link, the rest is kept. -/
theorem Upgraded.corpusKept (h : Upgraded old db) : CorpusKept old db :=
  { h with
    runEvidenceLinks := fun hexists => (h.runEvidenceLinks hexists).mono fun _ _ _ hkept =>
      hkept.mono openEvidence_of_copied
    runFrameworkLinks := fun hexists => (h.runFrameworkLinks hexists).mono fun _ _ _ hkept =>
      hkept.mono openVersion_of_copied
    runControlLinks := fun hexists => (h.runControlLinks hexists).mono fun _ _ _ hkept =>
      hkept.mono openResult_of_copied }

/-- **An upgrade keeps the corpus.** Whatever the database, and whether or not the upgrade
fails on the way: no row of a table that existed is lost, and a value that is not empty, in a
column that existed, changes only where the run of a result is repaired. -/
theorem upgrade_keeps_corpus (engine : Engine) (faults : ℕ → MigrationFaults) (db : Db) :
    CorpusKept db (applyPackagedMigrations engine packagedMigrations faults db).2 :=
  (applyPackagedMigrations_upgraded engine faults db).corpusKept

/-- A database at version 4 that was partly migrated: its results have a run, but no status,
and its evidence links have the columns of later versions but for the kind. -/
def partlyMigratedDb : Db :=
  { emptyDb with
    schema := (columnsOf .scanRuns [.id] ++ columnsOf .frameworks [.id, .version] ++
      columnsOf .controls [.id] ++
      columnsOf .controlResults [.id, .runId, .controlId, .ruleId, .evidenceId] ++
      columnsOf .complianceGaps ([.id] ++ gapQueryFilterColumns) ++
      columnsOf .evidenceMetadata [.id, .digest, .locator] ++
      columnsOf .runEvidenceLinks [.runId, .evidenceId, .digest, .locator,
        .classification]).toFinset
    controlResults := Table.empty.insertOrIgnore "1:a:0::2:c1:r1".toList
      ⟨"wrong-run".toList, "c1".toList, "r1".toList, [], "e1".toList, [], [], 0, none, [], []⟩
    evidenceMetadata := Table.empty.insertOrIgnore "e1".toList
      ⟨[], "stored".toList, "path".toList, Classification.unclassified.asStr⟩
    runEvidenceLinks := Table.empty.insertOrIgnore ("a".toList, "e1".toList)
      ⟨[], "linked".toList, "path".toList, Classification.secret.asStr⟩
    ledger := some ((packagedMigrations.take 4).foldl (fun ledger migration =>
      ledger.insertOrIgnore migration.version migration.name) .empty)
    userVersion := 4 }

/-- **Values an upgrade changes**: the run of a result becomes the one its id encodes, and the
digest of an evidence link becomes the stored one. -/
theorem upgrade_repairs_values :
    let old := partlyMigratedDb
    let result := applyPackagedMigrations (fun _ _ => .error .sqlite) packagedMigrations
      noMigrationFaults old
    result.1 = .ok () ∧ result.2.userVersion = 8 ∧
      old.columnExists (.controlResults, .runId) = true ∧
      (old.controlResults.get "1:a:0::2:c1:r1".toList).map (·.runId) = some "wrong-run".toList ∧
      (result.2.controlResults.get "1:a:0::2:c1:r1".toList).map (·.runId) = some "a".toList ∧
      old.columnExists (.runEvidenceLinks, .digest) = true ∧
      (old.runEvidenceLinks.get ("a".toList, "e1".toList)).map (·.digest) =
        some "linked".toList ∧
      (result.2.runEvidenceLinks.get ("a".toList, "e1".toList)).map (·.digest) =
        some "stored".toList := by
  decide +kernel

end SovriAgent
