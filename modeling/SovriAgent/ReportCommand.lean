import SovriAgent.CommandLine
import SovriAgent.ReportFallback
import SovriAgent.ScorePercentage

/-!
# The Report Command

The arguments of the `report` command and the values it accepts. The check of an execution
timestamp is code of the SDK, and a parameter here.

## Main results

* `report_arguments_read`: what the arguments of a report are read as.
-/

namespace SovriAgent

namespace ReportCommand

open CommandLine EvidenceReport

/-! ### Errors -/

/-- Why no report is made. -/
inductive ReportError where
  | missingRun
  | missingEvidenceStore
  | missingExecutedAt
  | invalidRun (value : Str)
  | invalidExecutedAt (value : Str)
  | invalidFrameworkScore (value : Str)
  | missingValue (flag : Str)
  | unknownArgument (arg : Str)
  | invalidEvidenceStorePath (path reason : Str)
  | evidenceStore (error : StoreError)
deriving DecidableEq

/-- The text of an error of an evidence store (`Display` of the SDK's `StoreError`). -/
abbrev StoreErrorText := StoreError → Str

/-- The text an error is displayed as. -/
def ReportError.display (storeErrorText : StoreErrorText) : ReportError → Str
  | .missingRun => "missing --run <id>".toList
  | .missingEvidenceStore => "missing --evidence-store <dir>".toList
  | .missingExecutedAt => "missing --executed-at <timestamp>".toList
  | .invalidRun value => "invalid --run id '".toList ++ value ++
      "' (use ASCII letters, numbers, hyphens, or underscores)".toList
  | .invalidExecutedAt value =>
      "invalid --executed-at timestamp '".toList ++ value ++ "'".toList
  | .invalidFrameworkScore value => "invalid --framework-score '".toList ++ value ++
      "' (use 0.0% through 100.0%)".toList
  | .missingValue flag => "missing value for ".toList ++ flag
  | .unknownArgument arg => "unknown argument '".toList ++ arg ++ "'".toList
  | .invalidEvidenceStorePath path reason =>
      "invalid --evidence-store path '".toList ++ path ++ "': ".toList ++ reason
  | .evidenceStore error => "evidence store error: ".toList ++ storeErrorText error

/-! ### Values -/

/-- The longest run identifier (`MAX_RUN_ID_BYTES`). -/
def maxRunIdBytes : ℕ := 128

/-- Whether a text is a run identifier: ASCII letters and digits, hyphens and underscores. -/
def isValidRunId (value : Str) : Bool :=
  value ≠ [] && byteLen value ≤ maxRunIdBytes &&
    value.all fun c => c.isAlphanum || c = '-' || c = '_'

/-- The score of a report that is given none. -/
def defaultScore : Str :=
  "0.0%".toList

/-! ### Arguments -/

/-- The options of a report. -/
inductive ReportOption where
  | run
  | evidenceStore
  | executedAt
  | frameworkScore
deriving DecidableEq

/-- The flag of an option. -/
def ReportOption.flag : ReportOption → Str
  | .run => "--run".toList
  | .evidenceStore => "--evidence-store".toList
  | .executedAt => "--executed-at".toList
  | .frameworkScore => "--framework-score".toList

/-- The words of a report, in the order they are tried. -/
def reportGrammar : Grammar Char ReportOption where
  options := [.run, .evidenceStore, .executedAt, .frameworkScore]
  flag := ReportOption.flag
  help := ["--help".toList, "-h".toList]
  sign := '='

/-- The values read so far. -/
structure ReportArgs where
  runId : Option Str
  evidenceStore : Option Str
  executedAt : Option Str
  frameworkScore : Option Str

/-- What a report is made of, and with. -/
structure ReportConfig where
  evidenceStore : Str
  report : Config

/-- A help request or a report to make. -/
inductive ParsedArgs where
  | help
  | report (config : ReportConfig)

/-- No option is set. -/
def ReportArgs.start : ReportArgs :=
  ⟨none, none, none, none⟩

/-- Sets an option. -/
def ReportArgs.set (option : ReportOption) (value : Str) (args : ReportArgs) :
    Except ReportError ReportArgs :=
  match option with
  | .run => .ok { args with runId := some value }
  | .evidenceStore => .ok { args with evidenceStore := some value }
  | .executedAt => .ok { args with executedAt := some value }
  | .frameworkScore => .ok { args with frameworkScore := some value }

/-- Validates the values that were read: the run first, then the timestamp, then the score; the
evidence store is looked for last. -/
def ReportArgs.config (isValidExecutionTimestamp : Str → Bool) (args : ReportArgs) :
    Except ReportError ParsedArgs :=
  match args.runId with
  | none => .error .missingRun
  | some runId =>
      if isValidRunId runId = false then .error (.invalidRun runId)
      else
        match args.executedAt with
        | none => .error .missingExecutedAt
        | some executedAt =>
            if isValidExecutionTimestamp executedAt = false then
              .error (.invalidExecutedAt executedAt)
            else
              let frameworkScore := args.frameworkScore.getD defaultScore
              if isValidScorePercentage frameworkScore = false then
                .error (.invalidFrameworkScore frameworkScore)
              else
                match args.evidenceStore with
                | none => .error .missingEvidenceStore
                | some evidenceStore =>
                    .ok (.report ⟨evidenceStore, ⟨runId, executedAt, frameworkScore⟩⟩)

/-- Parses the report arguments. -/
def parseArgs (isValidExecutionTimestamp : Str → Bool) (args : List Str) :
    Except ReportError ParsedArgs :=
  match reportGrammar.parse ReportArgs.set .unknownArgument .missingValue ReportArgs.start args with
  | .error e => .error e
  | .ok none => .ok .help
  | .ok (some args) => args.config isValidExecutionTimestamp

/-! ### What the arguments mean -/

/-- The flags of a report are told apart. -/
theorem unambiguous_reportGrammar : reportGrammar.Unambiguous := by
  refine .of_options (fun option => ?_) ?_ ?_ ?_
  · cases option <;> decide
  · decide
  · decide
  · decide

/-- The settings of a command line. -/
abbrev Settings := List (Setting Char ReportOption)

/-- The last values of the settings. -/
def lastArgs (settings : Settings) : ReportArgs where
  runId := lastValue .run settings
  evidenceStore := lastValue .evidenceStore settings
  executedAt := lastValue .executedAt settings
  frameworkScore := lastValue .frameworkScore settings

/-- No setting is refused, and the last values count. -/
theorem setAll_eq (settings : Settings) :
    setAll ReportArgs.set ReportArgs.start settings = .ok (lastArgs settings) := by
  induction settings using List.reverseRecOn with
  | nil => rfl
  | append_singleton settings setting ih =>
      rw [setAll_concat, ih]
      simp only [ReportArgs.set, lastArgs, lastValue_concat]
      rcases setting.option <;> simp

variable {isValidExecutionTimestamp : Str → Bool}

/-- The run and the timestamp of settings are valid. -/
structure Identified (isValidExecutionTimestamp : Str → Bool) (settings : Settings)
    (runId executedAt : Str) : Prop where
  run : lastValue .run settings = some runId
  validRun : isValidRunId runId = true
  executed : lastValue .executedAt settings = some executedAt
  validExecuted : isValidExecutionTimestamp executedAt = true

/-- The score of settings. -/
def lastScore (settings : Settings) : Str :=
  (lastValue ReportOption.frameworkScore settings).getD defaultScore

/-- The settings of a report that is made. -/
structure Accepts (isValidExecutionTimestamp : Str → Bool) (settings : Settings)
    (config : ReportConfig) : Prop where
  identified : Identified isValidExecutionTimestamp settings config.report.runId
    config.report.executedAt
  score : lastScore settings = config.report.frameworkScore
  validScore : isValidScorePercentage config.report.frameworkScore = true
  stored : lastValue .evidenceStore settings = some config.evidenceStore

/-- Why a command line is rejected: its settings, and what is left where the reading stops. What
stops the reading comes before the values. -/
inductive Rejects (isValidExecutionTimestamp : Str → Bool) (settings : Settings) :
    List Str → ReportError → Prop where
  | unknown {word : Str} (rest : List Str) (hword : reportGrammar.role word = .unknown) :
      Rejects isValidExecutionTimestamp settings (word :: rest) (.unknownArgument word)
  | missing (option : ReportOption) :
      Rejects isValidExecutionTimestamp settings [option.flag] (.missingValue option.flag)
  | noRun (hrun : lastValue .run settings = none) :
      Rejects isValidExecutionTimestamp settings [] .missingRun
  | badRun {runId : Str} (hrun : lastValue .run settings = some runId)
      (hinvalid : isValidRunId runId = false) :
      Rejects isValidExecutionTimestamp settings [] (.invalidRun runId)
  | noTimestamp {runId : Str} (hrun : lastValue .run settings = some runId)
      (hvalid : isValidRunId runId = true) (htime : lastValue .executedAt settings = none) :
      Rejects isValidExecutionTimestamp settings [] .missingExecutedAt
  | badTimestamp {runId executedAt : Str} (hrun : lastValue .run settings = some runId)
      (hvalid : isValidRunId runId = true)
      (htime : lastValue .executedAt settings = some executedAt)
      (hinvalid : isValidExecutionTimestamp executedAt = false) :
      Rejects isValidExecutionTimestamp settings [] (.invalidExecutedAt executedAt)
  | badScore {runId executedAt : Str}
      (hidentified : Identified isValidExecutionTimestamp settings runId executedAt)
      (hinvalid : isValidScorePercentage (lastScore settings) = false) :
      Rejects isValidExecutionTimestamp settings [] (.invalidFrameworkScore (lastScore settings))
  | noStore {runId executedAt : Str}
      (hidentified : Identified isValidExecutionTimestamp settings runId executedAt)
      (hvalid : isValidScorePercentage (lastScore settings) = true)
      (hstore : lastValue .evidenceStore settings = none) :
      Rejects isValidExecutionTimestamp settings [] .missingEvidenceStore

/-- The values of a report that is made. -/
theorem Accepts.config_eq {settings : Settings} {config : ReportConfig}
    (h : Accepts isValidExecutionTimestamp settings config) :
    (lastArgs settings).config isValidExecutionTimestamp = .ok (.report config) := by
  obtain ⟨evidenceStore, ⟨runId, executedAt, frameworkScore⟩⟩ := config
  obtain ⟨⟨hrun, hvalid, htime, hqualified⟩, hscore, hpercentage, hstore⟩ := h
  dsimp only at hrun hvalid htime hqualified hscore hpercentage hstore
  rw [lastScore] at hscore
  simp [ReportArgs.config, lastArgs, hrun, hvalid, htime, hqualified, hscore, hpercentage, hstore]

/-- The values of a report that is not made. -/
theorem Rejects.config_eq {settings : Settings} {e : ReportError}
    (h : Rejects isValidExecutionTimestamp settings [] e) :
    (lastArgs settings).config isValidExecutionTimestamp = .error e := by
  cases h with
  | noRun hrun => simp [ReportArgs.config, lastArgs, hrun]
  | badRun hrun hinvalid => simp [ReportArgs.config, lastArgs, hrun, hinvalid]
  | noTimestamp hrun hvalid htime => simp [ReportArgs.config, lastArgs, hrun, hvalid, htime]
  | badTimestamp hrun hvalid htime hinvalid =>
      simp [ReportArgs.config, lastArgs, hrun, hvalid, htime, hinvalid]
  | badScore hidentified hinvalid =>
      obtain ⟨hrun, hvalid, htime, hqualified⟩ := hidentified
      rw [lastScore] at hinvalid ⊢
      simp [ReportArgs.config, lastArgs, hrun, hvalid, htime, hqualified, hinvalid]
  | noStore hidentified hvalid hstore =>
      obtain ⟨hrun, hvalidRun, htime, hqualified⟩ := hidentified
      rw [lastScore] at hvalid
      simp [ReportArgs.config, lastArgs, hrun, hvalidRun, htime, hqualified, hvalid, hstore]

/-- The values are validated one after the other. -/
theorem accepts_or_rejects (isValidExecutionTimestamp : Str → Bool) (settings : Settings) :
    (∃ config, Accepts isValidExecutionTimestamp settings config) ∨
      ∃ e, Rejects isValidExecutionTimestamp settings [] e := by
  rcases hrun : lastValue .run settings with _ | runId
  · exact .inr ⟨_, .noRun hrun⟩
  by_cases hvalid : isValidRunId runId = false
  · exact .inr ⟨_, .badRun hrun hvalid⟩
  rw [Bool.not_eq_false] at hvalid
  rcases htime : lastValue .executedAt settings with _ | executedAt
  · exact .inr ⟨_, .noTimestamp hrun hvalid htime⟩
  by_cases hqualified : isValidExecutionTimestamp executedAt = false
  · exact .inr ⟨_, .badTimestamp hrun hvalid htime hqualified⟩
  rw [Bool.not_eq_false] at hqualified
  have hidentified : Identified isValidExecutionTimestamp settings runId executedAt :=
    ⟨hrun, hvalid, htime, hqualified⟩
  by_cases hscore : isValidScorePercentage (lastScore settings) = false
  · exact .inr ⟨_, .badScore hidentified hscore⟩
  rw [Bool.not_eq_false] at hscore
  rcases hstore : lastValue .evidenceStore settings with _ | evidenceStore
  · exact .inr ⟨_, .noStore hidentified hscore hstore⟩
  · exact .inl ⟨⟨evidenceStore, ⟨runId, executedAt, lastScore settings⟩⟩,
      hidentified, rfl, hscore, hstore⟩

/-- What a command line of settings only is read as. -/
theorem parseArgs_settings (isValidExecutionTimestamp : Str → Bool) (settings : Settings) :
    parseArgs isValidExecutionTimestamp (settings.flatMap reportGrammar.words) =
      (lastArgs settings).config isValidExecutionTimestamp := by
  rw [parseArgs,
    unambiguous_reportGrammar.parse_eq_some_iff.mpr ⟨settings, rfl, setAll_eq settings⟩]

theorem parseArgs_eq_report_iff {args : List Str} {config : ReportConfig} :
    parseArgs isValidExecutionTimestamp args = .ok (.report config) ↔
      ∃ settings : Settings, args = settings.flatMap reportGrammar.words ∧
        Accepts isValidExecutionTimestamp settings config := by
  constructor
  · intro h
    rcases hparse : reportGrammar.parse ReportArgs.set ReportError.unknownArgument
      ReportError.missingValue ReportArgs.start args with e | _ | next
    · rw [parseArgs, hparse] at h
      cases h
    · rw [parseArgs, hparse] at h
      cases h
    · obtain ⟨settings, rfl, -⟩ := unambiguous_reportGrammar.parse_eq_some_iff.mp hparse
      rw [parseArgs_settings] at h
      rcases accepts_or_rejects isValidExecutionTimestamp settings with ⟨config', haccepts⟩ |
        ⟨e, hrejects⟩
      · rw [haccepts.config_eq] at h
        cases h
        exact ⟨settings, rfl, haccepts⟩
      · rw [hrejects.config_eq] at h
        cases h
  · rintro ⟨settings, rfl, haccepts⟩
    rw [parseArgs_settings, haccepts.config_eq]

theorem parseArgs_eq_help_iff {args : List Str} :
    parseArgs isValidExecutionTimestamp args = .ok .help ↔
      ∃ (settings : Settings) (word : Str) (rest : List Str),
        args = settings.flatMap reportGrammar.words ++ word :: rest ∧
          (word = "--help".toList ∨ word = "-h".toList) := by
  have hrole : ∀ word, reportGrammar.role word = .help ↔
      word = "--help".toList ∨ word = "-h".toList := by
    intro word
    rw [Grammar.role_eq_help_iff]
    simp [reportGrammar]
  constructor
  · intro h
    rcases hparse : reportGrammar.parse ReportArgs.set ReportError.unknownArgument
      ReportError.missingValue ReportArgs.start args with e | _ | next
    · rw [parseArgs, hparse] at h
      cases h
    · obtain ⟨settings, word, rest, next, rfl, hhelp, -⟩ :=
        unambiguous_reportGrammar.parse_eq_none_iff.mp hparse
      exact ⟨settings, word, rest, rfl, (hrole word).mp hhelp⟩
    · obtain ⟨settings, rfl, -⟩ := unambiguous_reportGrammar.parse_eq_some_iff.mp hparse
      rw [parseArgs_settings] at h
      rcases accepts_or_rejects isValidExecutionTimestamp settings with ⟨config', haccepts⟩ |
        ⟨e, hrejects⟩
      · rw [haccepts.config_eq] at h
        cases h
      · rw [hrejects.config_eq] at h
        cases h
  · rintro ⟨settings, word, rest, rfl, hword⟩
    rw [parseArgs, unambiguous_reportGrammar.parse_eq_none_iff.mpr ⟨settings, word, rest, _, rfl,
      (hrole word).mpr hword, setAll_eq settings⟩]

theorem parseArgs_eq_error_iff {args : List Str} {e : ReportError} :
    parseArgs isValidExecutionTimestamp args = .error e ↔
      ∃ (settings : Settings) (rest : List Str),
        args = settings.flatMap reportGrammar.words ++ rest ∧
          Rejects isValidExecutionTimestamp settings rest e := by
  constructor
  · intro h
    rcases hparse : reportGrammar.parse ReportArgs.set ReportError.unknownArgument
      ReportError.missingValue ReportArgs.start args with e' | _ | next
    · rw [parseArgs, hparse] at h
      obtain rfl := Except.error.inj h
      obtain ⟨settings, rest, rfl, hset | ⟨next, -, hstop⟩⟩ :=
        unambiguous_reportGrammar.parse_eq_error_iff.mp hparse
      · rw [setAll_eq] at hset
        cases hset
      · rcases hstop with ⟨word, more, rfl, hword, rfl⟩ | ⟨option, rfl, rfl⟩
        · exact ⟨settings, _, rfl, .unknown more hword⟩
        · exact ⟨settings, _, rfl, .missing option⟩
    · rw [parseArgs, hparse] at h
      cases h
    · obtain ⟨settings, rfl, -⟩ := unambiguous_reportGrammar.parse_eq_some_iff.mp hparse
      rw [parseArgs_settings] at h
      rcases accepts_or_rejects isValidExecutionTimestamp settings with ⟨config', haccepts⟩ |
        ⟨e', hrejects⟩
      · rw [haccepts.config_eq] at h
        cases h
      · rw [hrejects.config_eq] at h
        cases h
        exact ⟨settings, [], (List.append_nil _).symm, hrejects⟩
  · rintro ⟨settings, rest, rfl, hrejects⟩
    rcases rest with _ | ⟨word, rest⟩
    · rw [List.append_nil, parseArgs_settings, hrejects.config_eq]
    · have hstops : (∃ word' more, word :: rest = word' :: more ∧
          reportGrammar.role word' = .unknown ∧ e = ReportError.unknownArgument word') ∨
          ∃ option, word :: rest = [reportGrammar.flag option] ∧
            e = ReportError.missingValue (reportGrammar.flag option) := by
        cases hrejects with
        | unknown _ hword => exact .inl ⟨word, rest, rfl, hword, rfl⟩
        | missing option => exact .inr ⟨option, rfl, rfl⟩
      rw [parseArgs, unambiguous_reportGrammar.parse_eq_error_iff.mpr
        ⟨settings, word :: rest, rfl, .inr ⟨_, setAll_eq settings, hstops⟩⟩]

/-- **What the arguments of a report are read as**: in one way, as settings and what stops the
reading. A report is made if they are settings only and the last values are valid; the first word
that is no setting is the error even where a value before it is invalid, and of the values the
run is checked first, then the timestamp, then the score. -/
theorem report_arguments_read (isValidExecutionTimestamp : Str → Bool) (args : List Str) :
    (∃! reading : Settings × List Str,
      args = reading.1.flatMap reportGrammar.words ++ reading.2 ∧
        reportGrammar.Stops reading.2) ∧
    (∀ config, parseArgs isValidExecutionTimestamp args = .ok (.report config) ↔
      ∃ settings : Settings, args = settings.flatMap reportGrammar.words ∧
        Accepts isValidExecutionTimestamp settings config) ∧
    (parseArgs isValidExecutionTimestamp args = .ok .help ↔
      ∃ (settings : Settings) (word : Str) (rest : List Str),
        args = settings.flatMap reportGrammar.words ++ word :: rest ∧
          (word = "--help".toList ∨ word = "-h".toList)) ∧
    ∀ e, parseArgs isValidExecutionTimestamp args = .error e ↔
      ∃ (settings : Settings) (rest : List Str),
        args = settings.flatMap reportGrammar.words ++ rest ∧
          Rejects isValidExecutionTimestamp settings rest e := by
  exact ⟨unambiguous_reportGrammar.existsUnique_reading args,
    fun _ => parseArgs_eq_report_iff, parseArgs_eq_help_iff, fun _ => parseArgs_eq_error_iff⟩

end ReportCommand

end SovriAgent
