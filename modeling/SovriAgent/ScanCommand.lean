import SovriAgent.CommandLine
import SovriAgent.ScanListing

/-!
# The Arguments of a Scan

The command line of the `scan` command, the selection of the controls it asks for, and the exit
code of a set of results.

The errors of the catalog loader, of its validation, of the host and of the evidence store are
values of other code: they are the texts they are displayed as.

## Main results

* `scan_arguments_read`: what the arguments of a scan are read as.
* `selection_resolved`: what a selection is resolved to.
-/

namespace SovriAgent.ScanCommand

open CommandLine

/-! ### Errors and thresholds -/

/-- The result status at which the scan treats the run as a posture breach. -/
inductive FailOn where
  | fail
  | warning
  | never
deriving DecidableEq

/-- Why a scan could not run to completion. -/
inductive ScanError where
  | noSelection
  | bothSelectionModes
  | unknownFramework (id : Str)
  | unknownControl (id : Str)
  | emptyControlId
  | invalidFailOn (value : Str)
  | unknownArgument (arg : Str)
  | missingValue (flag : Str)
  | missingCatalog
  | invalidTimestamp
  | catalogLoad (error : Str)
  | catalogInvalid (issue : Str)
  | hostAcquire (error : Str)
  | evidenceStore (error : Str)
deriving DecidableEq

/-- Exit code when the scan completed and no threshold was breached (`EXIT_CLEAN`). -/
def exitClean : ℕ := 0

/-- Exit code of a posture breach (`EXIT_POSTURE_BREACH`). -/
def exitPostureBreach : ℕ := 2

/-- Exit code of a usage, catalog-load or validation error (`EXIT_USAGE`). -/
def exitUsage : ℕ := 64

/-- The exit code of an error. -/
def ScanError.exitCode : ScanError → ℕ
  | .hostAcquire _ => exitPostureBreach
  | .evidenceStore _ => exitPostureBreach
  | _ => exitUsage

/-- The text an error is displayed as. -/
def ScanError.display : ScanError → Str
  | .noSelection => "exactly one of --framework or --control is required".toList
  | .bothSelectionModes => "--framework and --control are mutually exclusive".toList
  | .unknownFramework id => "unknown framework \"".toList ++ id ++ ['"']
  | .unknownControl id => "unknown control \"".toList ++ id ++ ['"']
  | .emptyControlId => "empty control id in the selection".toList
  | .invalidFailOn value => "invalid --fail-on value \"".toList ++ value ++ ['"']
  | .unknownArgument arg => "unknown argument \"".toList ++ arg ++ ['"']
  | .missingValue flag => "the ".toList ++ flag ++ " option needs a value".toList
  | .missingCatalog => "the --catalog <dir> option is required".toList
  | .invalidTimestamp =>
      "the execution timestamp is not a timezone-qualified ISO-8601 value".toList
  | .catalogLoad error => "the catalog could not be loaded: ".toList ++ error
  | .catalogInvalid issue => "the catalog is invalid: ".toList ++ issue
  | .hostAcquire error => "host state could not be acquired: ".toList ++ error
  | .evidenceStore error => "evidence could not be persisted: ".toList ++ error

/-- Parses a `--fail-on` value. -/
def FailOn.parse (raw : Str) : Except ScanError FailOn :=
  if raw = "fail".toList then .ok .fail
  else if raw = "warning".toList then .ok .warning
  else if raw = "never".toList then .ok .never
  else .error (.invalidFailOn raw)

/-- The exit code a set of result statuses maps to. -/
def postureExitCode (statuses : List Status) (failOn : FailOn) : ℕ :=
  if failOn = .never then exitClean
  else if statuses.any fun
      | .fail => true
      | .error => true
      | .warning => decide (failOn = .warning)
      | .pass => false
      | .skipped => false then exitPostureBreach
  else exitClean

/-! ### Arguments -/

/-- The options of a scan. -/
inductive ScanOption where
  | catalog
  | framework
  | control
  | failOn
  | evidenceStore
deriving DecidableEq

/-- The flag of an option. -/
def ScanOption.flag : ScanOption → Str
  | .catalog => "--catalog".toList
  | .framework => "--framework".toList
  | .control => "--control".toList
  | .failOn => "--fail-on".toList
  | .evidenceStore => "--evidence-store".toList

/-- The words of a scan, in the order they are tried. -/
def scanGrammar : Grammar Char ScanOption where
  options := [.catalog, .framework, .control, .failOn, .evidenceStore]
  flag := ScanOption.flag
  help := ["--help".toList, "-h".toList]
  sign := '='

/-- The values read so far. -/
structure ScanArgs where
  catalog : Option Str
  framework : Option Str
  control : Option Str
  failOn : FailOn
  evidenceStore : Option Str

/-- The parsed scan configuration. -/
structure ScanConfig where
  catalog : Str
  framework : Option Str
  control : Option Str
  failOn : FailOn
  evidenceStore : Option Str
deriving DecidableEq

/-- A help request or a scan to run. -/
inductive ParsedArgs where
  | help
  | scan (config : ScanConfig)
deriving DecidableEq

/-- No option is set. -/
def ScanArgs.start : ScanArgs :=
  ⟨none, none, none, .fail, none⟩

/-- Sets an option. -/
def ScanArgs.set (option : ScanOption) (value : Str) (args : ScanArgs) :
    Except ScanError ScanArgs :=
  match option with
  | .catalog => .ok { args with catalog := some value }
  | .framework => .ok { args with framework := some value }
  | .control => .ok { args with control := some value }
  | .failOn =>
      match FailOn.parse value with
      | .error e => .error e
      | .ok failOn => .ok { args with failOn := failOn }
  | .evidenceStore => .ok { args with evidenceStore := some value }

/-- The configuration of the values that were read; a catalog is required. -/
def ScanArgs.config (args : ScanArgs) : Except ScanError ParsedArgs :=
  match args.catalog with
  | none => .error .missingCatalog
  | some catalog =>
      .ok (.scan ⟨catalog, args.framework, args.control, args.failOn, args.evidenceStore⟩)

/-- Parses the scan arguments. -/
def parseArgs (args : List Str) : Except ScanError ParsedArgs :=
  match scanGrammar.parse ScanArgs.set .unknownArgument .missingValue ScanArgs.start args with
  | .error e => .error e
  | .ok none => .ok .help
  | .ok (some args) => args.config

/-! ### What the arguments mean -/

/-- The flags of a scan are told apart. -/
theorem unambiguous_scanGrammar : scanGrammar.Unambiguous := by
  refine .of_options (fun option => ?_) ?_ ?_ ?_
  · cases option <;> decide
  · decide
  · decide
  · decide

/-- The settings of a command line. -/
abbrev Settings := List (Setting Char ScanOption)

/-- All thresholds among the settings exist, also those that are set again later. -/
def ThresholdsExist (settings : Settings) : Prop :=
  ∀ setting ∈ settings, setting.option = .failOn → ∃ failOn, FailOn.parse setting.value = .ok failOn

/-- The threshold that was set last. -/
def lastThreshold (settings : Settings) : FailOn :=
  match lastValue ScanOption.failOn settings with
  | none => .fail
  | some value =>
      match FailOn.parse value with
      | .error _ => .fail
      | .ok failOn => failOn

/-- The last values of the settings. -/
def lastArgs (settings : Settings) : ScanArgs where
  catalog := lastValue .catalog settings
  framework := lastValue .framework settings
  control := lastValue .control settings
  failOn := lastThreshold settings
  evidenceStore := lastValue .evidenceStore settings

theorem thresholdsExist_concat {settings : Settings} {setting : Setting Char ScanOption} :
    ThresholdsExist (settings ++ [setting]) ↔ ThresholdsExist settings ∧
      (setting.option = .failOn → ∃ failOn, FailOn.parse setting.value = .ok failOn) := by
  simp only [ThresholdsExist, List.mem_append, List.mem_singleton]
  constructor
  · exact fun h => ⟨fun s hs => h s (.inl hs), h setting (.inr rfl)⟩
  · rintro ⟨hbefore, hlast⟩ s (hs | rfl)
    · exact hbefore s hs
    · exact hlast

/-- One more setting. -/
theorem set_lastArgs (settings : Settings) (setting : Setting Char ScanOption) :
    ScanArgs.set setting.option setting.value (lastArgs settings) =
      if setting.option = .failOn then
        match FailOn.parse setting.value with
        | .error e => .error e
        | .ok _ => .ok (lastArgs (settings ++ [setting]))
      else .ok (lastArgs (settings ++ [setting])) := by
  rcases hoption : setting.option
  · simp [ScanArgs.set, lastArgs, lastThreshold, lastValue_concat, hoption]
  · simp [ScanArgs.set, lastArgs, lastThreshold, lastValue_concat, hoption]
  · simp [ScanArgs.set, lastArgs, lastThreshold, lastValue_concat, hoption]
  · rw [if_pos rfl, ScanArgs.set]
    rcases hparse : FailOn.parse setting.value with e | failOn
    · rfl
    · simp [lastArgs, lastThreshold, lastValue_concat, hoption, hparse]
  · simp [ScanArgs.set, lastArgs, lastThreshold, lastValue_concat, hoption]

/-- The settings are made if all thresholds exist, and the last values count. -/
theorem setAll_eq_ok_iff {settings : Settings} {args : ScanArgs} :
    setAll ScanArgs.set ScanArgs.start settings = .ok args ↔
      ThresholdsExist settings ∧ args = lastArgs settings := by
  induction settings using List.reverseRecOn generalizing args with
  | nil =>
      constructor
      · intro h
        exact ⟨fun _ hmem => (List.not_mem_nil hmem).elim, (Except.ok.inj h).symm⟩
      · rintro ⟨-, rfl⟩
        rfl
  | append_singleton settings setting ih =>
      rw [setAll_concat, thresholdsExist_concat]
      rcases hset : setAll ScanArgs.set ScanArgs.start settings with e | before
      · constructor
        · intro h
          cases h
        · rintro ⟨⟨hvalid, -⟩, -⟩
          rw [ih.mpr ⟨hvalid, rfl⟩] at hset
          cases hset
      · obtain ⟨hvalid, rfl⟩ := ih.mp hset
        simp only [set_lastArgs]
        by_cases hoption : setting.option = .failOn
        · rw [if_pos hoption]
          rcases hparse : FailOn.parse setting.value with e | failOn
          · simp [hoption]
          · simp [hvalid, eq_comm]
        · simp [hvalid, hoption, eq_comm]

/-- The settings are rejected for the first threshold that does not exist. -/
theorem setAll_eq_error_iff {settings : Settings} {e : ScanError} :
    setAll ScanArgs.set ScanArgs.start settings = .error e ↔
      ∃ (before : Settings) (setting : Setting Char ScanOption) (after : Settings),
        settings = before ++ setting :: after ∧ ThresholdsExist before ∧
          setting.option = .failOn ∧ FailOn.parse setting.value = .error e := by
  induction settings using List.reverseRecOn with
  | nil =>
      constructor
      · intro h
        cases h
      · rintro ⟨before, setting, after, h, -⟩
        exact absurd h.symm (List.append_ne_nil_of_right_ne_nil _ (List.cons_ne_nil _ _))
  | append_singleton settings setting ih =>
      rw [setAll_concat]
      constructor
      · intro h
        rcases hset : setAll ScanArgs.set ScanArgs.start settings with e' | args
        · rw [hset] at h
          obtain rfl := Except.error.inj h
          obtain ⟨before, first, after, rfl, hrest⟩ := ih.mp hset
          exact ⟨before, first, after ++ [setting], by simp, hrest⟩
        · obtain ⟨hvalid, rfl⟩ := setAll_eq_ok_iff.mp hset
          rw [hset] at h
          simp only [set_lastArgs] at h
          split at h
          · next hoption =>
              rcases hparse : FailOn.parse setting.value with e' | failOn
              · rw [hparse] at h
                obtain rfl := Except.error.inj h
                exact ⟨settings, setting, [], rfl, hvalid, hoption, hparse⟩
              · rw [hparse] at h
                cases h
          · cases h
      · rintro ⟨before, first, after, heq, hvalid, hoption, hparse⟩
        rcases List.eq_nil_or_concat after with rfl | ⟨after, last, rfl⟩
        · obtain ⟨rfl, hlast⟩ := List.append_inj' heq rfl
          obtain rfl := (List.cons.inj hlast).1
          rw [setAll_eq_ok_iff.mpr ⟨hvalid, rfl⟩]
          simp only [set_lastArgs, if_pos hoption, hparse]
        · have hsplit : settings = before ++ first :: after := by
            have happend : settings ++ [setting] = (before ++ first :: after) ++ [last] := by
              rw [heq]
              simp
            exact (List.append_inj' happend rfl).1
          rw [ih.mpr ⟨before, first, after, hsplit, hvalid, hoption, hparse⟩]

/-- A configuration is that of the last values, and a catalog is among them. -/
theorem config_lastArgs_iff {settings : Settings} {config : ScanConfig} :
    (lastArgs settings).config = .ok (.scan config) ↔
      lastValue .catalog settings = some config.catalog ∧
        lastValue .framework settings = config.framework ∧
        lastValue .control settings = config.control ∧
        lastThreshold settings = config.failOn ∧
        lastValue .evidenceStore settings = config.evidenceStore := by
  have hcatalog : (lastArgs settings).catalog = lastValue ScanOption.catalog settings := rfl
  rw [ScanArgs.config, hcatalog]
  rcases lastValue ScanOption.catalog settings with _ | catalog
  · simp
  · obtain ⟨catalog', framework, control, failOn, evidenceStore⟩ := config
    simp [lastArgs]

/-- No configuration without a catalog. -/
theorem config_lastArgs_error_iff {settings : Settings} {e : ScanError} :
    (lastArgs settings).config = .error e ↔
      lastValue ScanOption.catalog settings = none ∧ e = .missingCatalog := by
  have hcatalog : (lastArgs settings).catalog = lastValue ScanOption.catalog settings := rfl
  rw [ScanArgs.config, hcatalog]
  rcases lastValue ScanOption.catalog settings with _ | catalog
  · simp [eq_comm]
  · simp

/-- Why a command line is rejected: its settings, and what is left where the reading stops. -/
inductive Rejects (settings : Settings) : List Str → ScanError → Prop where
  | threshold {before : Settings} {setting : Setting Char ScanOption} {rest : List Str}
      {e : ScanError} (hsettings : settings = before ++ [setting])
      (hvalid : ThresholdsExist before) (hoption : setting.option = .failOn)
      (hparse : FailOn.parse setting.value = .error e) : Rejects settings rest e
  | unknown {word : Str} (rest : List Str) (hvalid : ThresholdsExist settings)
      (hword : scanGrammar.role word = .unknown) :
      Rejects settings (word :: rest) (.unknownArgument word)
  | missing (option : ScanOption) (hvalid : ThresholdsExist settings) :
      Rejects settings [option.flag] (.missingValue option.flag)
  | noCatalog (hvalid : ThresholdsExist settings)
      (hcatalog : lastValue .catalog settings = none) : Rejects settings [] .missingCatalog

/-- The error of a rejected command line. -/
theorem parseArgs_eq_error_iff {args : List Str} {e : ScanError} :
    parseArgs args = .error e ↔ ∃ (settings : Settings) (rest : List Str),
      args = settings.flatMap scanGrammar.words ++ rest ∧ Rejects settings rest e := by
  constructor
  · intro h
    rw [parseArgs] at h
    rcases hparse : scanGrammar.parse ScanArgs.set ScanError.unknownArgument
      ScanError.missingValue ScanArgs.start args with e' | _ | next
    · rw [hparse] at h
      obtain rfl := Except.error.inj h
      obtain ⟨settings, rest, rfl, hset | ⟨next, hset, hstop⟩⟩ :=
        unambiguous_scanGrammar.parse_eq_error_iff.mp hparse
      · obtain ⟨before, setting, after, rfl, hvalid, hoption, hthreshold⟩ :=
          setAll_eq_error_iff.mp hset
        exact ⟨before ++ [setting], after.flatMap scanGrammar.words ++ rest, by simp,
          .threshold rfl hvalid hoption hthreshold⟩
      · obtain ⟨hvalid, rfl⟩ := setAll_eq_ok_iff.mp hset
        rcases hstop with ⟨word, more, rfl, hword, rfl⟩ | ⟨option, rfl, rfl⟩
        · exact ⟨settings, _, rfl, .unknown more hvalid hword⟩
        · exact ⟨settings, _, rfl, .missing option hvalid⟩
    · rw [hparse] at h
      cases h
    · rw [hparse] at h
      obtain ⟨settings, rfl, hset⟩ := unambiguous_scanGrammar.parse_eq_some_iff.mp hparse
      obtain ⟨hvalid, rfl⟩ := setAll_eq_ok_iff.mp hset
      obtain ⟨hcatalog, rfl⟩ := config_lastArgs_error_iff.mp h
      exact ⟨settings, [], (List.append_nil _).symm, .noCatalog hvalid hcatalog⟩
  · rintro ⟨settings, rest, rfl, hrejects⟩
    rw [parseArgs]
    cases hrejects with
    | @threshold before setting rest e hsettings hvalid hoption hthreshold =>
        have hset : setAll ScanArgs.set ScanArgs.start settings = .error e :=
          setAll_eq_error_iff.mpr ⟨before, setting, [], hsettings, hvalid, hoption, hthreshold⟩
        rw [unambiguous_scanGrammar.parse_eq_error_iff.mpr ⟨settings, rest, rfl, .inl hset⟩]
    | @unknown word rest hvalid hword =>
        rw [unambiguous_scanGrammar.parse_eq_error_iff.mpr ⟨settings, word :: rest, rfl,
          .inr ⟨_, setAll_eq_ok_iff.mpr ⟨hvalid, rfl⟩, .inl ⟨word, rest, rfl, hword, rfl⟩⟩⟩]
    | missing option hvalid =>
        rw [unambiguous_scanGrammar.parse_eq_error_iff.mpr ⟨settings, [option.flag], rfl,
          .inr ⟨_, setAll_eq_ok_iff.mpr ⟨hvalid, rfl⟩, .inr ⟨option, rfl, rfl⟩⟩⟩]
        rfl
    | noCatalog hvalid hcatalog =>
        rw [unambiguous_scanGrammar.parse_eq_some_iff.mpr ⟨settings, List.append_nil _,
          setAll_eq_ok_iff.mpr ⟨hvalid, rfl⟩⟩]
        exact config_lastArgs_error_iff.mpr ⟨hcatalog, rfl⟩

/-- The configuration of an accepted command line. -/
theorem parseArgs_eq_scan_iff {args : List Str} {config : ScanConfig} :
    parseArgs args = .ok (.scan config) ↔ ∃ settings : Settings,
      args = settings.flatMap scanGrammar.words ∧ ThresholdsExist settings ∧
        lastValue .catalog settings = some config.catalog ∧
        lastValue .framework settings = config.framework ∧
        lastValue .control settings = config.control ∧
        lastThreshold settings = config.failOn ∧
        lastValue .evidenceStore settings = config.evidenceStore := by
  constructor
  · intro h
    rw [parseArgs] at h
    rcases hparse : scanGrammar.parse ScanArgs.set ScanError.unknownArgument
      ScanError.missingValue ScanArgs.start args with e | _ | next
    · rw [hparse] at h
      cases h
    · rw [hparse] at h
      cases h
    · rw [hparse] at h
      obtain ⟨settings, rfl, hset⟩ := unambiguous_scanGrammar.parse_eq_some_iff.mp hparse
      obtain ⟨hvalid, rfl⟩ := setAll_eq_ok_iff.mp hset
      exact ⟨settings, rfl, hvalid, config_lastArgs_iff.mp h⟩
  · rintro ⟨settings, rfl, hvalid, hconfig⟩
    rw [parseArgs, unambiguous_scanGrammar.parse_eq_some_iff.mpr ⟨settings, rfl,
      setAll_eq_ok_iff.mpr ⟨hvalid, rfl⟩⟩]
    exact config_lastArgs_iff.mpr hconfig

/-- Help is asked for by a word of its own. -/
theorem parseArgs_eq_help_iff {args : List Str} :
    parseArgs args = .ok .help ↔ ∃ (settings : Settings) (word : Str) (rest : List Str),
      args = settings.flatMap scanGrammar.words ++ word :: rest ∧
        (word = "--help".toList ∨ word = "-h".toList) ∧ ThresholdsExist settings := by
  have hrole : ∀ word, scanGrammar.role word = .help ↔
      word = "--help".toList ∨ word = "-h".toList := by
    intro word
    rw [Grammar.role_eq_help_iff]
    simp [scanGrammar]
  constructor
  · intro h
    rw [parseArgs] at h
    rcases hparse : scanGrammar.parse ScanArgs.set ScanError.unknownArgument
      ScanError.missingValue ScanArgs.start args with e | _ | next
    · rw [hparse] at h
      cases h
    · obtain ⟨settings, word, rest, next, rfl, hhelp, hset⟩ :=
        unambiguous_scanGrammar.parse_eq_none_iff.mp hparse
      exact ⟨settings, word, rest, rfl, (hrole word).mp hhelp, (setAll_eq_ok_iff.mp hset).1⟩
    · rw [hparse] at h
      change next.config = .ok .help at h
      rw [ScanArgs.config] at h
      rcases hcatalog : next.catalog with _ | catalog
      · rw [hcatalog] at h
        cases h
      · rw [hcatalog] at h
        cases h
  · rintro ⟨settings, word, rest, rfl, hword, hvalid⟩
    rw [parseArgs, unambiguous_scanGrammar.parse_eq_none_iff.mpr ⟨settings, word, rest, _, rfl,
      (hrole word).mpr hword, setAll_eq_ok_iff.mpr ⟨hvalid, rfl⟩⟩]

/-- **What the arguments of a scan are read as**: in one way, as settings and what stops the
reading. They are accepted if they are settings only, all thresholds exist and a catalog is set;
of an option that is set more than once the last value counts. A word that asks for help is only
one where no flag takes it as its value, and the first error is reported. -/
theorem scan_arguments_read (args : List Str) :
    (∃! reading : Settings × List Str, args = reading.1.flatMap scanGrammar.words ++ reading.2 ∧
      scanGrammar.Stops reading.2) ∧
    (∀ config, parseArgs args = .ok (.scan config) ↔ ∃ settings : Settings,
      args = settings.flatMap scanGrammar.words ∧ ThresholdsExist settings ∧
        lastValue .catalog settings = some config.catalog ∧
        lastValue .framework settings = config.framework ∧
        lastValue .control settings = config.control ∧
        lastThreshold settings = config.failOn ∧
        lastValue .evidenceStore settings = config.evidenceStore) ∧
    (parseArgs args = .ok .help ↔ ∃ (settings : Settings) (word : Str) (rest : List Str),
      args = settings.flatMap scanGrammar.words ++ word :: rest ∧
        (word = "--help".toList ∨ word = "-h".toList) ∧ ThresholdsExist settings) ∧
    ∀ e, parseArgs args = .error e ↔ ∃ (settings : Settings) (rest : List Str),
      args = settings.flatMap scanGrammar.words ++ rest ∧ Rejects settings rest e := by
  exact ⟨unambiguous_scanGrammar.existsUnique_reading args,
    fun _ => parseArgs_eq_scan_iff, parseArgs_eq_help_iff, fun _ => parseArgs_eq_error_iff⟩

/-! ### Selections -/

/-- What a selection asks of a catalog: which frameworks and which controls it defines. -/
structure Catalog where
  hasFramework : Str → Bool
  hasControl : Str → Bool

/-- The controls to run. -/
inductive Selection where
  | framework (id : Str)
  | controls (ids : List Str)
deriving DecidableEq

/-- Collects control ids, each once. -/
def selectControls (catalog : Catalog) : List Str → List Str → Except ScanError (List Str)
  | ids, [] => .ok ids
  | ids, entry :: entries =>
      if entry = [] then .error .emptyControlId
      else if catalog.hasControl entry = false then .error (.unknownControl entry)
      else selectControls catalog (if entry ∈ ids then ids else ids ++ [entry]) entries

/-- Resolves the framework and control flags into a selection. -/
def resolveSelection (catalog : Catalog) (framework control : Option Str) :
    Except ScanError Selection :=
  match framework, control with
  | some _, some _ => .error .bothSelectionModes
  | none, none => .error .noSelection
  | some frameworkId, none =>
      if catalog.hasFramework frameworkId = false then .error (.unknownFramework frameworkId)
      else .ok (.framework frameworkId)
  | none, some controlList =>
      match selectControls catalog [] (splitChar ',' controlList) with
      | .error e => .error e
      | .ok ids => .ok (.controls ids)

/-- The entries of a list without those seen before. -/
def firstSeen (entries : List Str) : List Str :=
  entries.reverse.dedup.reverse

/-- An entry that names a control. -/
def Names (catalog : Catalog) (entry : Str) : Prop :=
  entry ≠ [] ∧ catalog.hasControl entry = true

/-- The error of an entry that names none. -/
def entryError (entry : Str) : ScanError :=
  if entry = [] then .emptyControlId else .unknownControl entry

theorem firstSeen_concat (entries : List Str) (entry : Str) :
    firstSeen (entries ++ [entry]) =
      if entry ∈ firstSeen entries then firstSeen entries else firstSeen entries ++ [entry] := by
  have hmem : entry ∈ firstSeen entries ↔ entry ∈ entries.reverse := by
    rw [firstSeen, List.mem_reverse, List.mem_dedup]
  rw [firstSeen, List.reverse_concat]
  by_cases hseen : entry ∈ entries.reverse
  · rw [if_pos (hmem.mpr hseen), List.dedup_cons_of_mem hseen]
    rfl
  · rw [if_neg (fun h => hseen (hmem.mp h)), List.dedup_cons_of_notMem hseen, List.reverse_cons]
    rfl

theorem nodup_firstSeen (entries : List Str) : (firstSeen entries).Nodup :=
  List.nodup_reverse.mpr (List.nodup_dedup _)

theorem mem_firstSeen {entries : List Str} {entry : Str} :
    entry ∈ firstSeen entries ↔ entry ∈ entries := by
  rw [firstSeen, List.mem_reverse, List.mem_dedup, List.mem_reverse]

/-- Different entries are all kept. -/
theorem firstSeen_of_nodup {entries : List Str} (h : entries.Nodup) :
    firstSeen entries = entries := by
  rw [firstSeen, List.dedup_eq_self.mpr (List.nodup_reverse.mpr h), List.reverse_reverse]

/-- The loop, with the entries seen so far. -/
theorem selectControls_append (catalog : Catalog) (seen entries : List Str) :
    selectControls catalog (firstSeen seen) entries =
      match entries.find? fun entry => entry = [] ∨ catalog.hasControl entry = false with
      | some entry => .error (entryError entry)
      | none => .ok (firstSeen (seen ++ entries)) := by
  induction entries generalizing seen with
  | nil => rw [List.append_nil]; rfl
  | cons entry entries ih =>
      rw [selectControls, List.find?_cons]
      by_cases hempty : entry = []
      · simp [hempty, entryError]
      · by_cases hunknown : catalog.hasControl entry = false
        · simp [hempty, hunknown, entryError]
        · rw [if_neg hempty, if_neg hunknown, ← firstSeen_concat, ih]
          simp [hempty, hunknown]

/-- **The loop** stops at the first entry that names no control. -/
theorem selectControls_eq (catalog : Catalog) (entries : List Str) :
    selectControls catalog [] entries =
      match entries.find? fun entry => entry = [] ∨ catalog.hasControl entry = false with
      | some entry => .error (entryError entry)
      | none => .ok (firstSeen entries) :=
  selectControls_append catalog [] entries

theorem selectControls_ok_iff {catalog : Catalog} {entries ids : List Str} :
    selectControls catalog [] entries = .ok ids ↔
      (∀ entry ∈ entries, Names catalog entry) ∧ ids = firstSeen entries := by
  have hnone : (entries.find? fun entry => entry = [] ∨ catalog.hasControl entry = false) =
      none ↔ ∀ entry ∈ entries, Names catalog entry := by
    rw [List.find?_eq_none]
    refine forall₂_congr fun entry _ => ?_
    simp [Names]
  rw [selectControls_eq]
  rcases hfind : entries.find? fun entry => entry = [] ∨ catalog.hasControl entry = false
    with _ | entry
  · have hall := hnone.mp hfind
    exact ⟨fun h => ⟨hall, (Except.ok.inj h).symm⟩, fun h => congrArg Except.ok h.2.symm⟩
  · refine iff_of_false (fun h => by cases h) fun h => ?_
    rw [hnone.mpr h.1] at hfind
    cases hfind

theorem selectControls_error_iff {catalog : Catalog} {entries : List Str} {e : ScanError} :
    selectControls catalog [] entries = .error e ↔
      ∃ before entry after, entries = before ++ entry :: after ∧
        (∀ named ∈ before, Names catalog named) ∧ ¬ Names catalog entry ∧ e = entryError entry := by
  have hnames : ∀ entry, ¬ Names catalog entry ↔ entry = [] ∨ catalog.hasControl entry = false := by
    intro entry
    rw [Names]
    by_cases hempty : entry = []
    · simp [hempty]
    · simp [hempty]
  rw [selectControls_eq]
  constructor
  · intro h
    rcases hfind : entries.find? fun entry => entry = [] ∨ catalog.hasControl entry = false
      with _ | entry
    · rw [hfind] at h
      cases h
    · rw [hfind] at h
      obtain ⟨hbad, before, after, rfl, hbefore⟩ := List.find?_eq_some_iff_append.mp hfind
      refine ⟨before, entry, after, rfl, fun named hnamed => ?_,
        (hnames entry).mpr (of_decide_eq_true hbad), (Except.error.inj h).symm⟩
      by_contra hnot
      have hgood := hbefore named hnamed
      rw [decide_eq_true ((hnames named).mp hnot)] at hgood
      cases hgood
  · rintro ⟨before, entry, after, rfl, hbefore, hbad, rfl⟩
    have hfind : (before ++ entry :: after).find? (fun entry => entry = [] ∨
        catalog.hasControl entry = false) = some entry := by
      refine List.find?_eq_some_iff_append.mpr ⟨decide_eq_true ((hnames entry).mp hbad), before,
        after, rfl, fun named hnamed => ?_⟩
      have hgood : ¬ (named = [] ∨ catalog.hasControl named = false) := fun h =>
        (hnames named).mpr h (hbefore named hnamed)
      rw [decide_eq_false hgood]
      rfl
    rw [hfind]

/-- A text is taken apart as lists are. -/
theorem splitChar_eq_splitOn (separator : Char) (text : Str) :
    splitChar separator text = text.splitOn separator := by
  induction text with
  | nil => rfl
  | cons c text ih =>
      rw [splitChar, List.splitOn_cons_eq_if_modifyHead, ih]
      by_cases hc : c = separator
      · simp [hc]
      · rw [if_neg hc, if_neg (by simpa using hc)]
        rcases hparts : text.splitOn separator with _ | ⟨part, parts⟩
        · exact absurd hparts (List.splitOn_ne_nil separator text)
        · rfl

/-- The parts of a text have no separator. -/
theorem notMem_of_mem_splitChar {separator : Char} {text part : Str}
    (h : part ∈ splitChar separator text) : separator ∉ part := by
  induction text generalizing part with
  | nil =>
      obtain rfl := List.mem_singleton.mp h
      exact List.not_mem_nil
  | cons c text ih =>
      rw [splitChar] at h
      split at h
      · rcases List.mem_cons.mp h with rfl | h
        · exact List.not_mem_nil
        · exact ih h
      · next hc =>
          rcases hparts : splitChar separator text with _ | ⟨first, parts⟩
          · rw [hparts] at h
            obtain rfl := List.mem_singleton.mp h
            exact fun hmem => hc (List.mem_singleton.mp hmem).symm
          · rw [hparts] at h ih
            rcases List.mem_cons.mp h with rfl | h
            · intro hmem
              rcases List.mem_cons.mp hmem with rfl | hmem
              · exact hc rfl
              · exact ih (List.mem_cons_self ..) hmem
            · exact ih (List.mem_cons_of_mem _ h)

/-- A list of controls is its entries, joined by commas. -/
theorem splitChar_eq_iff {list : Str} {entries : List Str} :
    splitChar ',' list = entries ↔
      entries ≠ [] ∧ (∀ entry ∈ entries, ',' ∉ entry) ∧ list = [','].intercalate entries := by
  constructor
  · rintro rfl
    refine ⟨?_, fun _ => notMem_of_mem_splitChar, ?_⟩
    · rw [splitChar_eq_splitOn]
      exact List.splitOn_ne_nil _ _
    · rw [splitChar_eq_splitOn, List.intercalate_splitOn]
  · rintro ⟨hne, hcomma, rfl⟩
    rw [splitChar_eq_splitOn, List.splitOn_intercalate _ hcomma hne]

/-- Why a selection is refused. -/
inductive Refuses (catalog : Catalog) : Option Str → Option Str → ScanError → Prop where
  | both (framework control : Str) :
      Refuses catalog (some framework) (some control) .bothSelectionModes
  | neither : Refuses catalog none none .noSelection
  | framework {id : Str} (hunknown : catalog.hasFramework id = false) :
      Refuses catalog (some id) none (.unknownFramework id)
  | control {before after : List Str} {entry : Str}
      (hcomma : ∀ listed ∈ before ++ entry :: after, ',' ∉ listed)
      (hbefore : ∀ named ∈ before, Names catalog named) (hentry : ¬ Names catalog entry) :
      Refuses catalog none (some ([','].intercalate (before ++ entry :: after)))
        (entryError entry)

theorem resolveSelection_framework_iff {catalog : Catalog} {framework control : Option Str}
    {id : Str} :
    resolveSelection catalog framework control = .ok (.framework id) ↔
      framework = some id ∧ control = none ∧ catalog.hasFramework id = true := by
  rcases framework with _ | framework
  · rcases control with _ | list
    · simp [resolveSelection]
    · rcases hids : selectControls catalog [] (splitChar ',' list) with e | ids
      · simp [resolveSelection, hids]
      · simp [resolveSelection, hids]
  · rcases control with _ | list
    · by_cases hknown : catalog.hasFramework framework = false
      · simp only [resolveSelection, if_pos hknown, Option.some.injEq, true_and]
        refine iff_of_false (fun h => by cases h) ?_
        rintro ⟨rfl, h⟩
        rw [hknown] at h
        cases h
      · simp only [resolveSelection, if_neg hknown, Except.ok.injEq, Selection.framework.injEq,
          Option.some.injEq, true_and]
        rw [Bool.not_eq_false] at hknown
        constructor
        · rintro rfl
          exact ⟨rfl, hknown⟩
        · exact fun h => h.1
    · simp [resolveSelection]

theorem resolveSelection_controls_iff {catalog : Catalog} {framework control : Option Str}
    {ids : List Str} :
    resolveSelection catalog framework control = .ok (.controls ids) ↔
      framework = none ∧ ∃ entries : List Str, entries ≠ [] ∧
        (∀ entry ∈ entries, ',' ∉ entry ∧ Names catalog entry) ∧
        control = some ([','].intercalate entries) ∧ ids = firstSeen entries := by
  rcases framework with _ | framework
  · rcases control with _ | list
    · simp [resolveSelection]
    · have hresolve : resolveSelection catalog none (some list) = .ok (.controls ids) ↔
          selectControls catalog [] (splitChar ',' list) = .ok ids := by
        rw [resolveSelection]
        rcases selectControls catalog [] (splitChar ',' list) with e | found
        · simp
        · simp
      rw [hresolve, selectControls_ok_iff]
      constructor
      · rintro ⟨hnames, rfl⟩
        obtain ⟨hne, hcomma, hlist⟩ := splitChar_eq_iff.mp (Eq.refl (splitChar ',' list))
        exact ⟨rfl, splitChar ',' list, hne,
          fun entry hentry => ⟨hcomma entry hentry, hnames entry hentry⟩, congrArg some hlist, rfl⟩
      · rintro ⟨-, entries, hne, hentries, hlist, rfl⟩
        rw [splitChar_eq_iff.mpr ⟨hne, fun entry hentry => (hentries entry hentry).1,
          Option.some.inj hlist⟩]
        exact ⟨fun entry hentry => (hentries entry hentry).2, rfl⟩
  · rcases control with _ | list
    · by_cases hknown : catalog.hasFramework framework = false
      · simp [resolveSelection, hknown]
      · simp [resolveSelection, hknown]
    · simp [resolveSelection]

theorem resolveSelection_error_iff {catalog : Catalog} {framework control : Option Str}
    {e : ScanError} :
    resolveSelection catalog framework control = .error e ↔
      Refuses catalog framework control e := by
  constructor
  · intro h
    rcases framework with _ | framework
    · rcases control with _ | list
      · obtain rfl := Except.error.inj h
        exact .neither
      · rw [resolveSelection] at h
        rcases hids : selectControls catalog [] (splitChar ',' list) with e' | ids
        · rw [hids] at h
          obtain rfl := Except.error.inj h
          obtain ⟨before, entry, after, hsplit, hbefore, hentry, rfl⟩ :=
            selectControls_error_iff.mp hids
          obtain ⟨-, hcomma, rfl⟩ := splitChar_eq_iff.mp hsplit
          exact .control hcomma hbefore hentry
        · rw [hids] at h
          cases h
    · rcases control with _ | list
      · rw [resolveSelection] at h
        by_cases hknown : catalog.hasFramework framework = false
        · rw [if_pos hknown] at h
          obtain rfl := Except.error.inj h
          exact .framework hknown
        · rw [if_neg hknown] at h
          cases h
      · obtain rfl := Except.error.inj h
        exact .both framework list
  · intro h
    cases h with
    | both => rfl
    | neither => rfl
    | framework hunknown => rw [resolveSelection, if_pos hunknown]
    | @control before after entry hcomma hbefore hentry =>
        have hsplit : splitChar ',' ([','].intercalate (before ++ entry :: after)) =
            before ++ entry :: after :=
          splitChar_eq_iff.mpr ⟨List.append_ne_nil_of_right_ne_nil _ (List.cons_ne_nil _ _),
            hcomma, rfl⟩
        rw [resolveSelection, hsplit, selectControls_error_iff.mpr
          ⟨before, entry, after, rfl, hbefore, hentry, rfl⟩]

/-- The controls of a selection, joined by commas, select the same. -/
theorem resolveSelection_reread {catalog : Catalog} {framework control : Option Str}
    {ids : List Str} (h : resolveSelection catalog framework control = .ok (.controls ids)) :
    resolveSelection catalog none (some ([','].intercalate ids)) = .ok (.controls ids) := by
  obtain ⟨-, entries, hne, hentries, -, rfl⟩ := resolveSelection_controls_iff.mp h
  obtain ⟨entry, hentry⟩ := List.exists_mem_of_ne_nil entries hne
  exact resolveSelection_controls_iff.mpr ⟨rfl, firstSeen entries,
    List.ne_nil_of_mem (mem_firstSeen.mpr hentry),
    fun id hid => hentries id (mem_firstSeen.mp hid), rfl,
    (firstSeen_of_nodup (nodup_firstSeen entries)).symm⟩

/-- **What a selection is resolved to**: a framework the catalog defines, or the controls of a
list, each once and in the order of its first entry, if every entry names a control. The error is
that of the first entry that names none, and the controls of a selection, written as a list
again, select the same. -/
theorem selection_resolved (catalog : Catalog) (framework control : Option Str) :
    (∀ id, resolveSelection catalog framework control = .ok (.framework id) ↔
      framework = some id ∧ control = none ∧ catalog.hasFramework id = true) ∧
    (∀ ids, resolveSelection catalog framework control = .ok (.controls ids) ↔
      framework = none ∧ ∃ entries : List Str, entries ≠ [] ∧
        (∀ entry ∈ entries, ',' ∉ entry ∧ Names catalog entry) ∧
        control = some ([','].intercalate entries) ∧ ids = firstSeen entries) ∧
    (∀ e, resolveSelection catalog framework control = .error e ↔
      Refuses catalog framework control e) ∧
    ∀ ids, resolveSelection catalog framework control = .ok (.controls ids) → ids.Nodup ∧
      resolveSelection catalog none (some ([','].intercalate ids)) = .ok (.controls ids) := by
  refine ⟨fun _ => resolveSelection_framework_iff, fun _ => resolveSelection_controls_iff,
    fun _ => resolveSelection_error_iff, fun ids hids => ⟨?_, resolveSelection_reread hids⟩⟩
  obtain ⟨-, entries, -, -, -, rfl⟩ := resolveSelection_controls_iff.mp hids
  exact nodup_firstSeen entries

end SovriAgent.ScanCommand
