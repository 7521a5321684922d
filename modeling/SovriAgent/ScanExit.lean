import SovriAgent.ScanRun

/-!
# The Exit Codes of a Scan

A scan exits with 64 for a usage error, with 2 if the host cannot be read, if the results breach
the threshold or if the evidence cannot be persisted, and with 0 otherwise. Usage errors come
before the host is read.

## Main results

* `scan_exit_codes`: what the exit code of a planned scan says.
* `scan_reads_host_last`: usage errors do not depend on the host.
* `clean_scan_answered`: what a clean exit says of the results.
-/

namespace SovriAgent

namespace ScanCommand

variable {sdk : ScanSdk} {args : List Str} {config : ScanConfig} {catalog : sdk.CatalogData}
  {selection : Selection}

/-! ### The posture -/

/-- Results that breach a threshold. -/
def Breaches (results : List ControlResult) (failOn : FailOn) : Prop :=
  failOn ≠ .never ∧ ∃ result ∈ results, result.status = .fail ∨ result.status = .error ∨
    (result.status = .warning ∧ failOn = .warning)

/-- The exit code of a set of results is that of a posture breach, or the clean one. -/
theorem postureExitCode_eq (results : List ControlResult) (failOn : FailOn)
    [Decidable (Breaches results failOn)] :
    postureExitCode (results.map (·.status)) failOn =
      if Breaches results failOn then exitPostureBreach else exitClean := by
  rw [postureExitCode]
  by_cases hnever : failOn = .never
  · rw [if_pos hnever, if_neg fun h => h.1 hnever]
  rw [if_neg hnever]
  refine ite_congr (propext ?_) (fun _ => rfl) (fun _ => rfl)
  rw [List.any_eq_true]
  constructor
  · rintro ⟨_, hmem, hstatus⟩
    obtain ⟨result, hresult, rfl⟩ := List.mem_map.mp hmem
    refine ⟨hnever, result, hresult, ?_⟩
    cases hresult : result.status with
    | fail => exact .inl rfl
    | error => exact .inr (.inl rfl)
    | warning =>
        rw [hresult] at hstatus
        exact .inr (.inr ⟨rfl, of_decide_eq_true hstatus⟩)
    | pass =>
        rw [hresult] at hstatus
        cases hstatus
    | skipped =>
        rw [hresult] at hstatus
        cases hstatus
  · rintro ⟨-, result, hresult, hstatus⟩
    refine ⟨result.status, List.mem_map_of_mem hresult, ?_⟩
    rcases hstatus with hstatus | hstatus | ⟨hstatus, hwarning⟩
    · rw [hstatus]
    · rw [hstatus]
    · rw [hstatus]
      exact decide_eq_true hwarning

/-! ### Exit codes -/

/-- Evidence that cannot be persisted. -/
def Unpersisted (sdk : ScanSdk) (disk : sdk.Disk) (evidenceStore : Option Str)
    (evidence : List StoredEvidence) : Prop :=
  ∃ dir e, evidenceStore = some dir ∧ persistEvidence sdk.store (disk dir) evidence = .error e

/-- The exit code of a scan that ran. -/
theorem exitCode_persistOutcome (disk : sdk.Disk) (evidenceStore : Option Str)
    (evidence : List StoredEvidence) (outcome : ScanOutcome)
    [Decidable (Unpersisted sdk disk evidenceStore evidence)] :
    (consoleOf (persistOutcome sdk disk evidenceStore evidence outcome).1).exitCode =
      if Unpersisted sdk disk evidenceStore evidence then exitPostureBreach
      else outcome.exitCode := by
  rcases evidenceStore with _ | dir
  · rw [if_neg]
    · rfl
    · rintro ⟨dir, e, hdir, -⟩
      cases hdir
  · rcases hpersist : persistEvidence sdk.store (disk dir) evidence with e | ⟨stored, store⟩
    · rw [if_pos ⟨dir, e, rfl, hpersist⟩, persistOutcome_error hpersist]
      rfl
    · rw [if_neg, persistOutcome_ok hpersist]
      · rfl
      · rintro ⟨dir', e, hdir, herror⟩
        cases hdir
        rw [hpersist] at herror
        cases herror

/-- Why a scan that no usage error stops is not clean. -/
inductive Unclean (sdk : ScanSdk) (host : Host) (disk : sdk.Disk) (config : ScanConfig)
    (catalog : sdk.CatalogData) (selection : Selection) : Prop where
  | unread {e : ScanError} (hhost : hostRegistry sdk.evidence host = .error e)
  | breached {registry : Registry} {evidence : List StoredEvidence} {outcome : ScanOutcome}
      (hhost : hostRegistry sdk.evidence host = .ok (registry, evidence))
      (hscan : runScan sdk catalog selection registry.evaluate config.failOn scanExecutedAt =
        .ok outcome) (hbreach : Breaches outcome.results config.failOn)
  | unpersisted {registry : Registry} {evidence : List StoredEvidence}
      (hhost : hostRegistry sdk.evidence host = .ok (registry, evidence))
      (hstore : Unpersisted sdk disk config.evidenceStore evidence)

/-- **The exit code of a scan** that no usage error stops is 2 if the host cannot be read, if the
results breach the threshold or if the evidence cannot be persisted, and 0 otherwise. -/
theorem scan_exit_codes (hsdk : sdk.Executes) (h : Plans sdk args config catalog selection)
    (host : Host) (disk : sdk.Disk) :
    ((run sdk host disk args).1.exitCode = exitPostureBreach ↔
      Unclean sdk host disk config catalog selection) ∧
    ((run sdk host disk args).1.exitCode = exitClean ↔
      ¬ Unclean sdk host disk config catalog selection) := by
  classical
  have hcode : (run sdk host disk args).1.exitCode =
      if Unclean sdk host disk config catalog selection then exitPostureBreach
      else exitClean := by
    rcases hhost : hostRegistry sdk.evidence host with e | ⟨registry, evidence⟩
    · rw [h.run_of_unread hhost, if_pos (.unread hhost)]
      exact exitCode_of_hostRegistry hhost
    obtain ⟨outcome, engine, hscan, -, hcode⟩ := h.runScan_ok hsdk registry.evaluate
    rw [h.run_of_scanned hhost hscan, exitCode_persistOutcome, hcode, postureExitCode_eq]
    by_cases hstore : Unpersisted sdk disk config.evidenceStore evidence
    · rw [if_pos hstore, if_pos (.unpersisted hhost hstore)]
    rw [if_neg hstore]
    by_cases hbreach : Breaches outcome.results config.failOn
    · rw [if_pos hbreach, if_pos (.breached hhost hscan hbreach)]
    rw [if_neg hbreach, if_neg]
    rintro (hunread | ⟨hread, hscan', hbreach'⟩ | ⟨hread, hstore'⟩)
    · rw [hhost] at hunread
      cases hunread
    · rw [hhost] at hread
      cases hread
      rw [hscan] at hscan'
      cases hscan'
      exact hbreach hbreach'
    · rw [hhost] at hread
      cases hread
      exact hstore hstore'
  rw [hcode]
  by_cases hunclean : Unclean sdk host disk config catalog selection
  · rw [if_pos hunclean]
    exact ⟨iff_of_true rfl hunclean, iff_of_false (by decide) (not_not.mpr hunclean)⟩
  · rw [if_neg hunclean]
    exact ⟨iff_of_false (by decide) hunclean, iff_of_true rfl hunclean⟩

theorem scan_exit_codes_framework :
    (run plainScanSdk sshHost noStores frameworkArgs).1.exitCode = exitClean ∧
      ¬ Unclean plainScanSdk sshHost noStores frameworkConfig
        [("host.ssh.root-access".toList, permitRootLoginRule)] (.framework "cis-linux".toList) :=
  ⟨rfl, (scan_exit_codes plainScanSdk_executes plans_frameworkArgs sshHost noStores).2.mp rfl⟩

/-- **Usage errors do not depend on the host**: a command line either ends in the same way on
every host, in the help or with the exit code 64 and nothing on standard output, and leaves all
evidence stores as they are, or it exits with 0 or 2 on every host. -/
theorem scan_reads_host_last (hsdk : sdk.Executes) (args : List Str) :
    (∃ console, Refused args console ∧ ∀ host disk, run sdk host disk args = (console, disk)) ∨
      ∀ host disk, (run sdk host disk args).1.exitCode = exitPostureBreach ∨
        (run sdk host disk args).1.exitCode = exitClean := by
  rcases plans_or_refused sdk args with ⟨config, catalog, selection, h⟩ | hrefused
  · refine .inr fun host disk => ?_
    obtain ⟨hbreach, hclean⟩ := scan_exit_codes hsdk h host disk
    by_cases hunclean : Unclean sdk host disk config catalog selection
    · exact .inl (hbreach.mpr hunclean)
    · exact .inr (hclean.mpr hunclean)
  · exact .inl hrefused

theorem scan_reads_host_last_framework :
    (∃ console, Refused frameworkArgs console ∧
      ∀ host disk, run plainScanSdk host disk frameworkArgs = (console, disk)) ∨
      ∀ host disk, (run plainScanSdk host disk frameworkArgs).1.exitCode = exitPostureBreach ∨
        (run plainScanSdk host disk frameworkArgs).1.exitCode = exitClean :=
  scan_reads_host_last plainScanSdk_executes frameworkArgs

/-- **A clean exit vouches for every rule**: unless the threshold is switched off, a scan that
exits with 0 read the host, asked a scanner of the host for the rule of every result and got an
evaluation, and no result breaches the threshold. -/
theorem clean_scan_answered (hsdk : sdk.Executes) (h : Plans sdk args config catalog selection)
    {host : Host} {disk : sdk.Disk} (hnever : config.failOn ≠ .never)
    (hclean : (run sdk host disk args).1.exitCode = exitClean) :
    ∃ registry evidence outcome, hostRegistry sdk.evidence host = .ok (registry, evidence) ∧
      runScan sdk catalog selection registry.evaluate config.failOn scanExecutedAt =
        .ok outcome ∧
      (run sdk host disk args).1.stderr = [] ∧ ∀ result ∈ outcome.results,
        result.ruleId ∈ hostRules ∧
        (∃ evaluation, registry.evaluate result.ruleId = .ok evaluation) ∧
        result.status ≠ .fail ∧ (config.failOn = .warning → result.status ≠ .warning) := by
  have hunclean := (scan_exit_codes hsdk h host disk).2.mp hclean
  rcases hhost : hostRegistry sdk.evidence host with e | ⟨registry, evidence⟩
  · exact absurd (.unread hhost) hunclean
  obtain ⟨outcome, engine, hscan, hresults, -⟩ := h.runScan_ok hsdk registry.evaluate
  refine ⟨registry, evidence, outcome, rfl, hscan, ?_, fun result hresult => ?_⟩
  · rw [h.run_of_scanned hhost hscan]
    rcases hdir : config.evidenceStore with _ | dir
    · rfl
    · rcases hpersist : persistEvidence sdk.store (disk dir) evidence with e | ⟨stored, store⟩
      · exact absurd (.unpersisted hhost ⟨dir, e, hdir, hpersist⟩) hunclean
      · rw [persistOutcome_ok hpersist]
        rfl
  have hbreach : ¬ Breaches outcome.results config.failOn :=
    fun hbreach => hunclean (.breached hhost hscan hbreach)
  have hstatus : ¬ (result.status = .fail ∨ result.status = .error ∨
      (result.status = .warning ∧ config.failOn = .warning)) :=
    fun hstatus => hbreach ⟨hnever, result, hresult, hstatus⟩
  obtain ⟨hfail, herror, hwarning⟩ : result.status ≠ .fail ∧ result.status ≠ .error ∧
      ¬ (result.status = .warning ∧ config.failOn = .warning) :=
    ⟨fun h => hstatus (.inl h), fun h => hstatus (.inr (.inl h)),
      fun h => hstatus (.inr (.inr h))⟩
  have hanswered : ∃ evaluation, registry.evaluate result.ruleId = .ok evaluation := by
    rcases hanswer : registry.evaluate result.ruleId with failure | evaluation
    · exact absurd (hsdk.failure _ _ _ _ _ hresults result hresult failure hanswer) herror
    · exact ⟨evaluation, rfl⟩
  refine ⟨?_, hanswered, hfail, fun hthreshold hstatus => hwarning ⟨hstatus, hthreshold⟩⟩
  by_contra hrule
  obtain ⟨system, user, rfl, -⟩ := hostRegistry_ok hhost
  obtain ⟨evaluation, hevaluation⟩ := hanswered
  rw [evaluate_registryOf_of_notMem hrule] at hevaluation
  cases hevaluation

theorem clean_scan_answered_framework :
    (run plainScanSdk sshHost noStores frameworkArgs).1.stderr = [] := by
  obtain ⟨_, _, _, _, _, hprinted, _⟩ :=
    clean_scan_answered plainScanSdk_executes plans_frameworkArgs (by decide)
      (rfl : (run plainScanSdk sshHost noStores frameworkArgs).1.exitCode = exitClean)
  exact hprinted

end ScanCommand

end SovriAgent
