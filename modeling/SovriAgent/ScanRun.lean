import SovriAgent.CitedEvidence
import SovriAgent.LinkedEvidence
import SovriAgent.ScanCommand
import SovriAgent.SystemScanner

/-!
# The Run of a Scan

A scan reads its arguments, loads and validates the catalog, resolves the selection, captures the
state of the host with the four scanners, executes the selected controls on the engine and, if
it is asked to, persists the evidence the scanners collected.

The catalog loader, the engine and the evidence store are code of the SDK, and parameters here.

## Main results

* `hostRegistry_resolves`: what the registry of a host cites.
* `plans_or_refused`: the command lines that plan a scan, and those that do not.
* `Plans.run_of_unread`, `Plans.run_of_scanned`: what a planned scan comes to.
-/

namespace SovriAgent

/-- The scanner of a host, from its `passwd`, which has to be read, and its `shadow`. -/
def UserScanner.acquire (sdk : EvidenceSdk) (passwd : Except Str Str) (shadow : Option Str)
    (policy : UserPolicy) : Except Str UserScanner :=
  match passwd with
  | .error error => .error ("cannot read the account base: ".toList ++ error)
  | .ok passwd => .ok (.new sdk (.acquire passwd shadow) policy)

namespace ScanCommand

/-! ### The registry -/

/-- The scanners that are registered for rules. -/
structure Registry where
  runs : Ordered.Map Str (Str → Answer)

namespace Registry

/-- The registry without scanners. -/
def new : Registry :=
  ⟨.empty⟩

/-- Registers a scanner for a rule. -/
def registerRuleEvaluator (registry : Registry) (rule : Str) (evaluator : Str → Answer) :
    Registry :=
  ⟨registry.runs.insert rule evaluator⟩

/-- Asks the scanner that is registered for a rule. -/
def evaluate (registry : Registry) (rule : Str) : Answer :=
  match registry.runs.get rule with
  | some run => run rule
  | none => .error ⟨"no scanner registered for rule '".toList ++ rule ++ "'".toList⟩

end Registry

/-! ### The host -/

/-- What the scanners find on a host. -/
structure Host where
  system : HostProbes
  passwd : Except Str Str
  shadow : Option Str
  docker : DockerProbes
  ssh : SshProbes

/-- No support table and no interdicted services. -/
def baselineSystemPolicy : SystemPolicy :=
  ⟨⟨[]⟩, ⟨[]⟩⟩

/-- A dormancy threshold of 90 days, and root is expected to be privileged. -/
def baselineUserPolicy : UserPolicy :=
  ⟨90, ["root".toList]⟩

/-- The versions of the daemon that are supported and recommended. -/
def baselineDockerPolicy : DockerPolicy :=
  ⟨.parse "24.0".toList, .parse "27.0".toList, []⟩

/-- No weak algorithms. -/
def baselineSshPolicy : SshPolicy :=
  ⟨[], [], []⟩

/-- The scanners of a host, registered for the rules they evaluate. -/
def registryOf (system : SystemScanner) (user : UserScanner) (docker : DockerScanner)
    (ssh : SshScanner) : Registry :=
  ((((Registry.new.registerRuleEvaluator osEolRule system.evaluate).registerRuleEvaluator
    singleRootRule user.evaluate).registerRuleEvaluator
    daemonVersionEolRule docker.evaluate).registerRuleEvaluator
    permitRootLoginRule ssh.evaluate).registerRuleEvaluator passwordAuthRule ssh.evaluate

/-- The registry of a host and the evidence its scanners collected. -/
def hostRegistry (sdk : EvidenceSdk) (host : Host) :
    Except ScanError (Registry × List StoredEvidence) :=
  match SystemScanner.acquire sdk host.system baselineSystemPolicy with
  | .error error => .error (.hostAcquire error)
  | .ok system =>
      match UserScanner.acquire sdk host.passwd host.shadow baselineUserPolicy with
      | .error error => .error (.hostAcquire error)
      | .ok user =>
          let docker := DockerScanner.acquire sdk host.docker baselineDockerPolicy
          let ssh := SshScanner.acquire sdk host.ssh baselineSshPolicy
          .ok (registryOf system user docker ssh,
            system.evidenceLog ++ user.evidenceLog ++ docker.evidenceLog ++ ssh.evidenceLog)

/-! ### The scan -/

/-- What a scan uses of the SDK, and what a write that fails leaves of an evidence store. -/
structure ScanSdk where
  CatalogData : Type
  loadFromDir : Str → Except Str CatalogData
  validate : CatalogData → Except Str Unit
  definitions : CatalogData → Catalog
  Engine : Type
  newEngine : (executedAt metadata : Str) → Option Engine
  execute : Engine → CatalogData → Selection → (Str → Answer) → Except Str (List ControlResult)
  describe : Status → Str
  collectGaps : CatalogData → List ControlResult → List Gap
  evidence : EvidenceSdk
  store : StoreSdk
  afterFailedWrite : store.Store → List StoredEvidence → store.Store

/-- The stores of a host: what opening a directory comes to. -/
abbrev ScanSdk.Disk (sdk : ScanSdk) := Str → Except Str sdk.store.Store

/-- Execution metadata every result carries. -/
def executionMetadata : Str :=
  "engine=sovri-agent".toList

/-- The execution timestamp of all results. -/
def scanExecutedAt : Str :=
  "2000-01-01T00:00:00Z".toList

/-- The outcome of a scan. -/
structure ScanOutcome where
  report : Str
  results : List ControlResult
  exitCode : ℕ

/-- Runs the selected controls on the engine. -/
def runScan (sdk : ScanSdk) (catalog : sdk.CatalogData) (selection : Selection)
    (evaluator : Str → Answer) (failOn : FailOn) (executedAt : Str) :
    Except ScanError ScanOutcome :=
  match sdk.newEngine executedAt executionMetadata with
  | none => .error .invalidTimestamp
  | some engine =>
      match sdk.execute engine catalog selection evaluator with
      | .error controlId => .error (.unknownControl controlId)
      | .ok results => .ok
          { report := renderReport sdk.describe (sdk.collectGaps catalog) results
            results := results
            exitCode := postureExitCode (results.map (·.status)) failOn }

/-- The footer of the report that describes the evidence store. -/
def evidenceStoreSummary (count : ℕ) (dir : Str) : Str :=
  "\nEvidence store\n  ".toList ++ decimal count ++ " records at ".toList ++ dir ++ ['\n']

/-- Persists the evidence of a scan that has an evidence store, and appends the footer. -/
def persistOutcome (sdk : ScanSdk) (disk : sdk.Disk) (evidenceStore : Option Str)
    (evidence : List StoredEvidence) (outcome : ScanOutcome) :
    Except ScanError ScanOutcome × sdk.Disk :=
  match evidenceStore with
  | none => (.ok outcome, disk)
  | some dir =>
      match persistEvidence sdk.store (disk dir) evidence with
      | .error error =>
          (.error (.evidenceStore error), Function.update disk dir
            ((disk dir).map fun store => sdk.afterFailedWrite store evidence))
      | .ok (stored, store) =>
          (.ok { outcome with report := outcome.report ++ evidenceStoreSummary stored dir },
            Function.update disk dir (.ok store))

/-- Loads the catalog, validates it, resolves the selection, reads the host and runs the scan. -/
def execute (sdk : ScanSdk) (host : Host) (disk : sdk.Disk) (config : ScanConfig) :
    Except ScanError ScanOutcome × sdk.Disk :=
  match sdk.loadFromDir config.catalog with
  | .error error => (.error (.catalogLoad error), disk)
  | .ok catalog =>
      match sdk.validate catalog with
      | .error issue => (.error (.catalogInvalid issue), disk)
      | .ok () =>
          match resolveSelection (sdk.definitions catalog) config.framework config.control with
          | .error error => (.error error, disk)
          | .ok selection =>
              match hostRegistry sdk.evidence host with
              | .error error => (.error error, disk)
              | .ok (registry, evidence) =>
                  match runScan sdk catalog selection registry.evaluate config.failOn
                    scanExecutedAt with
                  | .error error => (.error error, disk)
                  | .ok outcome =>
                      persistOutcome sdk disk config.evidenceStore evidence outcome

/-- What a process prints and exits with. -/
structure Console where
  stdout : Str
  stderr : Str
  exitCode : ℕ
deriving DecidableEq

/-- The text of `--help`. -/
def help : Str :=
  ("usage: sovri-agent scan --catalog <dir> (--framework <id> | --control <ids>) " ++
    "[--fail-on <level>] [--evidence-store <dir>]\n\n" ++
    "Run a catalog's controls against the host and report the outcome.\n\n" ++
    "options:\n" ++
    "  --catalog <dir>         directory of framework/control/rule/mapping YAML (required)\n" ++
    "  --framework <id>        run every control mapped to this framework\n" ++
    "  --control <ids>         run these comma-separated control ids\n" ++
    "  --fail-on <level>       posture threshold: fail (default), warning, or never\n" ++
    "  --evidence-store <dir>  persist collected evidence to a content-addressed store at " ++
    "<dir>\n" ++
    "  -h, --help              show this help\n\n" ++
    "exit codes:\n" ++
    "  0 when clean, 2 on a FAIL or execution error, 64 on a usage error\n").toList

/-- Prints an error. -/
def fail (error : ScanError) : Console :=
  ⟨[], "sovri-agent scan: ".toList ++ error.display ++ ['\n'], error.exitCode⟩

/-- Runs `sovri-agent scan`. -/
def run (sdk : ScanSdk) (host : Host) (disk : sdk.Disk) (args : List Str) : Console × sdk.Disk :=
  match parseArgs args with
  | .ok .help => (⟨help, [], exitClean⟩, disk)
  | .ok (.scan config) =>
      match execute sdk host disk config with
      | (.ok outcome, disk) => (⟨outcome.report, [], outcome.exitCode⟩, disk)
      | (.error error, disk) => (fail error, disk)
  | .error error => (fail error, disk)

/-! ### The parameters -/

/-- A store holds a record of a digest in a directory. -/
def ScanSdk.Stored (sdk : ScanSdk) (disk : sdk.Disk) (dir digest : Str) : Prop :=
  ∃ store, disk dir = .ok store ∧ (sdk.store.resolveDigest store digest).isSome

/-- The engine accepts the timestamp of the scan, and fails only for a selected control that the
catalog does not define. A rule that cannot be evaluated has an error as its result, and a result
cites what the evaluation of its rule cites. -/
structure ScanSdk.Executes (sdk : ScanSdk) : Prop where
  timestamp : ∃ engine, sdk.newEngine scanExecutedAt executionMetadata = some engine
  unknown : ∀ engine catalog selection evaluator controlId,
    sdk.execute engine catalog selection evaluator = .error controlId →
      ∃ ids, selection = .controls ids ∧ controlId ∈ ids ∧
        (sdk.definitions catalog).hasControl controlId = false
  failure : ∀ engine catalog selection evaluator results,
    sdk.execute engine catalog selection evaluator = .ok results → ∀ result ∈ results,
      ∀ failure, evaluator result.ruleId = .error failure → result.status = .error
  cites : ∀ engine catalog selection evaluator results,
    sdk.execute engine catalog selection evaluator = .ok results → ∀ result ∈ results,
      ∀ ref ∈ result.evidenceRefs, ∃ evaluation, evaluator result.ruleId = .ok evaluation ∧
        ref ∈ evaluation.evidenceRefs

/-- The store holds one record for each digest that was written to it, and counts them. That a
write that fails loses none of them is an assumption of its own. -/
structure ScanSdk.Accumulates (sdk : ScanSdk) : Prop where
  written : ∀ store evidence store', sdk.store.writeAll store evidence = .ok store' →
    ∀ digest, (sdk.store.resolveDigest store' digest).isSome ↔
      (sdk.store.resolveDigest store digest).isSome ∨
        ∃ record ∈ evidence, record.contentHash = digest
  failed : ∀ store evidence digest, (sdk.store.resolveDigest store digest).isSome →
    (sdk.store.resolveDigest (sdk.afterFailedWrite store evidence) digest).isSome
  counted : ∀ store, ∃ digests : Finset Str,
    (∀ digest, digest ∈ digests ↔ (sdk.store.resolveDigest store digest).isSome) ∧
      sdk.store.entryCount store = digests.card

/-! ### The evidence of a host -/

/-- The last scanner that is registered for a rule answers. -/
theorem Registry.evaluate_register (registry : Registry) (rule other : Str)
    (evaluator : Str → Answer) :
    (registry.registerRuleEvaluator rule evaluator).evaluate other =
      if other = rule then evaluator other else registry.evaluate other := by
  rw [Registry.evaluate, registerRuleEvaluator, Ordered.Map.get_insert]
  by_cases hrule : rule = other
  · simp [hrule]
  · simp [hrule, Ne.symm hrule, Registry.evaluate]

/-- The rules a host is scanned for. -/
def hostRules : List Str :=
  [passwordAuthRule, permitRootLoginRule, daemonVersionEolRule, singleRootRule, osEolRule]

/-- Other rules have no scanner. -/
theorem evaluate_registryOf_of_notMem {system : SystemScanner} {user : UserScanner}
    {docker : DockerScanner} {ssh : SshScanner} {rule : Str} (h : rule ∉ hostRules) :
    (registryOf system user docker ssh).evaluate rule =
      .error ⟨"no scanner registered for rule '".toList ++ rule ++ "'".toList⟩ := by
  simp only [hostRules, List.mem_cons, List.not_mem_nil, or_false, not_or] at h
  obtain ⟨hpassword, hroot, hdaemon, hsingle, hos⟩ := h
  simp only [registryOf, Registry.evaluate_register, if_neg hpassword, if_neg hroot,
    if_neg hdaemon, if_neg hsingle, if_neg hos]
  rfl

/-- What the registry cites is in the evidence of its scanners. -/
theorem resolves_registryOf {system : SystemScanner} {user : UserScanner} {docker : DockerScanner}
    {ssh : SshScanner} {evidence : List StoredEvidence} {rule : Str}
    (hsystem : Resolves (system.evaluate rule) evidence)
    (huser : Resolves (user.evaluate rule) evidence)
    (hdocker : Resolves (docker.evaluate rule) evidence)
    (hssh : Resolves (ssh.evaluate rule) evidence) :
    Resolves ((registryOf system user docker ssh).evaluate rule) evidence := by
  simp only [registryOf, Registry.evaluate_register]
  split_ifs
  · exact hssh
  · exact hssh
  · exact hdocker
  · exact huser
  · exact hsystem
  · intro evaluation h
    cases h

theorem resolves_mono {answer : Answer} {log log' : List StoredEvidence} (hsub : log ⊆ log')
    (h : Resolves answer log) : Resolves answer log' := by
  intro evaluation hevaluation ref href
  obtain ⟨record, hrecord, hid⟩ := h evaluation hevaluation ref href
  exact ⟨record, hsub hrecord, hid⟩

/-- The scanners of a host. -/
theorem hostRegistry_ok {sdk : EvidenceSdk} {host : Host} {registry : Registry}
    {evidence : List StoredEvidence} (h : hostRegistry sdk host = .ok (registry, evidence)) :
    ∃ (system : SystemSnapshot) (user : UserSnapshot),
      let system := SystemScanner.new sdk system baselineSystemPolicy
      let user := UserScanner.new sdk user baselineUserPolicy
      let docker := DockerScanner.acquire sdk host.docker baselineDockerPolicy
      let ssh := SshScanner.acquire sdk host.ssh baselineSshPolicy
      registry = registryOf system user docker ssh ∧
        evidence = system.evidenceLog ++ user.evidenceLog ++ docker.evidenceLog ++
          ssh.evidenceLog := by
  rw [hostRegistry, SystemScanner.acquire] at h
  rcases hsystem : SystemSnapshot.acquire host.system with error | system
  · rw [hsystem] at h
    cases h
  · rw [hsystem] at h
    rcases hpasswd : host.passwd with error | passwd
    · rw [hpasswd] at h
      cases h
    · rw [hpasswd] at h
      cases h
      exact ⟨system, .acquire passwd host.shadow, rfl, rfl⟩

/-- **What the registry of a host cites** is in the evidence that is collected with it. -/
theorem hostRegistry_resolves {sdk : EvidenceSdk} (hsdk : sdk.Builds) {host : Host}
    {registry : Registry} {evidence : List StoredEvidence}
    (h : hostRegistry sdk host = .ok (registry, evidence)) (rule : Str) :
    Resolves (registry.evaluate rule) evidence := by
  obtain ⟨system, user, rfl, rfl⟩ := hostRegistry_ok h
  refine resolves_registryOf ?_ ?_ ?_ ?_
  · refine resolves_mono ?_ (hsdk.resolves (SystemScanner.cited _ rule))
    exact fun _ hmem => List.mem_append_left _ (List.mem_append_left _
      (List.mem_append_left _ hmem))
  · refine resolves_mono ?_ (hsdk.resolves (UserScanner.cited _ rule))
    exact fun _ hmem => List.mem_append_left _ (List.mem_append_left _
      (List.mem_append_right _ hmem))
  · refine resolves_mono ?_ (hsdk.resolves (DockerScanner.cited _ rule))
    exact fun _ hmem => List.mem_append_left _ (List.mem_append_right _ hmem)
  · refine resolves_mono ?_ (hsdk.resolves (SshScanner.cited _ rule))
    exact fun _ hmem => List.mem_append_right _ hmem

/-! ### What a command line asks for -/

variable {sdk : ScanSdk} {args : List Str} {config : ScanConfig} {catalog : sdk.CatalogData}
  {selection : Selection}

/-- A command line that no usage error stops. -/
structure Plans (sdk : ScanSdk) (args : List Str) (config : ScanConfig)
    (catalog : sdk.CatalogData) (selection : Selection) : Prop where
  parsed : parseArgs args = .ok (.scan config)
  loaded : sdk.loadFromDir config.catalog = .ok catalog
  validated : sdk.validate catalog = .ok ()
  resolved :
    resolveSelection (sdk.definitions catalog) config.framework config.control = .ok selection

/-- The controls of a selection are defined. -/
theorem hasControl_of_resolved {catalog : Catalog} {framework control : Option Str}
    {ids : List Str} (h : resolveSelection catalog framework control = .ok (.controls ids)) :
    ∀ id ∈ ids, catalog.hasControl id = true := by
  obtain ⟨-, entries, -, hentries, -, rfl⟩ := resolveSelection_controls_iff.mp h
  exact fun id hid => (hentries id (mem_firstSeen.mp hid)).2.2

/-- The engine does not fail for what a command line selects. -/
theorem Plans.runScan_ok (h : Plans sdk args config catalog selection) (hsdk : sdk.Executes)
    (evaluator : Str → Answer) :
    ∃ outcome engine, runScan sdk catalog selection evaluator config.failOn scanExecutedAt =
        .ok outcome ∧
      sdk.execute engine catalog selection evaluator = .ok outcome.results ∧
      outcome.exitCode = postureExitCode (outcome.results.map (·.status)) config.failOn := by
  obtain ⟨engine, hengine⟩ := hsdk.timestamp
  rcases hresults : sdk.execute engine catalog selection evaluator with controlId | results
  · obtain ⟨ids, rfl, hmem, hunknown⟩ := hsdk.unknown _ _ _ _ _ hresults
    rw [hasControl_of_resolved h.resolved controlId hmem] at hunknown
    cases hunknown
  · refine ⟨⟨renderReport sdk.describe (sdk.collectGaps catalog) results, results,
      postureExitCode (results.map (·.status)) config.failOn⟩, engine, ?_, hresults, rfl⟩
    rw [runScan, hengine]
    simp only [hresults]

/-- The arguments are rejected as a usage error. -/
theorem exitCode_of_parseArgs {e : ScanError} (h : parseArgs args = .error e) :
    e.exitCode = exitUsage := by
  obtain ⟨settings, rest, -, hrejects⟩ := parseArgs_eq_error_iff.mp h
  cases hrejects with
  | @threshold before setting _ _ _ _ _ hparse =>
      rw [FailOn.parse] at hparse
      split_ifs at hparse
      cases hparse
      rfl
  | unknown => rfl
  | missing => rfl
  | noCatalog => rfl

/-- A selection is refused as a usage error. -/
theorem exitCode_of_resolveSelection {catalog : Catalog} {framework control : Option Str}
    {e : ScanError} (h : resolveSelection catalog framework control = .error e) :
    e.exitCode = exitUsage := by
  cases resolveSelection_error_iff.mp h with
  | both => rfl
  | neither => rfl
  | framework => rfl
  | control =>
      rw [entryError]
      split
      · rfl
      · rfl

/-- What a scan prints and exits with. -/
def consoleOf : Except ScanError ScanOutcome → Console
  | .ok outcome => ⟨outcome.report, [], outcome.exitCode⟩
  | .error error => fail error

/-- The help, or a usage error. -/
def Refused (args : List Str) (console : Console) : Prop :=
  (parseArgs args = .ok .help ∧ console = ⟨help, [], exitClean⟩) ∨
    ∃ e : ScanError, console = fail e ∧ e.exitCode = exitUsage

/-- A command line plans a scan, or ends in the same way on every host. -/
theorem plans_or_refused (sdk : ScanSdk) (args : List Str) :
    (∃ config catalog selection, Plans sdk args config catalog selection) ∨
      ∃ console, Refused args console ∧ ∀ host disk, run sdk host disk args = (console, disk) := by
  rcases hparsed : parseArgs args with e | _ | config
  · refine .inr ⟨fail e, .inr ⟨e, rfl, exitCode_of_parseArgs hparsed⟩, fun host disk => ?_⟩
    rw [run, hparsed]
  · refine .inr ⟨_, .inl ⟨hparsed, rfl⟩, fun host disk => ?_⟩
    rw [run, hparsed]
  rcases hloaded : sdk.loadFromDir config.catalog with e | catalog
  · refine .inr ⟨_, .inr ⟨.catalogLoad e, rfl, rfl⟩, fun host disk => ?_⟩
    simp only [run, hparsed, execute, hloaded]
  rcases hvalidated : sdk.validate catalog with e | ⟨⟩
  · refine .inr ⟨_, .inr ⟨.catalogInvalid e, rfl, rfl⟩, fun host disk => ?_⟩
    simp only [run, hparsed, execute, hloaded, hvalidated]
  rcases hresolved : resolveSelection (sdk.definitions catalog) config.framework config.control
    with e | selection
  · refine .inr ⟨_, .inr ⟨e, rfl, exitCode_of_resolveSelection hresolved⟩, fun host disk => ?_⟩
    simp only [run, hparsed, execute, hloaded, hvalidated, hresolved]
  · exact .inl ⟨config, catalog, selection, hparsed, hloaded, hvalidated, hresolved⟩

/-- A host that cannot be read. -/
theorem Plans.run_of_unread (h : Plans sdk args config catalog selection) {host : Host}
    {e : ScanError} (hhost : hostRegistry sdk.evidence host = .error e) (disk : sdk.Disk) :
    run sdk host disk args = (fail e, disk) := by
  simp only [run, h.parsed, execute, h.loaded, h.validated, h.resolved, hhost]

/-- A host that is scanned. -/
theorem Plans.run_of_scanned (h : Plans sdk args config catalog selection) {host : Host}
    {registry : Registry} {evidence : List StoredEvidence} {outcome : ScanOutcome}
    (hhost : hostRegistry sdk.evidence host = .ok (registry, evidence))
    (hscan : runScan sdk catalog selection registry.evaluate config.failOn scanExecutedAt =
      .ok outcome) (disk : sdk.Disk) :
    run sdk host disk args =
      (consoleOf (persistOutcome sdk disk config.evidenceStore evidence outcome).1,
        (persistOutcome sdk disk config.evidenceStore evidence outcome).2) := by
  simp only [run, h.parsed, execute, h.loaded, h.validated, h.resolved, hhost, hscan]
  rcases persistOutcome sdk disk config.evidenceStore evidence outcome with ⟨e | outcome, disk'⟩
  · rfl
  · rfl

/-- The error of a host that cannot be read. -/
theorem exitCode_of_hostRegistry {sdk : EvidenceSdk} {host : Host} {e : ScanError}
    (h : hostRegistry sdk host = .error e) : e.exitCode = exitPostureBreach := by
  rw [hostRegistry] at h
  rcases hsystem : SystemScanner.acquire sdk host.system baselineSystemPolicy with error | system
  · rw [hsystem] at h
    cases h
    rfl
  · rw [hsystem] at h
    rcases huser : UserScanner.acquire sdk host.passwd host.shadow baselineUserPolicy
      with error | user
    · rw [huser] at h
      cases h
      rfl
    · rw [huser] at h
      cases h

/-! ### Persisting evidence -/

theorem persistOutcome_error {disk : sdk.Disk} {dir : Str} {evidence : List StoredEvidence}
    {e : Str} (h : persistEvidence sdk.store (disk dir) evidence = .error e)
    (outcome : ScanOutcome) :
    persistOutcome sdk disk (some dir) evidence outcome = (.error (.evidenceStore e),
      Function.update disk dir ((disk dir).map fun store =>
        sdk.afterFailedWrite store evidence)) := by
  simp only [persistOutcome, h]

theorem persistOutcome_ok {disk : sdk.Disk} {dir : Str} {evidence : List StoredEvidence}
    {stored : ℕ} {store : sdk.store.Store}
    (h : persistEvidence sdk.store (disk dir) evidence = .ok (stored, store))
    (outcome : ScanOutcome) :
    persistOutcome sdk disk (some dir) evidence outcome =
      (.ok { outcome with report := outcome.report ++ evidenceStoreSummary stored dir },
        Function.update disk dir (.ok store)) := by
  simp only [persistOutcome, h]

/-- Evidence is persisted by a write to a store that was opened. -/
theorem persistEvidence_ok_iff {sdk : StoreSdk} {opened : Except Str sdk.Store}
    {evidence : List StoredEvidence} {stored : ℕ} {store : sdk.Store} :
    persistEvidence sdk opened evidence = .ok (stored, store) ↔
      ∃ before, opened = .ok before ∧ sdk.writeAll before evidence = .ok store ∧
        stored = sdk.entryCount store := by
  rcases opened with e | before
  · simp [persistEvidence]
  · rcases hwrite : sdk.writeAll before evidence with e | after
    · simp [persistEvidence, hwrite]
    · simp only [persistEvidence, hwrite, Except.ok.injEq, Prod.mk.injEq, exists_eq_left']
      constructor
      · rintro ⟨rfl, rfl⟩
        exact ⟨rfl, rfl⟩
      · rintro ⟨rfl, rfl⟩
        exact ⟨rfl, rfl⟩

/-! ### A host and an SDK -/

/-- The result of a rule: a satisfied rule passes, and a finding fails. -/
def plainResult (evaluator : Str → Answer) (control : Str × Str) : ControlResult where
  controlId := control.1
  ruleId := control.2
  status :=
    match evaluator control.2 with
    | .error _ => .error
    | .ok ⟨.satisfied, _, _, _⟩ => .pass
    | .ok ⟨.finding, _, _, _⟩ => .fail
    | .ok ⟨.notApplicable _, _, _, _⟩ => .skipped
  severity := "major".toList
  weight := 5
  evidenceRefs :=
    match evaluator control.2 with
    | .error _ => []
    | .ok evaluation => evaluation.evidenceRefs
  reason := none
  executedAt := scanExecutedAt
  executionMetadata := executionMetadata

/-- Whether a list of controls with their rules defines a control. -/
def definesControl (catalog : List (Str × Str)) (id : Str) : Bool :=
  catalog.any fun control => control.1 = id

/-- Executes the selected controls. -/
def plainExecute (catalog : List (Str × Str)) (selection : Selection) (evaluator : Str → Answer) :
    Except Str (List ControlResult) :=
  match selection with
  | .framework _ => .ok (catalog.map (plainResult evaluator))
  | .controls ids =>
      match ids.find? fun id => !definesControl catalog id with
      | some id => .error id
      | none => .ok ((catalog.filter fun control => control.1 ∈ ids).map (plainResult evaluator))

theorem of_plainExecute_error {catalog : List (Str × Str)} {selection : Selection}
    {evaluator : Str → Answer} {id : Str}
    (h : plainExecute catalog selection evaluator = .error id) :
    ∃ ids, selection = .controls ids ∧ id ∈ ids ∧ definesControl catalog id = false := by
  rcases selection with framework | ids
  · cases h
  · rcases hfind : ids.find? fun id => !definesControl catalog id with _ | unknown
    · simp [plainExecute, hfind] at h
    · simp only [plainExecute, hfind, Except.error.injEq] at h
      subst h
      exact ⟨ids, rfl, List.mem_of_find?_eq_some hfind, by simpa using List.find?_some hfind⟩

theorem of_mem_plainExecute {catalog : List (Str × Str)} {selection : Selection}
    {evaluator : Str → Answer} {results : List ControlResult}
    (h : plainExecute catalog selection evaluator = .ok results) {result : ControlResult}
    (hresult : result ∈ results) : ∃ control, result = plainResult evaluator control := by
  rcases selection with framework | ids
  · cases h
    obtain ⟨control, -, rfl⟩ := List.mem_map.mp hresult
    exact ⟨control, rfl⟩
  · rcases hfind : ids.find? fun id => !definesControl catalog id with _ | unknown
    · simp only [plainExecute, hfind, Except.ok.injEq] at h
      subst h
      obtain ⟨control, -, rfl⟩ := List.mem_map.mp hresult
      exact ⟨control, rfl⟩
    · simp [plainExecute, hfind] at h

/-- A catalog of one framework, whose controls have one rule each, with an engine that executes
all rules, and a store that keeps the first record of each digest. -/
def plainScanSdk : ScanSdk where
  CatalogData := List (Str × Str)
  loadFromDir := fun dir =>
    if dir = "catalog".toList then .ok [("host.ssh.root-access".toList, permitRootLoginRule)]
    else .error "no such directory".toList
  validate := fun _ => .ok ()
  definitions := fun catalog => ⟨fun id => id = "cis-linux".toList, definesControl catalog⟩
  Engine := Str × Str
  newEngine := fun executedAt metadata =>
    if executedAt.getLast? = some 'Z' then some (executedAt, metadata) else none
  execute := fun _ => plainExecute
  describe := Status.label
  collectGaps := fun _ results => (results.filter fun result => result.status = .fail).map
    fun result => ⟨result.controlId, result.ruleId, []⟩
  evidence := keepingSdk
  store := firstKeptStore
  afterFailedWrite := fun store _ => store

theorem plainScanSdk_executes : plainScanSdk.Executes where
  timestamp := ⟨(scanExecutedAt, executionMetadata), rfl⟩
  unknown := fun _ _ _ _ _ h => of_plainExecute_error h
  failure := by
    intro engine catalog selection evaluator results h result hresult failure hfailure
    obtain ⟨control, rfl⟩ := of_mem_plainExecute h hresult
    simp only [plainResult] at hfailure ⊢
    rw [hfailure]
  cites := by
    intro engine catalog selection evaluator results h result hresult ref href
    obtain ⟨control, rfl⟩ := of_mem_plainExecute h hresult
    simp only [plainResult] at href ⊢
    rcases hanswer : evaluator control.2 with failure | evaluation
    · rw [hanswer] at href
      exact absurd href List.not_mem_nil
    · rw [hanswer] at href
      exact ⟨evaluation, rfl, href⟩

theorem get_insertAll_isSome (store : Keyed.Table Str StoredEvidence)
    (evidence : List StoredEvidence) (digest : Str) :
    ((store.insertAll StoredEvidence.contentHash id evidence).get digest).isSome ↔
      (store.get digest).isSome ∨ ∃ record ∈ evidence, record.contentHash = digest := by
  rw [Keyed.Table.get_insertAll, Option.isSome_or, Bool.or_eq_true, Option.isSome_map,
    List.find?_isSome]
  simp

theorem exists_digests (store : Keyed.Table Str StoredEvidence) :
    ∃ digests : Finset Str, (∀ digest, digest ∈ digests ↔ (store.get digest).isSome) ∧
      store.rows.length = digests.card := by
  refine ⟨(store.rows.map Prod.fst).toFinset, fun digest => ?_, ?_⟩
  · rw [List.mem_toFinset, List.mem_map, Option.isSome_iff_exists]
    constructor
    · rintro ⟨⟨_, record⟩, hmem, rfl⟩
      exact ⟨record, Keyed.Table.mem_rows_iff.mp hmem⟩
    · rintro ⟨record, hget⟩
      exact ⟨(digest, record), Keyed.Table.mem_rows_iff.mpr hget, rfl⟩
  · rw [List.toFinset_card_of_nodup store.nodup, List.length_map]

theorem plainScanSdk_accumulates : plainScanSdk.Accumulates where
  written := by
    rintro store evidence _ ⟨⟩ digest
    exact get_insertAll_isSome store evidence digest
  failed := fun _ _ _ h => h
  counted := exists_digests

/-- A host with an SSH server that refuses root. -/
def sshHost : Host where
  system :=
    { hostname := .missing
      etcOsRelease := .missing
      usrLibOsRelease := .missing
      dpkgQueryOnPath := false
      rpmOnPath := false
      inventory := fun _ => .missing
      systemdDir := false
      listUnits := .missing }
  passwd := .ok "root:x:0:0:root:/root:/bin/sh".toList
  shadow := none
  docker := ⟨.missing, none, false, false⟩
  ssh := ⟨.succeeded "permitrootlogin no".toList, none, none, true, true⟩

/-- The stores of a host that has none yet. -/
def noStores : plainScanSdk.Disk :=
  fun _ => .ok Keyed.Table.empty

/-- A scan of a framework that persists its evidence. -/
def frameworkArgs : List Str :=
  ["--catalog".toList, "catalog".toList, "--framework=cis-linux".toList,
    "--evidence-store".toList, "evidence".toList]

/-- What these arguments say. -/
def frameworkConfig : ScanConfig :=
  ⟨"catalog".toList, some "cis-linux".toList, none, .fail, some "evidence".toList⟩

theorem plans_frameworkArgs : Plans plainScanSdk frameworkArgs frameworkConfig
    [("host.ssh.root-access".toList, permitRootLoginRule)] (.framework "cis-linux".toList) where
  parsed := by decide
  loaded := rfl
  validated := rfl
  resolved := by decide

/-- The scanners of the host. -/
def sshRegistry : Registry :=
  registryOf (.new keepingSdk ⟨none, none, .unreadable, [], none, .absent⟩ baselineSystemPolicy)
    (.new keepingSdk (.acquire "root:x:0:0:root:/root:/bin/sh".toList none) baselineUserPolicy)
    (.acquire keepingSdk sshHost.docker baselineDockerPolicy)
    (.acquire keepingSdk sshHost.ssh baselineSshPolicy)

/-- The evidence of the account and of the configuration. -/
def sshEvidence : List StoredEvidence :=
  (UserScanner.new keepingSdk (.acquire "root:x:0:0:root:/root:/bin/sh".toList none)
    baselineUserPolicy).evidenceLog ++
    (SshScanner.acquire keepingSdk sshHost.ssh baselineSshPolicy).evidenceLog

theorem hostRegistry_sshHost :
    hostRegistry plainScanSdk.evidence sshHost = .ok (sshRegistry, sshEvidence) :=
  rfl

/-- The outcome of the scan. -/
def sshOutcome : ScanOutcome where
  report := renderReport plainScanSdk.describe (plainScanSdk.collectGaps [])
    [plainResult sshRegistry.evaluate ("host.ssh.root-access".toList, permitRootLoginRule)]
  results := [plainResult sshRegistry.evaluate ("host.ssh.root-access".toList, permitRootLoginRule)]
  exitCode := exitClean

theorem runScan_sshHost :
    runScan plainScanSdk [("host.ssh.root-access".toList, permitRootLoginRule)]
      (.framework "cis-linux".toList) sshRegistry.evaluate frameworkConfig.failOn scanExecutedAt =
        .ok sshOutcome :=
  rfl

end ScanCommand

end SovriAgent
