import SovriAgent.Corpus
import SovriAgent.DockerScanner

/-!
# The Listing of a Scan

The report of a scan lists its results, one line for each, and then the compliance gaps. A line
has the ids, the status and the reason of a result and the evidence it cites, none of it
escaped. Reasons quote names of the host: those of `daemon.json` are decoded from JSON strings,
which may hold line feeds, so a registry can be named such that its result takes two lines, and
the second reads as the result of another control.

The descriptions of the statuses and the gaps of a set of results are values of the SDK, and
parameters here.

## Main results

* `reportListing_iff`: the results that are listed on one line each.
* `registry_adds_line`: a registry of `daemon.json` that adds a line.
-/

namespace SovriAgent

/-! ### The report -/

/-- A compliance gap, as the values its accessors return. -/
structure Gap where
  controlId : Str
  reason : Str
  remediation : Str

/-- The reason of a result, or the description of its status. -/
def ControlResult.reasonText (describe : Status → Str) (result : ControlResult) : Str :=
  result.reason.getD (describe result.status)

/-- What a line of the listing starts with: control id, rule id and status. -/
def lineStart (result : ControlResult) : Str :=
  result.controlId ++ "  ".toList ++ result.ruleId ++ "  ".toList ++ result.status.label

/-- The line of a result, without its line feed. -/
def listingLine (describe : Status → Str) (result : ControlResult) : Str :=
  lineStart result ++ "  ".toList ++ result.reasonText describe ++
    (if result.evidenceRefs = [] then []
      else "  [".toList ++ joinNames result.evidenceRefs ++ [']'])

/-- The listing of the results. -/
def reportListing (describe : Status → Str) (results : List ControlResult) : Str :=
  if results = [] then "No controls were executed.\n".toList
  else results.flatMap fun result => listingLine describe result ++ ['\n']

/-- The line of a gap, and that of its remediation. -/
def gapLines (gap : Gap) : Str :=
  gap.controlId ++ "  ".toList ++ gap.reason ++ ['\n'] ++
    (if gap.remediation = [] then []
      else "    remediation: ".toList ++ gap.remediation ++ ['\n'])

/-- The section of the compliance gaps, with its heading. -/
def gapsSection (gaps : List Gap) : Str :=
  "\nCompliance gaps\n".toList ++
    (if gaps = [] then "No compliance gaps were found.\n".toList else gaps.flatMap gapLines)

/-- The report of a scan. -/
def renderReport (describe : Status → Str) (collectGaps : List ControlResult → List Gap)
    (results : List ControlResult) : Str :=
  reportListing describe results ++ gapsSection (collectGaps results)

/-! ### Line feeds -/

/-- Texts that end in line feeds have one for each, and those inside them. -/
theorem count_lineFeeds {α : Type} (text : α → Str) (items : List α) :
    (items.flatMap fun item => text item ++ ['\n']).count '\n' =
      (items.map fun item => (text item).count '\n').sum + items.length := by
  induction items with
  | nil => rfl
  | cons item items ih =>
      rw [List.flatMap_cons, List.count_append, List.count_append, ih, List.count_singleton_self,
        List.map_cons, List.sum_cons, List.length_cons]
      omega

/-- A text without line feeds, in all its parts. -/
theorem lineFeed_joinNames {names : List Str} :
    '\n' ∉ joinNames names ↔ ∀ name ∈ names, '\n' ∉ name := by
  rw [mem_joinNames (by decide)]
  push Not
  rfl

/-- No id, reason or evidence of a result has a line feed. -/
structure NoLineFeed (describe : Status → Str) (result : ControlResult) : Prop where
  controlId : '\n' ∉ result.controlId
  ruleId : '\n' ∉ result.ruleId
  reason : '\n' ∉ result.reasonText describe
  evidenceRefs : ∀ ref ∈ result.evidenceRefs, '\n' ∉ ref

/-- The line of a result is one line if none of its texts has a line feed. -/
theorem lineFeed_listingLine {describe : Status → Str} {result : ControlResult} :
    '\n' ∉ listingLine describe result ↔ NoLineFeed describe result := by
  have hgap : '\n' ∉ "  ".toList := by decide
  have hopen : '\n' ∉ "  [".toList := by decide
  have hclose : '\n' ∉ [']'] := by decide
  have hlabel : '\n' ∉ result.status.label := by cases result.status <;> decide
  have hrefs : '\n' ∉ (if result.evidenceRefs = [] then []
      else "  [".toList ++ joinNames result.evidenceRefs ++ [']']) ↔
      ∀ ref ∈ result.evidenceRefs, '\n' ∉ ref := by
    split_ifs with hempty
    · simp [hempty]
    · rw [List.mem_append, List.mem_append, not_or, not_or, lineFeed_joinNames]
      exact ⟨fun h => h.1.2, fun h => ⟨⟨hopen, h⟩, hclose⟩⟩
  simp only [listingLine, lineStart, List.mem_append, not_or, hrefs]
  constructor
  · rintro ⟨⟨⟨⟨⟨⟨⟨hcontrol, -⟩, hrule⟩, -⟩, -⟩, -⟩, hreason⟩, hevidence⟩
    exact ⟨hcontrol, hrule, hreason, hevidence⟩
  · rintro ⟨hcontrol, hrule, hreason, hevidence⟩
    exact ⟨⟨⟨⟨⟨⟨⟨hcontrol, hgap⟩, hrule⟩, hgap⟩, hlabel⟩, hgap⟩, hreason⟩, hevidence⟩

/-! ### One line for each result -/

/-- What the report has before the compliance gaps is one line for each result, in order, each
beginning with the ids and the status of its result. -/
def ListsEach (describe : Status → Str) (collectGaps : List ControlResult → List Gap)
    (results : List ControlResult) : Prop :=
  ∃ lines : List Str,
    renderReport describe collectGaps results =
      lines.flatMap (· ++ ['\n']) ++ gapsSection (collectGaps results) ∧
    (∀ line ∈ lines, '\n' ∉ line) ∧
    List.Forall₂ (fun result line => lineStart result <+: line) results lines

variable {describe : Status → Str} {collectGaps : List ControlResult → List Gap}
  {results : List ControlResult}

theorem reportListing_of_ne_nil (describe : Status → Str) (hne : results ≠ []) :
    reportListing describe results =
      results.flatMap fun result => listingLine describe result ++ ['\n'] :=
  if_neg hne

/-- Results listed on one line each have no line feed in their lines. -/
theorem ListsEach.lineFeed_notMem (h : ListsEach describe collectGaps results)
    {result : ControlResult} (hresult : result ∈ results) :
    '\n' ∉ listingLine describe result := by
  obtain ⟨lines, hrendered, hlines, hstarts⟩ := h
  have heq : reportListing describe results = lines.flatMap (· ++ ['\n']) :=
    List.append_cancel_right hrendered
  -- as many line feeds as lines, so none is left for the texts of the results
  have hcount := congrArg (List.count '\n') heq
  have hnone : (lines.map fun line => line.count '\n').sum = 0 := by
    refine List.sum_eq_zero fun n hn => ?_
    obtain ⟨line, hline, rfl⟩ := List.mem_map.mp hn
    exact List.count_eq_zero.mpr (hlines line hline)
  have hlength := hstarts.length_eq
  rw [reportListing_of_ne_nil describe (List.ne_nil_of_mem hresult), count_lineFeeds,
    count_lineFeeds (fun line => line), hnone] at hcount
  have hsum : (results.map fun result => (listingLine describe result).count '\n').sum = 0 := by
    omega
  exact List.count_eq_zero.mp (List.sum_eq_zero_iff.mp hsum _ (List.mem_map_of_mem hresult))

/-- Results without line feeds in their lines are listed on one line each. -/
theorem listsEach_of_lineFeed (hne : results ≠ [])
    (hlines : ∀ result ∈ results, '\n' ∉ listingLine describe result) :
    ListsEach describe collectGaps results := by
  refine ⟨results.map (listingLine describe), ?_, ?_, ?_⟩
  · rw [renderReport, reportListing_of_ne_nil describe hne, List.flatMap_map]
  · intro line hline
    obtain ⟨result, hresult, rfl⟩ := List.mem_map.mp hline
    exact hlines result hresult
  · rw [List.forall₂_map_right_iff]
    refine List.forall₂_same.mpr fun result _ => ?_
    rw [listingLine, List.append_assoc, List.append_assoc]
    exact List.prefix_append _ _

/-- **The results listed on one line each** are those without line feeds in their texts. -/
theorem reportListing_iff (describe : Status → Str)
    (collectGaps : List ControlResult → List Gap) {results : List ControlResult}
    (hne : results ≠ []) :
    ListsEach describe collectGaps results ↔ ∀ result ∈ results, NoLineFeed describe result := by
  constructor
  · intro hlists result hresult
    exact lineFeed_listingLine.mp (hlists.lineFeed_notMem hresult)
  · intro hnone
    exact listsEach_of_lineFeed hne fun result hresult =>
      lineFeed_listingLine.mpr (hnone result hresult)

/-- A failed result of the registry rule. -/
def registryResult (reason : Option Str) : ControlResult where
  controlId := "docker-04".toList
  ruleId := insecureRegistriesRule
  status := .fail
  severity := "high".toList
  weight := 1
  evidenceRefs := []
  reason := reason
  executedAt := []
  executionMetadata := []

theorem reportListing_iff_described :
    ListsEach (fun _ => "The control failed.".toList) (fun _ => [])
      [registryResult (some "images are pulled without TLS".toList), registryResult none] := by
  refine (reportListing_iff _ _ (List.cons_ne_nil _ _)).mpr ?_
  simp only [List.forall_mem_cons]
  refine ⟨?_, ?_, List.forall_mem_nil _⟩ <;>
    exact ⟨by decide, by decide, by decide, List.forall_mem_nil _⟩

/-! ### A registry with a line feed -/

/-- What is said of a daemon that trusts some registries. -/
def registriesDetail (registries : List Str) : Str :=
  "the Docker daemon trusts insecure registries (".toList ++ joinNames registries ++
    "): images are pulled without verified ".toList ++
    "TLS. Remove the insecure-registries entries.".toList

/-- The configuration of a daemon that answers is that of its `daemon.json`. -/
theorem acquire_daemonJson {probes : DockerProbes} {stdout raw : Str} {config : DaemonConfig}
    (hinfo : probes.info = .succeeded stdout) (hraw : probes.daemonJson = some raw)
    (hconfig : (JsonParser.parse raw).bind configFromJson = some config) :
    (DockerSnapshot.acquire probes).daemon = .reachable ∧
      (DockerSnapshot.acquire probes).config = some config := by
  simp only [DockerSnapshot.acquire, hinfo, hraw, DockerSnapshotBuilder.daemonJson, hconfig]
  split_ifs <;> exact ⟨rfl, rfl⟩

/-- The reason of the registry rule quotes the names of the registries. -/
theorem evaluate_insecureRegistries (sdk : EvidenceSdk) (policy : DockerPolicy)
    {probes : DockerProbes} {config : DaemonConfig}
    (hdaemon : (DockerSnapshot.acquire probes).daemon = .reachable)
    (hconfig : (DockerSnapshot.acquire probes).config = some config)
    (hne : config.insecureRegistries ≠ []) :
    ∃ evaluation, (DockerScanner.acquire sdk probes policy).evaluate insecureRegistriesRule =
        .ok evaluation ∧
      evaluation.detail = some (registriesDetail config.insecureRegistries) := by
  have hsnapshot : (DockerScanner.acquire sdk probes policy).snapshot =
    DockerSnapshot.acquire probes := rfl
  rw [← hsnapshot] at hdaemon hconfig
  generalize DockerScanner.acquire sdk probes policy = scanner at hdaemon hconfig
  have hrule : scanner.evaluate insecureRegistriesRule = scanner.evaluateInsecureRegistries := by
    have hversion : insecureRegistriesRule ≠ daemonVersionEolRule := by decide
    have hobsolete : insecureRegistriesRule ≠ daemonVersionObsoleteRule := by decide
    simp only [DockerScanner.evaluate, hdaemon, hversion, hobsolete, if_false, if_true]
  refine ⟨scanner.configAnchored
    (Evaluation.finding.withDetail (registriesDetail config.insecureRegistries)), ?_, ?_⟩
  · rw [hrule]
    simp only [DockerScanner.evaluateInsecureRegistries, DockerScanner.requireConfig, hconfig]
    exact if_neg hne
  · rw [DockerScanner.configAnchored]
    cases scanner.snapshot.origin <;> rfl

/-- A `daemon.json` that trusts a registry whose name goes on with the result of another
control. -/
def linedDaemonJson : Str :=
  "\x7b\"insecure-registries\":[\"a\\nssh-01  ssh.root  PASS  ok\"]\x7d".toList

/-- The name of that registry. -/
def linedRegistry : Str :=
  'a' :: '\n' :: "ssh-01  ssh.root  PASS  ok".toList

/-- A daemon that answers, with that `daemon.json`. -/
def linedProbes : DockerProbes where
  info := .succeeded "27.0.0".toList
  daemonJson := some linedDaemonJson
  daemonJsonExists := true
  dockerOnPath := true

/-- Any policy. -/
def linedPolicy : DockerPolicy :=
  ⟨⟨20, 10, 0⟩, ⟨24, 0, 0⟩, []⟩

/-- The configuration of that daemon. -/
def linedConfig : DaemonConfig :=
  ⟨[("insecure-registries".toList, JsonValue.array [.str linedRegistry])].foldl insertSetting
    .empty⟩

theorem linedConfig_insecureRegistries : linedConfig.insecureRegistries = [linedRegistry] := by
  decide

/-- A registry of `daemon.json` adds a line to the listing. -/
theorem registry_adds_line :
    ¬ ∀ (describe : Status → Str) (collectGaps : List ControlResult → List Gap)
      (probes : DockerProbes) (policy : DockerPolicy) (evaluation : Evaluation)
      (result : ControlResult),
      (DockerScanner.acquire keepingSdk probes policy).evaluate insecureRegistriesRule =
        .ok evaluation →
      result.ruleId = insecureRegistriesRule → result.reason = evaluation.detail →
      ListsEach describe collectGaps [result] := by
  intro h
  have hparse : JsonParser.parse linedDaemonJson =
      some (.object [("insecure-registries".toList, .array [.str linedRegistry])]) := by cbv
  have hconfig : (JsonParser.parse linedDaemonJson).bind configFromJson = some linedConfig := by
    rw [hparse]
    rfl
  have hinfo : linedProbes.info = .succeeded "27.0.0".toList := rfl
  have hraw : linedProbes.daemonJson = some linedDaemonJson := rfl
  have hsnapshot := acquire_daemonJson hinfo hraw hconfig
  have hregistries : linedConfig.insecureRegistries ≠ [] := by
    rw [linedConfig_insecureRegistries]
    exact List.cons_ne_nil _ _
  obtain ⟨evaluation, hevaluate, hdetail⟩ :=
    evaluate_insecureRegistries keepingSdk linedPolicy hsnapshot.1 hsnapshot.2 hregistries
  have hlists := h (fun _ => []) (fun _ => []) linedProbes linedPolicy evaluation
    (registryResult evaluation.detail) hevaluate rfl rfl
  have hreason := (lineFeed_listingLine.mp
    (hlists.lineFeed_notMem (List.mem_singleton_self _))).reason
  rw [hdetail, linedConfig_insecureRegistries] at hreason
  revert hreason
  decide

end SovriAgent
