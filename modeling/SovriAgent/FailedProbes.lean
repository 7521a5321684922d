import SovriAgent.SystemScanner

/-!
# Failed Probes of a Host

The facts a rule of the system scanner grades come from one probe: an os-release file, the
inventory command of the selected package manager, or the list of running services. A failed
os-release stays a failure in the snapshot and in the answer. A failed command does not: its
output is dropped on the way into the snapshot, where the inventory is empty and the services
are none, and both read as compliant.

## Main results

* `passes_of_inventory`, `passes_of_services`: a host whose command fails passes the rule.
* `failed_probes_never_pass_iff`: no failed probe reads as a pass exactly when neither command
  failed, or there is no scanner at all.
-/

namespace SovriAgent

/-! ### Sources -/

/-- The package manager whose inventory is taken. -/
def selectedManager (probes : HostProbes) : Option Manager :=
  selectFrom (packageManagers probes) (readOsRelease probes).id

/-- The inventory command of the selected manager failed. -/
def InventoryFailed (probes : HostProbes) : Prop :=
  ∃ manager, selectedManager probes = some manager ∧ (probes.inventory manager).output = none

/-- The host runs `systemd`, but its services could not be listed. -/
def ListUnitsFailed (probes : HostProbes) : Prop :=
  probes.systemdDir = true ∧ probes.listUnits.output = none

/-- The only probe for the facts a rule grades failed. -/
def SourceFailed (probes : HostProbes) (rule : Str) : Prop :=
  ((rule = osEolRule ∨ rule = osSupportUndeterminedRule) ∧
      probes.etcOsRelease.text = none ∧ probes.usrLibOsRelease.text = none) ∨
    (rule = packageInventoryRule ∧ InventoryFailed probes) ∨
    (rule = servicesRule ∧ ListUnitsFailed probes)

/-! ### What a failure becomes -/

/-- A scanner of a host has the state its probes came to. -/
theorem snapshot_of_acquire {sdk : EvidenceSdk} {probes : HostProbes} {policy : SystemPolicy}
    {scanner : SystemScanner} (h : SystemScanner.acquire sdk probes policy = .ok scanner) :
    scanner.snapshot.osRelease = readOsRelease probes ∧
      scanner.snapshot.packageManagers = packageManagers probes ∧
      scanner.snapshot.services = probeServices probes := by
  rw [SystemScanner.acquire, SystemSnapshot.acquire] at h
  cases hhostname : readHostname probes with
  | error message => simp [hhostname] at h
  | ok hostname =>
      simp only [hhostname, Except.ok.injEq] at h
      subst h
      exact ⟨rfl, rfl, rfl⟩

variable {sdk : EvidenceSdk} {probes : HostProbes} {policy : SystemPolicy}
  {scanner : SystemScanner}

/-- Without an os-release the version is a failure. -/
theorem osVersion_of_unreadable (h : SystemScanner.acquire sdk probes policy = .ok scanner)
    (hetc : probes.etcOsRelease.text = none) (husr : probes.usrLibOsRelease.text = none) :
    scanner.osVersion = failed "the os-release file could not be read".toList := by
  have hrelease := (snapshot_of_acquire h).1
  rw [readOsRelease, hetc, husr] at hrelease
  rw [SystemScanner.osVersion, hrelease]

theorem not_passes_failed (message : Str) : ¬Passes (failed message) := by
  rintro ⟨evaluation, h, -⟩
  cases h

/-- A rule that grades the os-release does not pass without one. -/
theorem not_passes_of_unreadable {rule : Str}
    (h : SystemScanner.acquire sdk probes policy = .ok scanner)
    (hrule : rule = osEolRule ∨ rule = osSupportUndeterminedRule)
    (hetc : probes.etcOsRelease.text = none) (husr : probes.usrLibOsRelease.text = none) :
    ¬Passes (scanner.evaluate rule) := by
  have hversion := osVersion_of_unreadable h hetc husr
  obtain rfl | rfl := hrule
  · rw [SystemScanner.evaluate, if_pos rfl, SystemScanner.evaluateOsEol, hversion]
    exact not_passes_failed _
  · have hne : osSupportUndeterminedRule ≠ osEolRule := by decide
    rw [SystemScanner.evaluate, if_neg hne, if_pos rfl, SystemScanner.evaluateOsUndetermined,
      hversion]
    exact not_passes_failed _

/-- A package manager passes the inventory rule, whatever its command came to. -/
theorem passes_of_inventory (h : SystemScanner.acquire sdk probes policy = .ok scanner)
    {manager : Manager} (hmanager : selectedManager probes = some manager) :
    Passes (scanner.evaluate packageInventoryRule) := by
  obtain ⟨hrelease, hmanagers, -⟩ := snapshot_of_acquire h
  have hselected : selectManager scanner.snapshot = some manager := by
    rw [selectManager, hmanagers, hrelease]
    exact hmanager
  refine ⟨Evaluation.satisfied.withEvidenceRefs [packageInventoryEvidenceId], ?_, rfl⟩
  change scanner.evaluatePackages = _
  rw [SystemScanner.evaluatePackages, hselected]
  rfl

/-- Services that could not be listed pass the services rule. -/
theorem passes_of_services (h : SystemScanner.acquire sdk probes policy = .ok scanner)
    (hfailed : ListUnitsFailed probes) : Passes (scanner.evaluate servicesRule) := by
  obtain ⟨-, -, hservices⟩ := snapshot_of_acquire h
  rw [probeServices, if_pos hfailed.1, hfailed.2] at hservices
  refine ⟨.satisfied, ?_, rfl⟩
  change Except.ok scanner.evaluateServices = _
  rw [SystemScanner.evaluateServices, hservices]
  rfl

/-! ### When no failure reads as a pass -/

/-- No rule passes on a failed probe exactly when there is no scanner, or the inventory command
of the selected manager and the list of services did not fail. -/
theorem failed_probes_never_pass_iff (sdk : EvidenceSdk) (probes : HostProbes)
    (policy : SystemPolicy) :
    (∀ scanner rule, SystemScanner.acquire sdk probes policy = .ok scanner →
      SourceFailed probes rule → ¬Passes (scanner.evaluate rule)) ↔
    (∃ message, probes.hostname = .failed message) ∨
      (¬InventoryFailed probes ∧ ¬ListUnitsFailed probes) := by
  constructor
  · intro hnever
    by_cases hhostname : ∃ message, probes.hostname = .failed message
    · exact .inl hhostname
    · have hscanner : ∃ scanner, SystemScanner.acquire sdk probes policy = .ok scanner := by
        rw [SystemScanner.acquire, SystemSnapshot.acquire, readHostname]
        cases hprobe : probes.hostname with
        | missing => exact ⟨_, rfl⟩
        | failed message => exact absurd ⟨message, hprobe⟩ hhostname
        | content text => exact ⟨_, rfl⟩
      obtain ⟨scanner, hacquire⟩ := hscanner
      refine .inr ⟨fun hinventory => ?_, fun hservices => ?_⟩
      · obtain ⟨manager, hmanager, -⟩ := id hinventory
        exact hnever scanner _ hacquire (.inr (.inl ⟨rfl, hinventory⟩))
          (passes_of_inventory hacquire hmanager)
      · exact hnever scanner _ hacquire (.inr (.inr ⟨rfl, hservices⟩))
          (passes_of_services hacquire hservices)
  · rintro (⟨message, hmessage⟩ | ⟨hinventory, hservices⟩) scanner rule hacquire hfailed
    · rw [SystemScanner.acquire, SystemSnapshot.acquire, readHostname, hmessage] at hacquire
      cases hacquire
    · obtain ⟨hrule, hetc, husr⟩ | ⟨-, hother⟩ | ⟨-, hother⟩ := hfailed
      · exact not_passes_of_unreadable hacquire hrule hetc husr
      · exact absurd hother hinventory
      · exact absurd hother hservices

/-- A host that runs `systemd` whose `systemctl` fails, and whose `dpkg-query` does too. -/
def brokenHost : HostProbes where
  hostname := .content "host".toList
  etcOsRelease := .content "ID=debian".toList
  usrLibOsRelease := .missing
  dpkgQueryOnPath := true
  rpmOnPath := false
  inventory := fun _ => .failed
  systemdDir := true
  listUnits := .failed

/-- **Two probes fail and their rules pass.** -/
theorem broken_host_passes :
    ∃ scanner, SystemScanner.acquire keepingSdk brokenHost ⟨⟨[]⟩, ⟨["telnet".toList]⟩⟩ =
        .ok scanner ∧
      SourceFailed brokenHost servicesRule ∧ Passes (scanner.evaluate servicesRule) ∧
      SourceFailed brokenHost packageInventoryRule ∧
      Passes (scanner.evaluate packageInventoryRule) := by
  have hservices : ListUnitsFailed brokenHost := ⟨rfl, rfl⟩
  have hmanager : selectedManager brokenHost = some .dpkg := rfl
  obtain ⟨scanner, hacquire⟩ : ∃ scanner, SystemScanner.acquire keepingSdk brokenHost
      ⟨⟨[]⟩, ⟨["telnet".toList]⟩⟩ = .ok scanner := ⟨_, rfl⟩
  exact ⟨scanner, hacquire, .inr (.inr ⟨rfl, hservices⟩), passes_of_services hacquire hservices,
    .inr (.inl ⟨rfl, .dpkg, hmanager, rfl⟩), passes_of_inventory hacquire hmanager⟩

end SovriAgent
