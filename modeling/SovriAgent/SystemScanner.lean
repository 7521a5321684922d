import SovriAgent.EvidenceSdk
import SovriAgent.Strings

/-!
# The System Scanner

The base posture of a host: the OS release, the installed packages and the running services. A
snapshot is captured by probes of files and commands, each of which may fail; the rules are
evaluated on the snapshot alone.
-/

namespace SovriAgent

/-! ### Rules and evidence ids -/

/-- The installed OS release is out of support. -/
def osEolRule : Str :=
  "host.os.eol".toList

/-- The support status of the OS could not be determined. -/
def osSupportUndeterminedRule : Str :=
  "host.os.support-undetermined".toList

/-- The installed packages are inventoried. -/
def packageInventoryRule : Str :=
  "host.packages.inventory".toList

/-- No superfluous service is active. -/
def servicesRule : Str :=
  "host.services.no-superfluous".toList

/-- The file the os-release evidence is anchored on. -/
def osReleaseLocator : Str :=
  "/etc/os-release".toList

/-- The id of the os-release evidence. -/
def osReleaseEvidenceId : Str :=
  "host.os-release".toList

/-- The id of the evidence of the package inventory. -/
def packageInventoryEvidenceId : Str :=
  "host.package-inventory".toList

/-! ### Policies -/

/-- A package manager. -/
inductive Manager where
  | dpkg
  | rpm
deriving DecidableEq, Repr

/-- The command that is recorded as the locator of the inventory. -/
def Manager.inventoryCommand : Manager → Str
  | .dpkg => "dpkg-query -W".toList
  | .rpm => "rpm -qa".toList

/-- Whether a version is supported. -/
inductive SupportStatus where
  | supported
  | endOfSupport
deriving DecidableEq, Repr

/-- The versions of the distributions with their support status. -/
structure SupportPolicy where
  entries : List (Str × Str × SupportStatus)

/-- The support status of a version, if it is listed. -/
def SupportPolicy.statusOf (policy : SupportPolicy) (os version : Str) : Option SupportStatus :=
  (policy.entries.find? fun entry => entry.1 = os ∧ entry.2.1 = version).map (·.2.2)

/-- The name of a service without the suffix of a unit. -/
def serviceBaseName (service : Str) : Str :=
  (stripSuffix ".service".toList service).getD service

/-- The names of the services that must not be active. -/
structure ServicePolicy where
  interdicted : List Str

/-- Whether a service must not be active. -/
def ServicePolicy.interdicts (policy : ServicePolicy) (service : Str) : Bool :=
  policy.interdicted.any fun name => serviceBaseName name = serviceBaseName service

/-- What the scanner evaluates against. -/
structure SystemPolicy where
  support : SupportPolicy
  services : ServicePolicy

/-! ### Snapshots -/

/-- The os-release facts. -/
inductive OsRelease where
  | readable (id : Str) (versionId : Option Str) (raw : Str)
  | unreadable

/-- The distribution, when os-release was readable. -/
def OsRelease.id : OsRelease → Option Str
  | .readable id _ _ => some id
  | .unreadable => none

/-- A service of the host. -/
structure Service where
  name : Str
  active : Bool
deriving DecidableEq

/-- The services a service manager reports, if there is one. -/
inductive ServiceState where
  | absent
  | present (running : List Service)

/-- The captured state of a host. -/
structure SystemSnapshot where
  hostname : Option Str
  fqdn : Option Str
  osRelease : OsRelease
  packageManagers : List Manager
  inventory : Option Str
  services : ServiceState

/-- The manager selected for a distribution: the only one there is, or the one of its family,
or the first. -/
def selectFrom (managers : List Manager) (osId : Option Str) : Option Manager :=
  match managers with
  | [] => none
  | [only] => some only
  | first :: _ =>
      if osId = some "ubuntu".toList ∨ osId = some "debian".toList then some .dpkg
      else if osId = some "rhel".toList ∨ osId = some "fedora".toList then some .rpm
      else some first

/-- The manager the packages are inventoried with. -/
def selectManager (snapshot : SystemSnapshot) : Option Manager :=
  selectFrom snapshot.packageManagers snapshot.osRelease.id

/-! ### The scanner -/

/-- A snapshot with the policy it is evaluated against and the evidence captured of it. -/
structure SystemScanner where
  snapshot : SystemSnapshot
  policy : SystemPolicy
  evidence : List StoredEvidence

/-- The evidence of a readable os-release. -/
def osReleaseBuilder : OsRelease → Option EvidenceBuilder
  | .readable _ _ raw => some ⟨osReleaseEvidenceId, .config, osReleaseLocator, none, none, raw⟩
  | .unreadable => none

/-- The evidence of a package inventory. -/
def inventoryBuilder (snapshot : SystemSnapshot) : Option EvidenceBuilder :=
  (selectManager snapshot).map fun manager =>
    ⟨packageInventoryEvidenceId, .command, manager.inventoryCommand, none, none,
      snapshot.inventory.getD []⟩

/-- The evidence of a host. -/
def systemEvidence (snapshot : SystemSnapshot) : List EvidenceBuilder :=
  (osReleaseBuilder snapshot.osRelease).toList ++ (inventoryBuilder snapshot).toList

namespace SystemScanner

/-- The scanner of a snapshot. -/
def new (sdk : EvidenceSdk) (snapshot : SystemSnapshot) (policy : SystemPolicy) :
    SystemScanner where
  snapshot := snapshot
  policy := policy
  evidence := sdk.collect (systemEvidence snapshot)

/-- The captured evidence. -/
def evidenceLog (scanner : SystemScanner) : List StoredEvidence :=
  scanner.evidence

/-- The identity of the host, as engine metadata. -/
def identityMetadata (scanner : SystemScanner) : Str :=
  match scanner.snapshot.hostname, scanner.snapshot.fqdn with
  | some hostname, some fqdn => "host=".toList ++ hostname ++ " fqdn=".toList ++ fqdn
  | some hostname, none => "host=".toList ++ hostname
  | none, _ => []

/-- The distribution and its version. -/
def osVersion (scanner : SystemScanner) : Except ExecutionFailure (Str × Str) :=
  match scanner.snapshot.osRelease with
  | .unreadable => failed "the os-release file could not be read".toList
  | .readable id versionId _ =>
      if trim id = [] then
        failed "the os-release file carries no ID, so the OS distro could not be determined".toList
      else
        match versionId with
        | none => failed ("the os-release file carries no VERSION_ID, so the OS version ".toList ++
            "could not be determined".toList)
        | some version => .ok (id, version)

/-- A finding anchored on os-release. -/
def osFinding (detail : Str) : Evaluation :=
  ((Evaluation.finding.withEvidenceRefs [osReleaseEvidenceId]).withTargets
    [osReleaseLocator]).withDetail detail

/-- A satisfied rule anchored on os-release. -/
def osSatisfiedWithEvidence : Evaluation :=
  (Evaluation.satisfied.withEvidenceRefs [osReleaseEvidenceId]).withTargets [osReleaseLocator]

/-- A release out of support is a finding. -/
def evaluateOsEol (scanner : SystemScanner) : Answer :=
  match scanner.osVersion with
  | .error failure => .error failure
  | .ok (id, version) =>
      match scanner.policy.support.statusOf id version with
      | some .endOfSupport => .ok (osFinding
          ("the installed OS release is out of support and no longer receives ".toList ++
            "security patches".toList))
      | some .supported => .ok osSatisfiedWithEvidence
      | none => .ok (.notApplicable
          ("the OS version is absent from the support policy, so its end-of-support ".toList ++
            "status does not apply".toList))

/-- A version the policy does not list is a finding. -/
def evaluateOsUndetermined (scanner : SystemScanner) : Answer :=
  match scanner.osVersion with
  | .error failure => .error failure
  | .ok (id, version) =>
      if scanner.policy.support.statusOf id version = none then
        .ok (osFinding
          ("the OS support status could not be determined: the release is absent from ".toList ++
            "the support policy".toList))
      else .ok .satisfied

/-- A package manager is enough to pass. -/
def evaluatePackages (scanner : SystemScanner) : Answer :=
  if (selectManager scanner.snapshot).isSome then
    .ok (Evaluation.satisfied.withEvidenceRefs [packageInventoryEvidenceId])
  else failed
    "no supported package manager (dpkg or rpm) is available to inventory installed packages".toList

/-- An active interdicted service is a finding that names it. -/
def evaluateServices (scanner : SystemScanner) : Evaluation :=
  match scanner.snapshot.services with
  | .absent => .notApplicable
      "no service manager is present, so running services cannot be evaluated".toList
  | .present running =>
      let offending := (running.filter fun service =>
        service.active && scanner.policy.services.interdicts service.name).map fun service =>
          serviceBaseName service.name
      if offending = [] then .satisfied
      else Evaluation.finding.withDetail (joinNames offending ++
        " is an unnecessary active service that widens the host's attack surface".toList)

/-- Evaluates a rule by its id. -/
def evaluate (scanner : SystemScanner) (rule : Str) : Answer :=
  if rule = osEolRule then scanner.evaluateOsEol
  else if rule = osSupportUndeterminedRule then scanner.evaluateOsUndetermined
  else if rule = packageInventoryRule then scanner.evaluatePackages
  else if rule = servicesRule then .ok scanner.evaluateServices
  else .error ⟨"no system-scanner rule is registered for '".toList ++ rule ++ "'".toList⟩

end SystemScanner

/-! ### Acquisition -/

/-- What reading a file comes to. -/
inductive FileProbe where
  | missing
  | failed (message : Str)
  | content (text : Str)

/-- The text of a file that was read. -/
def FileProbe.text : FileProbe → Option Str
  | .missing => none
  | .failed _ => none
  | .content text => some text

/-- What running a command comes to: it cannot be started, it exits with a failure, or it
succeeds with some output. -/
inductive CommandProbe where
  | missing
  | failed
  | succeeded (stdout : Str)

/-- The output of a command that exited successfully (`run_command`). -/
def CommandProbe.output : CommandProbe → Option Str
  | .missing => none
  | .failed => none
  | .succeeded stdout => some stdout

/-- What the probes of a host come to. -/
structure HostProbes where
  hostname : FileProbe
  etcOsRelease : FileProbe
  usrLibOsRelease : FileProbe
  dpkgQueryOnPath : Bool
  rpmOnPath : Bool
  inventory : Manager → CommandProbe
  systemdDir : Bool
  listUnits : CommandProbe

/-- A value without the white space and the double quotes around it. -/
def unquote (value : Str) : Str :=
  let trimmed := trim value
  ((stripPrefix ['"'] trimmed).bind (stripSuffix ['"'])).getD trimmed

/-- One line of os-release. -/
def osReleaseLine (facts : Str × Option Str) (line : Str) : Str × Option Str :=
  match stripPrefix "ID=".toList line with
  | some value => (unquote value, facts.2)
  | none =>
      match stripPrefix "VERSION_ID=".toList line with
      | some value => (facts.1, some (unquote value))
      | none => facts

/-- The distribution and the version in the text of os-release. -/
def parseOsRelease (raw : Str) : Str × Option Str :=
  (lines raw).foldl osReleaseLine ([], none)

/-- The os-release of a text. -/
def osReleaseOf (raw : Str) : OsRelease :=
  .readable (parseOsRelease raw).1 (parseOsRelease raw).2 raw

/-- The host name; a missing file is a host without one. -/
def readHostname (probes : HostProbes) : Except Str (Option Str) :=
  match probes.hostname with
  | .content text => .ok (if trim text = [] then none else some (trim text))
  | .missing => .ok none
  | .failed message => .error ("cannot read the host name: ".toList ++ message)

/-- The os-release, from the first of its two files that can be read. -/
def readOsRelease (probes : HostProbes) : OsRelease :=
  match probes.etcOsRelease.text with
  | some raw => osReleaseOf raw
  | none =>
      match probes.usrLibOsRelease.text with
      | some raw => osReleaseOf raw
      | none => .unreadable

/-- The package managers on the path. -/
def packageManagers (probes : HostProbes) : List Manager :=
  (if probes.dpkgQueryOnPath then [.dpkg] else []) ++ if probes.rpmOnPath then [.rpm] else []

/-- The package managers and the inventory of the selected one. -/
def probePackages (probes : HostProbes) (osRelease : OsRelease) : List Manager × Option Str :=
  (packageManagers probes, (selectFrom (packageManagers probes) osRelease.id).bind fun manager =>
    (probes.inventory manager).output)

/-- The services `systemctl list-units` names. -/
def parseRunningServices (output : Str) : List Service :=
  ((lines output).filterMap firstWord).map fun name => ⟨name, true⟩

/-- The service manager and its running services. -/
def probeServices (probes : HostProbes) : ServiceState :=
  if probes.systemdDir then
    .present ((probes.listUnits.output.map parseRunningServices).getD [])
  else .absent

/-- Captures the state of a host. -/
def SystemSnapshot.acquire (probes : HostProbes) : Except Str SystemSnapshot :=
  match readHostname probes with
  | .error message => .error message
  | .ok hostname =>
      let osRelease := readOsRelease probes
      let packages := probePackages probes osRelease
      .ok
        { hostname := hostname
          fqdn := none
          osRelease := osRelease
          packageManagers := packages.1
          inventory := packages.2
          services := probeServices probes }

/-- The scanner of a host. -/
def SystemScanner.acquire (sdk : EvidenceSdk) (probes : HostProbes) (policy : SystemPolicy) :
    Except Str SystemScanner :=
  match SystemSnapshot.acquire probes with
  | .error message => .error message
  | .ok snapshot => .ok (.new sdk snapshot policy)

/-- The scanner of a host has its name, and no other one. -/
theorem SystemScanner.identityMetadata_acquire {sdk : EvidenceSdk} {probes : HostProbes}
    {policy : SystemPolicy} {scanner : SystemScanner}
    (h : SystemScanner.acquire sdk probes policy = .ok scanner) :
    readHostname probes = .ok scanner.snapshot.hostname ∧
      scanner.identityMetadata =
        (scanner.snapshot.hostname.map ("host=".toList ++ ·)).getD [] := by
  rw [SystemScanner.acquire, SystemSnapshot.acquire] at h
  cases hname : readHostname probes with
  | error message => simp [hname] at h
  | ok hostname =>
      simp only [hname, Except.ok.injEq] at h
      subst h
      refine ⟨rfl, ?_⟩
      rw [identityMetadata]
      cases hostname <;> rfl

/-- **The identity of a host** is the name read of it: two hosts are told apart by it exactly if
their names differ. -/
theorem SystemScanner.identityMetadata_eq_iff {sdk sdk' : EvidenceSdk}
    {probes probes' : HostProbes} {policy policy' : SystemPolicy} {scanner scanner' : SystemScanner}
    (h : SystemScanner.acquire sdk probes policy = .ok scanner)
    (h' : SystemScanner.acquire sdk' probes' policy' = .ok scanner') :
    scanner.identityMetadata = scanner'.identityMetadata ↔
      readHostname probes = readHostname probes' := by
  obtain ⟨hname, hidentity⟩ := SystemScanner.identityMetadata_acquire h
  obtain ⟨hname', hidentity'⟩ := SystemScanner.identityMetadata_acquire h'
  rw [hname, hname', hidentity, hidentity', Except.ok.injEq]
  cases scanner.snapshot.hostname <;> cases scanner'.snapshot.hostname <;> simp

end SovriAgent
