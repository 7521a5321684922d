import SovriAgent.DaemonJson
import SovriAgent.EvidenceSdk
import SovriAgent.OrderedMap

/-!
# The Docker Scanner

The posture of a Docker daemon: its version and its effective configuration, which is that of
`daemon.json` when the file is there and can be read, and the effective flags otherwise. The
values of log options may be credentials: they go into no text, and only into the contents of
secret evidence.

The maps of the configuration are in the order of their keys; texts are compared by their code
points, which is the order of their bytes.
-/

namespace SovriAgent

/-! ### Rules and evidence ids -/

/-- The version of the daemon is supported. -/
def daemonVersionEolRule : Str :=
  "container.docker.daemon-version-eol".toList

/-- The version of the daemon is a recommended one. -/
def daemonVersionObsoleteRule : Str :=
  "container.docker.daemon-version-obsolete".toList

/-- The daemon trusts no insecure registry. -/
def insecureRegistriesRule : Str :=
  "container.docker.insecure-registries".toList

/-- The daemon listens on no TCP socket without mutual TLS. -/
def tcpSocketTlsRule : Str :=
  "container.docker.tcp-socket-tls".toList

/-- The hardening options of the daemon are set. -/
def daemonHardeningRule : Str :=
  "container.docker.daemon-hardening".toList

/-- The file the configuration evidence is anchored on. -/
def daemonJsonLocator : Str :=
  "/etc/docker/daemon.json".toList

/-- The command the evidence of the effective flags is anchored on. -/
def dockerInfoCommand : Str :=
  "docker info".toList

/-- The id of the evidence of the effective flags. -/
def effectiveInfoEvidenceId : Str :=
  "container.docker.effective-info".toList

/-- The id of the evidence of `daemon.json`. -/
def daemonJsonEvidenceId : Str :=
  "container.docker.daemon-json".toList

/-- Why the rules do not apply to a host without a daemon. -/
def dockerAbsentReason : Str :=
  "Docker is not present on the host (no docker binary and no ".toList ++
    "/etc/docker/daemon.json), so Docker hardening does not apply".toList

/-! ### Configurations -/

/-- A value of the configuration. -/
inductive ConfigValue where
  | str (text : Str)
  | bool (flag : Bool)
  | list (items : List Str)
  | map (entries : Ordered.Map Str Str)

/-- The name of the setting that holds the options of the log driver. -/
def logOptsKey : Str :=
  "log-opts".toList

/-- A configuration of the daemon, by the names of its settings. -/
structure DaemonConfig where
  values : Ordered.Map Str ConfigValue

/-- The texts of a list setting, which is empty when it is absent. -/
def DaemonConfig.listOf (config : DaemonConfig) (key : String) : List Str :=
  match config.values.get key.toList with
  | some (.list items) => items
  | _ => []

/-- Whether the key of a log option names a credential. -/
def isSecretKey (key : Str) : Bool :=
  ["token", "password", "passwd", "secret", "apikey", "credential"].any fun needle =>
    containsText needle.toList (asciiLowercase key)

/-- The value a hardening option is expected to have. -/
inductive HardenedValue where
  | set
  | enabled
  | disabled
deriving DecidableEq, Repr

/-- A hardening option and the value it is expected to have. -/
structure HardeningOption where
  name : Str
  expected : HardenedValue

namespace DaemonConfig

/-- The registries that are trusted without TLS. -/
def insecureRegistries (config : DaemonConfig) : List Str :=
  config.listOf "insecure-registries"

/-- The sockets the daemon listens on. -/
def hosts (config : DaemonConfig) : List Str :=
  config.listOf "hosts"

/-- Whether mutual TLS is required. -/
def tlsVerify (config : DaemonConfig) : Bool :=
  match config.values.get "tlsverify".toList with
  | some (.bool flag) => flag
  | _ => false

/-- The path of the TLS key. -/
def tlsKeyPath (config : DaemonConfig) : Option Str :=
  match config.values.get "tlskey".toList with
  | some (.str path) => some path
  | _ => none

/-- The options of the log driver. -/
def logOpts (config : DaemonConfig) : Option (Ordered.Map Str Str) :=
  match config.values.get logOptsKey with
  | some (.map entries) => some entries
  | _ => none

/-- The names of the log options. -/
def logOptKeys (config : DaemonConfig) : List Str :=
  (config.logOpts.map Ordered.Map.keys).getD []

/-- The log options that are credentials. -/
def secretLogOpts (config : DaemonConfig) : List (Str × Str) :=
  ((config.logOpts.map Ordered.Map.entries).getD []).filter fun entry => isSecretKey entry.1

/-- Whether an option has its hardened value. -/
def isHardened (config : DaemonConfig) (option : HardeningOption) : Bool :=
  match option.expected, config.values.get option.name with
  | .set, some (.str value) => value ≠ []
  | .enabled, some (.bool flag) => flag
  | .disabled, some (.bool flag) => !flag
  | _, _ => false

end DaemonConfig

/-- The texts among the items of an array. -/
def jsonTexts (items : List JsonValue) : List Str :=
  items.filterMap fun
    | .str text => some text
    | _ => none

/-- One member of an object whose values are texts; other members are dropped. -/
def insertText (map : Ordered.Map Str Str) (entry : Str × JsonValue) : Ordered.Map Str Str :=
  match entry.2 with
  | .str text => map.insert entry.1 text
  | _ => map

/-- The setting a value is, if the configuration has its shape. -/
def configValueOf : JsonValue → Option ConfigValue
  | .str text => some (.str text)
  | .bool flag => some (.bool flag)
  | .array items => some (.list (jsonTexts items))
  | .object entries => some (.map (entries.foldl insertText .empty))
  | .num => none
  | .null => none

/-- One member of `daemon.json`. -/
def insertSetting (values : Ordered.Map Str ConfigValue) (entry : Str × JsonValue) :
    Ordered.Map Str ConfigValue :=
  match configValueOf entry.2 with
  | some value => values.insert entry.1 value
  | none => values

/-- The configuration in a parsed `daemon.json`, if it is an object. -/
def configFromJson : JsonValue → Option DaemonConfig
  | .object entries => some ⟨entries.foldl insertSetting .empty⟩
  | _ => none

/-! ### Policies -/

/-- A version of Docker. -/
structure Version where
  major : ℕ
  minor : ℕ
  patch : ℕ
deriving DecidableEq, Repr

/-- Versions are compared part by part. -/
def Version.isBelow (version other : Version) : Bool :=
  version.major < other.major ||
    (version.major = other.major && (version.minor < other.minor ||
      (version.minor = other.minor && version.patch < other.patch)))

/-- The number a part of a version starts with; zero when it starts with none, or with one that
is too large. -/
def parseLeadingNumber (part : Str) : ℕ :=
  (parseUnsigned 10 4294967295 (part.takeWhile Char.isDigit)).getD 0

/-- The version in a text; the parts it lacks are zero. -/
def Version.parse (text : Str) : Version :=
  let parts := (splitChar '.' text).map parseLeadingNumber
  ⟨parts.getD 0 0, parts.getD 1 0, parts.getD 2 0⟩

/-- What the scanner evaluates against. -/
structure DockerPolicy where
  minSupported : Version
  minRecommended : Version
  hardening : List HardeningOption

/-- The options that do not have their hardened value. -/
def DockerPolicy.notHardened (policy : DockerPolicy) (config : DaemonConfig) : List Str :=
  (policy.hardening.filter fun option => !config.isHardened option).map (·.name)

/-! ### Snapshots -/

/-- Whether the daemon could be reached. -/
inductive Daemon where
  | reachable
  | absent
  | unreachable (reason : Str)
deriving DecidableEq

/-- Where the effective configuration comes from. -/
inductive ConfigOrigin where
  | daemonJson
  | dockerInfo
deriving DecidableEq, Repr

/-- What was found of `daemon.json`. -/
inductive DaemonJsonState where
  | present
  | malformed
  | absent
deriving DecidableEq, Repr

/-- The captured posture of a daemon. A configuration of `daemon.json` comes with the file. -/
structure DockerSnapshot where
  daemon : Daemon
  version : Option Str
  config : Option DaemonConfig
  origin : ConfigOrigin
  daemonJson : DaemonJsonState
  present_of_origin : origin = .daemonJson → daemonJson = .present

/-- What a snapshot is built from. -/
structure DockerSnapshotBuilder where
  daemon : Option Daemon
  version : Option Str
  daemonJsonState : DaemonJsonState
  daemonJsonConfig : Option DaemonConfig
  infoConfig : DaemonConfig
  configUnconfirmable : Bool

/-- The builder without facts. -/
def DockerSnapshot.builder : DockerSnapshotBuilder :=
  ⟨none, none, .absent, none, ⟨.empty⟩, false⟩

namespace DockerSnapshotBuilder

/-- The daemon responded. -/
def reachable (builder : DockerSnapshotBuilder) : DockerSnapshotBuilder :=
  { builder with daemon := some .reachable }

/-- The daemon did not respond. -/
def unreachable (builder : DockerSnapshotBuilder) (reason : Str) : DockerSnapshotBuilder :=
  { builder with daemon := some (.unreachable reason) }

/-- The probe of the daemon was denied. -/
def permissionDenied (builder : DockerSnapshotBuilder) : DockerSnapshotBuilder :=
  builder.unreachable "the 'docker info' probe was denied with a permission error".toList

/-- There is no daemon. -/
def absent (builder : DockerSnapshotBuilder) : DockerSnapshotBuilder :=
  { builder with daemon := some .absent }

/-- The version the daemon reports. -/
def serverVersion (builder : DockerSnapshotBuilder) (version : Str) : DockerSnapshotBuilder :=
  { builder with version := some version }

/-- The text of `daemon.json`. -/
def daemonJson (builder : DockerSnapshotBuilder) (raw : Str) : DockerSnapshotBuilder :=
  match (JsonParser.parse raw).bind configFromJson with
  | some config =>
      { builder with
        daemonJsonConfig := some config
        daemonJsonState := .present }
  | none => { builder with daemonJsonState := .malformed }

/-- The effective flags do not report the configuration. -/
def unconfirmable (builder : DockerSnapshotBuilder) : DockerSnapshotBuilder :=
  { builder with configUnconfirmable := true }

/-- The snapshot of the collected facts. -/
def build (builder : DockerSnapshotBuilder) : DockerSnapshot :=
  match builder.daemonJsonState with
  | .present =>
      { daemon := builder.daemon.getD .absent
        version := builder.version
        config := builder.daemonJsonConfig
        origin := .daemonJson
        daemonJson := .present
        present_of_origin := fun _ => rfl }
  | state =>
      { daemon := builder.daemon.getD .absent
        version := builder.version
        config := if builder.configUnconfirmable then none else some builder.infoConfig
        origin := .dockerInfo
        daemonJson := state
        present_of_origin := nofun }

end DockerSnapshotBuilder

/-! ### The scanner -/

/-- A list of texts, or that there is none. -/
def joinOrNone (items : List Str) : Str :=
  if items = [] then "(none)".toList else joinNames items

/-- A rendering of a configuration without the values of its log options. -/
def configSummary (config : DaemonConfig) (policy : DockerPolicy) : Str :=
  joinLines
    (["insecure-registries: ".toList ++ joinOrNone config.insecureRegistries,
      "hosts: ".toList ++ joinOrNone config.hosts,
      "tlsverify: ".toList ++ (if config.tlsVerify then "true".toList else "false".toList)] ++
    (config.tlsKeyPath.map fun path => "tlskey: ".toList ++ path).toList ++
    (if config.logOptKeys = [] then []
      else ["log-opts keys: ".toList ++ joinNames config.logOptKeys]) ++
    ["not hardened: ".toList ++ joinOrNone (policy.notHardened config)])

/-- The excerpt of the effective flags. -/
def commandExcerpt (snapshot : DockerSnapshot) (policy : DockerPolicy) : Str :=
  joinLines
    (["Server Version: ".toList ++ snapshot.version.getD "unknown".toList] ++
      if snapshot.origin = .dockerInfo then
        (snapshot.config.map fun config => configSummary config policy).toList
      else [])

/-- The evidence of the effective flags. -/
def effectiveInfoBuilder (snapshot : DockerSnapshot) (policy : DockerPolicy) : EvidenceBuilder :=
  ⟨effectiveInfoEvidenceId, .command, dockerInfoCommand, none, none,
    commandExcerpt snapshot policy⟩

/-- The evidence of `daemon.json`. -/
def daemonJsonBuilder (config : DaemonConfig) (policy : DockerPolicy) : EvidenceBuilder :=
  ⟨daemonJsonEvidenceId, .config, daemonJsonLocator, none, none, configSummary config policy⟩

/-- The evidence of a log option that is a credential. -/
def logOptBuilder (entry : Str × Str) : EvidenceBuilder :=
  ⟨"container.docker.log-opt.".toList ++ entry.1, .config, daemonJsonLocator, some entry.1,
    some .secret, entry.2⟩

/-- The evidence of a `daemon.json` that is there and could be read. -/
def configEvidence (snapshot : DockerSnapshot) (policy : DockerPolicy) : List EvidenceBuilder :=
  if snapshot.daemonJson = .present then
    match snapshot.config with
    | some config => daemonJsonBuilder config policy :: config.secretLogOpts.map logOptBuilder
    | none => []
  else []

/-- The evidence of a daemon that could be reached. -/
def dockerEvidence (snapshot : DockerSnapshot) (policy : DockerPolicy) : List EvidenceBuilder :=
  if snapshot.daemon = .reachable then
    effectiveInfoBuilder snapshot policy :: configEvidence snapshot policy
  else []

/-- A snapshot with the policy it is evaluated against and the evidence captured of it. -/
structure DockerScanner where
  snapshot : DockerSnapshot
  policy : DockerPolicy
  evidence : List StoredEvidence

/-- Cites the evidence of the effective flags. -/
def commandAnchored (evaluation : Evaluation) : Evaluation :=
  evaluation.withEvidenceRefs [effectiveInfoEvidenceId]

namespace DockerScanner

/-- The scanner of a snapshot. -/
def new (sdk : EvidenceSdk) (snapshot : DockerSnapshot) (policy : DockerPolicy) :
    DockerScanner where
  snapshot := snapshot
  policy := policy
  evidence := sdk.collect (dockerEvidence snapshot policy)

/-- The captured evidence. -/
def evidenceLog (scanner : DockerScanner) : List StoredEvidence :=
  scanner.evidence

/-- That `daemon.json` is there but could not be read. -/
def acquisitionCaveat (scanner : DockerScanner) : Option Str :=
  if scanner.snapshot.daemonJson = .malformed then
    some (daemonJsonLocator ++ " is present but is not valid JSON; the 'docker info' ".toList ++
      "effective flags were used instead".toList)
  else none

/-- The effective configuration, if it could be confirmed. -/
def requireConfig (scanner : DockerScanner) : Except ExecutionFailure DaemonConfig :=
  match scanner.snapshot.config with
  | some config => .ok config
  | none => failed ("the effective Docker configuration could not be confirmed: ".toList ++
      "/etc/docker/daemon.json is not valid JSON and the 'docker info' effective flags ".toList ++
      "do not report the signal".toList)

/-- The version of the daemon, if it is known. -/
def requireVersion (scanner : DockerScanner) : Except ExecutionFailure Str :=
  match scanner.snapshot.version with
  | some version => .ok version
  | none => failed
      "the effective Docker daemon version could not be determined from 'docker version'".toList

/-- Cites the evidence of where the configuration comes from. -/
def configAnchored (scanner : DockerScanner) (evaluation : Evaluation) : Evaluation :=
  match scanner.snapshot.origin with
  | .daemonJson =>
      (evaluation.withEvidenceRefs [daemonJsonEvidenceId]).withTargets [daemonJsonLocator]
  | .dockerInfo => evaluation.withEvidenceRefs [effectiveInfoEvidenceId]

/-- A version below the supported ones is a finding. -/
def evaluateVersionEol (scanner : DockerScanner) : Answer := do
  let version ← scanner.requireVersion
  if (Version.parse version).isBelow scanner.policy.minSupported then
    return commandAnchored (Evaluation.finding.withDetail ("the Docker daemon version '".toList ++
      version ++ "' is end-of-life: it is below the catalogue's minimum-supported ".toList ++
      "baseline. Upgrade to a supported release.".toList))
  else return commandAnchored .satisfied

/-- A supported version below the recommended ones is a finding. -/
def evaluateVersionObsolete (scanner : DockerScanner) : Answer := do
  let version ← scanner.requireVersion
  if ¬(Version.parse version).isBelow scanner.policy.minSupported ∧
      (Version.parse version).isBelow scanner.policy.minRecommended then
    return commandAnchored (Evaluation.finding.withDetail ("the Docker daemon version '".toList ++
      version ++ "' is supported but obsolete: it is below the catalogue's ".toList ++
      "minimum-recommended baseline. Plan an upgrade to a current release.".toList))
  else return commandAnchored .satisfied

/-- An insecure registry is a finding. -/
def evaluateInsecureRegistries (scanner : DockerScanner) : Answer := do
  let config ← scanner.requireConfig
  if config.insecureRegistries = [] then return scanner.configAnchored .satisfied
  else
    return scanner.configAnchored (Evaluation.finding.withDetail
      ("the Docker daemon trusts insecure registries (".toList ++
        joinNames config.insecureRegistries ++ "): images are pulled without verified ".toList ++
        "TLS. Remove the insecure-registries entries.".toList))

/-- A TCP socket without mutual TLS is a finding. -/
def evaluateSocket (scanner : DockerScanner) : Answer := do
  let config ← scanner.requireConfig
  let tcpBindings := config.hosts.filter (startsWith "tcp://".toList)
  if tcpBindings = [] ∨ config.tlsVerify then return scanner.configAnchored .satisfied
  else
    return scanner.configAnchored (Evaluation.finding.withDetail
      ("the Docker daemon API is bound to a TCP socket without ".toList ++
        "mutually-authenticated TLS (".toList ++ joinNames tcpBindings ++
        "): this exposes a root-equivalent remote API. ".toList ++
        "Require 'tlsverify' or bind only to a local socket.".toList))

/-- A hardening option without its hardened value is a finding. -/
def evaluateHardening (scanner : DockerScanner) : Answer := do
  let config ← scanner.requireConfig
  if scanner.policy.notHardened config = [] then return scanner.configAnchored .satisfied
  else
    return scanner.configAnchored (Evaluation.finding.withDetail
      ("Docker daemon hardening options are not at their hardened value (".toList ++
        joinNames (scanner.policy.notHardened config) ++ "): review and set them.".toList))

/-- Evaluates a rule by its id; no rule applies to a daemon that could not be reached. -/
def evaluate (scanner : DockerScanner) (rule : Str) : Answer :=
  match scanner.snapshot.daemon with
  | .absent => .ok (.notApplicable dockerAbsentReason)
  | .unreachable reason => .ok (.notApplicable ("the Docker daemon could not be assessed (".toList
      ++ reason ++ "), so Docker hardening does not apply".toList))
  | .reachable =>
      if rule = daemonVersionEolRule then scanner.evaluateVersionEol
      else if rule = daemonVersionObsoleteRule then scanner.evaluateVersionObsolete
      else if rule = insecureRegistriesRule then scanner.evaluateInsecureRegistries
      else if rule = tcpSocketTlsRule then scanner.evaluateSocket
      else if rule = daemonHardeningRule then scanner.evaluateHardening
      else .error ⟨"no docker-scanner rule is registered for '".toList ++ rule ++ "'".toList⟩

end DockerScanner

/-! ### Acquisition -/

/-- What running `docker info` comes to. -/
inductive DockerInfoProbe where
  | missing
  | failed (stderr : Str)
  | succeeded (stdout : Str)

/-- What is found of Docker on a host. -/
structure DockerProbes where
  info : DockerInfoProbe
  daemonJson : Option Str
  daemonJsonExists : Bool
  dockerOnPath : Bool

/-- Captures the posture of a daemon. -/
def DockerSnapshot.acquire (probes : DockerProbes) : DockerSnapshot :=
  let builder := DockerSnapshot.builder
  let unanswered :=
    if probes.daemonJsonExists || probes.dockerOnPath then
      (builder.unreachable "the Docker daemon did not respond to 'docker info'".toList).build
    else builder.absent.build
  match probes.info with
  | .succeeded stdout =>
      let builder := builder.reachable.unconfirmable
      let builder := if trim stdout = [] then builder else builder.serverVersion (trim stdout)
      match probes.daemonJson with
      | some raw => (builder.daemonJson raw).build
      | none => builder.build
  | .failed stderr =>
      if containsText "permission denied".toList (asciiLowercase stderr) then
        builder.permissionDenied.build
      else unanswered
  | .missing => unanswered

/-- The scanner of a host. -/
def DockerScanner.acquire (sdk : EvidenceSdk) (probes : DockerProbes) (policy : DockerPolicy) :
    DockerScanner :=
  .new sdk (.acquire probes) policy

/-- What says that a file is malformed. -/
theorem DockerScanner.acquisitionCaveat_isSome {scanner : DockerScanner} :
    scanner.acquisitionCaveat.isSome = true ↔ scanner.snapshot.daemonJson = .malformed := by
  rw [acquisitionCaveat]
  split <;> simp [*]

/-- A `daemon.json` is malformed unless it is an object. -/
theorem malformed_daemonJson {builder : DockerSnapshotBuilder} {raw : Str} :
    (builder.daemonJson raw).build.daemonJson = .malformed ↔
      ∀ entries, JsonParser.parse raw ≠ some (.object entries) := by
  rw [DockerSnapshotBuilder.daemonJson]
  rcases JsonParser.parse raw with _ | value
  · simp [DockerSnapshotBuilder.build]
  · cases value <;> simp [configFromJson, DockerSnapshotBuilder.build]

/-- A `daemon.json` that was not read is not malformed. -/
theorem not_malformed_of_unread {builder : DockerSnapshotBuilder}
    (h : builder.daemonJsonState = .absent) : builder.build.daemonJson ≠ .malformed := by
  rw [DockerSnapshotBuilder.build, h]
  nofun

/-- **The caveat of a scan**: there is one exactly if the daemon answered, and its `daemon.json`
was read but is no object. -/
theorem DockerScanner.acquisitionCaveat_acquire {sdk : EvidenceSdk} {probes : DockerProbes}
    {policy : DockerPolicy} :
    (DockerScanner.acquire sdk probes policy).acquisitionCaveat.isSome = true ↔
      (∃ stdout, probes.info = .succeeded stdout) ∧ ∃ raw, probes.daemonJson = some raw ∧
        ∀ entries, JsonParser.parse raw ≠ some (.object entries) := by
  rw [acquisitionCaveat_isSome]
  change (DockerSnapshot.acquire probes).daemonJson = .malformed ↔ _
  rw [DockerSnapshot.acquire]
  cases hinfo : probes.info with
  | succeeded stdout =>
      cases hjson : probes.daemonJson with
      | none =>
          refine iff_of_false (not_malformed_of_unread ?_) (by simp)
          split <;> rfl
      | some raw => simp [malformed_daemonJson]
  | failed stderr =>
      refine iff_of_false ?_ (by simp)
      dsimp only
      split_ifs <;> exact not_malformed_of_unread rfl
  | missing =>
      refine iff_of_false ?_ (by simp)
      dsimp only
      split_ifs <;> exact not_malformed_of_unread rfl

end SovriAgent
