import SovriAgent.EvidenceSdk
import SovriAgent.OrderedMap
import SovriAgent.Strings
import SovriAgent.SystemScanner

/-!
# The SSH Scanner

The configuration of an SSH server: the effective dump of `sshd -T`, or else the text of
`sshd_config` with its drop-ins. A directive that is absent from the text may hide in an
`Include` that was not read, so the rules that need it fail then.
-/

namespace SovriAgent

/-! ### Rules, directives and evidence ids -/

/-- Root may not log in. -/
def permitRootLoginRule : Str :=
  "host.ssh.permit-root-login".toList

/-- Root may not log in without a password. -/
def rootLoginKeyOnlyRule : Str :=
  "host.ssh.root-login-key-only".toList

/-- Passwords are not accepted. -/
def passwordAuthRule : Str :=
  "host.ssh.password-auth".toList

/-- No weak algorithm is enabled. -/
def weakCryptoRule : Str :=
  "host.ssh.weak-crypto".toList

/-- The first version of the protocol is not enabled. -/
def protocolV1Rule : Str :=
  "host.ssh.protocol-v1".toList

/-- The command the evidence of the effective dump is anchored on. -/
def sshdEffectiveCommand : Str :=
  "sshd -T".toList

/-- The file every result is about. -/
def sshdConfigLocator : Str :=
  "/etc/ssh/sshd_config".toList

/-- The id of the evidence of the effective dump. -/
def effectiveConfigEvidenceId : Str :=
  "host.ssh.effective-config".toList

/-- The id of the evidence of the configuration file. -/
def configFileEvidenceId : Str :=
  "host.ssh.config-file".toList

/-- The directive `PermitRootLogin`. -/
def permitRootLoginKey : Str :=
  "permitrootlogin".toList

/-- The directive `PasswordAuthentication`. -/
def passwordAuthenticationKey : Str :=
  "passwordauthentication".toList

/-- The directive `Ciphers`. -/
def ciphersKey : Str :=
  "ciphers".toList

/-- The directive `MACs`. -/
def macsKey : Str :=
  "macs".toList

/-- The directive `KexAlgorithms`. -/
def kexAlgorithmsKey : Str :=
  "kexalgorithms".toList

/-- The directive `Protocol`. -/
def protocolKey : Str :=
  "protocol".toList

/-! ### Snapshots -/

/-- Where the configuration comes from. -/
inductive ConfigSource where
  | effectiveDump
  | parsedFallback
  | unassessable
  | absent
deriving DecidableEq, Repr

/-- How root may log in. -/
inductive RootLogin where
  | disabled
  | enabled
  | prohibitPassword
  | forcedCommandsOnly
  | other
deriving DecidableEq, Repr

/-- What a value of `PermitRootLogin` means. -/
def parseRootLogin (value : Str) : RootLogin :=
  let value := asciiLowercase (trim value)
  if value = "no".toList then .disabled
  else if value = "yes".toList then .enabled
  else if value = "prohibit-password".toList ∨ value = "without-password".toList then
    .prohibitPassword
  else if value = "forced-commands-only".toList then .forcedCommandsOnly
  else .other

/-- The weak algorithms. -/
structure SshPolicy where
  ciphers : List Str
  macs : List Str
  kex : List Str

/-- The weak algorithms of a directive, if it names algorithms. -/
def SshPolicy.weakList (policy : SshPolicy) (directive : Str) : Option (List Str) :=
  if directive = ciphersKey then some policy.ciphers
  else if directive = macsKey then some policy.macs
  else if directive = kexAlgorithmsKey then some policy.kex
  else none

/-- Whether an algorithm is a weak one of a directive. -/
def SshPolicy.isWeak (policy : SshPolicy) (directive algorithm : Str) : Bool :=
  (policy.weakList directive).any fun list =>
    list.any fun weak => eqIgnoreAsciiCase weak algorithm

/-- The captured configuration of a server. -/
structure SshSnapshot where
  source : ConfigSource
  directives : Ordered.Map Str Str
  raw : Str
  unresolvedInclude : Bool

/-- The value of a directive. -/
def SshSnapshot.directive (snapshot : SshSnapshot) (name : Str) : Option Str :=
  snapshot.directives.get name

/-- One line of a configuration. The name ends at the first white space; a later line replaces
an earlier one of its name. -/
def insertDirective (directives : Ordered.Map Str Str) (line : Str) : Ordered.Map Str Str :=
  let line := trim line
  if line = [] ∨ startsWith ['#'] line then directives
  else
    directives.insert (asciiLowercase (line.takeWhile fun c => !isWhitespace c))
      (trim (line.dropWhile fun c => !isWhitespace c))

/-- The directives of a configuration. -/
def parseDirectives (raw : Str) : Ordered.Map Str Str :=
  (lines raw).foldl insertDirective .empty

/-- What a snapshot is built from. -/
structure SshSnapshotBuilder where
  source : Option ConfigSource
  directives : Ordered.Map Str Str
  raw : Str
  unresolvedInclude : Bool

/-- The builder without facts. -/
def SshSnapshot.builder : SshSnapshotBuilder :=
  ⟨none, .empty, [], false⟩

namespace SshSnapshotBuilder

/-- A configuration of some source. -/
def configuration (builder : SshSnapshotBuilder) (source : ConfigSource) (raw : Str) :
    SshSnapshotBuilder :=
  { builder with
    source := some source
    directives := parseDirectives raw
    raw := raw }

/-- The dump of `sshd -T`. -/
def effectiveDump (builder : SshSnapshotBuilder) (raw : Str) : SshSnapshotBuilder :=
  builder.configuration .effectiveDump raw

/-- The text of `sshd_config`. -/
def parsedConfig (builder : SshSnapshotBuilder) (raw : Str) : SshSnapshotBuilder :=
  builder.configuration .parsedFallback raw

/-- An `Include` was not read. -/
def markUnresolvedInclude (builder : SshSnapshotBuilder) : SshSnapshotBuilder :=
  { builder with unresolvedInclude := true }

/-- There is no server. -/
def absent (builder : SshSnapshotBuilder) : SshSnapshotBuilder :=
  { builder with source := some .absent }

/-- There is a server whose configuration could not be read. -/
def unassessable (builder : SshSnapshotBuilder) : SshSnapshotBuilder :=
  { builder with source := some .unassessable }

/-- The snapshot of the collected facts. -/
def build (builder : SshSnapshotBuilder) : SshSnapshot where
  source := builder.source.getD .absent
  directives := builder.directives
  raw := builder.raw
  unresolvedInclude := builder.unresolvedInclude

end SshSnapshotBuilder

/-! ### The scanner -/

/-- The evidence of a configuration. -/
def configurationBuilder (snapshot : SshSnapshot) : Option EvidenceBuilder :=
  match snapshot.source with
  | .effectiveDump => some ⟨effectiveConfigEvidenceId, .command, sshdEffectiveCommand, none, none,
      snapshot.raw⟩
  | .parsedFallback => some ⟨configFileEvidenceId, .config, sshdConfigLocator, none, none,
      snapshot.raw⟩
  | .unassessable => none
  | .absent => none

/-- A snapshot with the policy it is evaluated against and the evidence captured of it. -/
structure SshScanner where
  snapshot : SshSnapshot
  policy : SshPolicy
  evidence : List StoredEvidence

/-- What is said of a value that lets root in without a password. -/
def nonPasswordReason (value : Str) : Str :=
  if eqIgnoreAsciiCase (trim value) "without-password".toList then
    "root login is permitted without a password: the effective configuration reports ".toList ++
      "'permitrootlogin ".toList ++ value ++ "', an alias for the 'prohibit-password' ".toList ++
      "posture (root by key only). Set 'permitrootlogin no' for review unless key-based ".toList ++
      "root access is required.".toList
  else
    "root login is permitted without a password: the effective configuration reports ".toList ++
      "'permitrootlogin ".toList ++ value ++ "' (root by key only). Set 'permitrootlogin ".toList ++
      "no' for review unless key-based root access is required.".toList

/-- The algorithms a value enables: a list may extend the defaults, and one that only removes
algorithms enables none. -/
def enabledAlgorithms (value : Str) : List Str :=
  let algorithms := fun list => ((splitChar ',' list).map trim).filter (· ≠ [])
  match trim value with
  | [] => []
  | c :: rest =>
      if c = '-' then []
      else if c = '+' ∨ c = '^' then algorithms rest
      else algorithms (c :: rest)

namespace SshScanner

/-- The scanner of a snapshot. -/
def new (sdk : EvidenceSdk) (snapshot : SshSnapshot) (policy : SshPolicy) : SshScanner where
  snapshot := snapshot
  policy := policy
  evidence := sdk.collect (configurationBuilder snapshot).toList

/-- The captured evidence. -/
def evidenceLog (scanner : SshScanner) : List StoredEvidence :=
  scanner.evidence

/-- That the effective dump was not available. -/
def acquisitionNote (scanner : SshScanner) : Option Str :=
  if scanner.snapshot.source = .parsedFallback then
    some ("the effective '".toList ++ sshdEffectiveCommand ++
      "' dump was unavailable; parsed ".toList ++ sshdConfigLocator ++
      " and its sshd_config.d drop-ins instead".toList)
  else none

/-- That an `Include` was not read. -/
def acquisitionCaveat (scanner : SshScanner) : Option Str :=
  if scanner.snapshot.unresolvedInclude then
    some ("an Include directive could not be resolved, so a directive absent from the ".toList ++
      "readable configuration cannot be confirmed".toList)
  else none

/-- The id of the evidence of the configuration, if there is one. -/
def evidenceId (scanner : SshScanner) : Option Str :=
  match scanner.snapshot.source with
  | .effectiveDump => some effectiveConfigEvidenceId
  | .parsedFallback => some configFileEvidenceId
  | .unassessable => none
  | .absent => none

/-- Cites the evidence of the configuration. -/
def anchored (scanner : SshScanner) (evaluation : Evaluation) : Evaluation :=
  match scanner.evidenceId with
  | some id => (evaluation.withEvidenceRefs [id]).withTargets [sshdConfigLocator]
  | none => evaluation

/-- The value of a directive, if it could be confirmed. -/
def requireDirective (scanner : SshScanner) (name : Str) : Except ExecutionFailure Str :=
  match scanner.snapshot.directive name with
  | some value => .ok value
  | none =>
      if scanner.snapshot.unresolvedInclude then
        failed ("the effective '".toList ++ name ++ "' could not be confirmed because an ".toList ++
          "Include was unresolved, so it may be set inside the unreadable include".toList)
      else
        failed ("the effective '".toList ++ name ++ "' could not be confirmed: it is ".toList ++
          "absent from the readable configuration".toList)

/-- Root being allowed to log in is a finding. -/
def evaluatePermitRootLogin (scanner : SshScanner) : Answer := do
  let value ← scanner.requireDirective permitRootLoginKey
  if parseRootLogin value = .enabled then
    return scanner.anchored (Evaluation.finding.withDetail
      ("root login over SSH is enabled: the effective configuration reports ".toList ++
        "'permitrootlogin ".toList ++ value ++ "'. Set 'permitrootlogin no' to disable ".toList ++
        "direct root login.".toList))
  else return scanner.anchored .satisfied

/-- Root being allowed to log in without a password is a finding. -/
def evaluateRootLoginKeyOnly (scanner : SshScanner) : Answer := do
  let value ← scanner.requireDirective permitRootLoginKey
  if parseRootLogin value = .prohibitPassword ∨ parseRootLogin value = .forcedCommandsOnly then
    return scanner.anchored (Evaluation.finding.withDetail (nonPasswordReason value))
  else return scanner.anchored .satisfied

/-- Passwords being accepted is a finding. -/
def evaluatePasswordAuth (scanner : SshScanner) : Answer := do
  let value ← scanner.requireDirective passwordAuthenticationKey
  if eqIgnoreAsciiCase (trim value) "yes".toList then
    return scanner.anchored (Evaluation.finding.withDetail
      ("password authentication is enabled: the effective configuration reports ".toList ++
        "'passwordauthentication ".toList ++ value ++ "'. Set 'passwordauthentication ".toList ++
        "no' to require key-based authentication.".toList))
  else return scanner.anchored .satisfied

/-- The weak algorithms a directive enables, with their kind. -/
def weakAlgorithms (scanner : SshScanner) (directive kind : Str) : List Str :=
  match scanner.snapshot.directive directive with
  | none => []
  | some value =>
      ((enabledAlgorithms value).filter (scanner.policy.isWeak directive)).map fun algorithm =>
        algorithm ++ " (".toList ++ kind ++ ")".toList

/-- A weak algorithm is a finding. -/
def evaluateWeakCrypto (scanner : SshScanner) : Answer :=
  let weak := scanner.weakAlgorithms ciphersKey "cipher".toList ++
    scanner.weakAlgorithms macsKey "MAC".toList ++
    scanner.weakAlgorithms kexAlgorithmsKey "key exchange".toList
  if weak ≠ [] then
    .ok (scanner.anchored (Evaluation.finding.withDetail
      ("weak SSH cryptography is enabled: ".toList ++ joinNames weak ++ ". Remove these ".toList ++
        "legacy algorithms in favour of modern ciphers, MACs, and key-exchange methods.".toList)))
  else if scanner.snapshot.unresolvedInclude then
    failed ("the SSH cryptography configuration could not be confirmed: an Include was ".toList ++
      "unresolved, so a weak cipher, MAC, or key-exchange algorithm may be set inside ".toList ++
      "the unreadable include".toList)
  else .ok (scanner.anchored .satisfied)

/-- Whether the first version of the protocol is enabled. -/
def enablesProtocolV1 (scanner : SshScanner) : Bool :=
  match scanner.snapshot.directive protocolKey with
  | none => false
  | some value => ((splitChar ',' value).map trim).any fun token => token = ['1']

/-- The first version of the protocol is a finding. -/
def evaluateProtocolV1 (scanner : SshScanner) : Answer :=
  if scanner.enablesProtocolV1 then
    .ok (scanner.anchored (Evaluation.finding.withDetail
      ("SSH protocol 1 (SSHv1) is explicitly enabled via 'Protocol 1'; it is obsolete ".toList ++
        "and disallowed. Remove the 'Protocol 1' directive so only SSHv2 is used.".toList)))
  else if scanner.snapshot.unresolvedInclude then
    failed ("SSH protocol 1 (SSHv1) could not be ruled out: an Include was unresolved, ".toList ++
      "so a 'Protocol 1' directive may be set inside the unreadable include".toList)
  else .ok (scanner.anchored .satisfied)

/-- Evaluates a rule by its id. No rule applies without a server, and none can be evaluated
without its configuration. -/
def evaluate (scanner : SshScanner) (rule : Str) : Answer :=
  match scanner.snapshot.source with
  | .absent => .ok (.notApplicable
      ("no SSH server is present on the host (no sshd binary and no sshd_config), so SSH ".toList ++
        "hardening does not apply".toList))
  | .unassessable =>
      failed ("an SSH server is present but could not be assessed: 'sshd -T' failed and ".toList ++
        "the configuration file was unreadable".toList)
  | _ =>
      if rule = permitRootLoginRule then scanner.evaluatePermitRootLogin
      else if rule = rootLoginKeyOnlyRule then scanner.evaluateRootLoginKeyOnly
      else if rule = passwordAuthRule then scanner.evaluatePasswordAuth
      else if rule = weakCryptoRule then scanner.evaluateWeakCrypto
      else if rule = protocolV1Rule then scanner.evaluateProtocolV1
      else .error ⟨"no ssh-scanner rule is registered for '".toList ++ rule ++ "'".toList⟩

end SshScanner

/-! ### Acquisition -/

/-- A file of the drop-in directory: its name, and its text if it can be read. -/
structure DropIn where
  name : Str
  text : Option Str

/-- What is found of an SSH server on a host. An entry of the drop-in directory may itself be
unreadable. -/
structure SshProbes where
  effective : CommandProbe
  config : Option Str
  dropInDir : Option (List (Option DropIn))
  configExists : Bool
  sshdOnPath : Bool

/-- The lines of a configuration that are no comments, in lower case. -/
def directiveLines (base : Str) : List Str :=
  (((lines base).map trim).filter fun line => !startsWith ['#'] line).map asciiLowercase

/-- Whether a configuration includes the drop-in directory. -/
def referencesDropInDir (base : Str) : Bool :=
  (directiveLines base).any fun line =>
    startsWith "include".toList line && containsText "sshd_config.d".toList line

/-- Whether a configuration includes anything else. -/
def hasUnmergedInclude (base : Str) : Bool :=
  ((directiveLines base).filter (startsWith "include".toList)).any fun line =>
    !containsText "sshd_config.d".toList line

/-- Whether the extension of a file name is `conf`: what follows its last dot, unless that is
its first character. -/
def hasConfExtension (name : Str) : Bool :=
  match stripSuffix ".conf".toList name with
  | some stem => stem ≠ []
  | none => false

/-- The files of the drop-in directory that are merged, in order. -/
def confDropIns (entries : List (Option DropIn)) : List DropIn :=
  sortBy (fun a b => strLe a.name b.name)
    ((entries.filterMap id).filter fun dropIn => hasConfExtension dropIn.name)

/-- One drop-in, merged into the text. -/
def mergeDropIn (config : Str × Bool) (dropIn : DropIn) : Str × Bool :=
  match dropIn.text with
  | some text => (config.1 ++ '\n' :: text, config.2)
  | none => (config.1, true)

/-- The text of the configuration with its drop-ins, and whether an `Include` was not read. -/
def readConfigWithDropIns (probes : SshProbes) : Option (Str × Bool) :=
  probes.config.map fun base =>
    let unresolved := hasUnmergedInclude base
    if referencesDropInDir base then
      match probes.dropInDir with
      | some entries => (confDropIns entries).foldl mergeDropIn (base, unresolved)
      | none => (base, true)
    else (base, unresolved)

/-- Captures the configuration of a server. -/
def SshSnapshot.acquire (probes : SshProbes) : SshSnapshot :=
  match probes.effective.output with
  | some dump => (SshSnapshot.builder.effectiveDump dump).build
  | none =>
      match readConfigWithDropIns probes with
      | some (text, true) => (SshSnapshot.builder.parsedConfig text).markUnresolvedInclude.build
      | some (text, false) => (SshSnapshot.builder.parsedConfig text).build
      | none =>
          if probes.configExists || probes.sshdOnPath then
            SshSnapshot.builder.unassessable.build
          else SshSnapshot.builder.absent.build

/-- The scanner of a host. -/
def SshScanner.acquire (sdk : EvidenceSdk) (probes : SshProbes) (policy : SshPolicy) :
    SshScanner :=
  .new sdk (.acquire probes) policy

end SovriAgent
