import SovriAgent.EvidenceSdk
import SovriAgent.Strings

/-!
# The User Scanner

The accounts of a host: the `passwd` base, the password state of `shadow`, and the grants of
privilege. Account evidence is sensitive and `shadow` evidence is secret, so that both are kept
without their contents; the names travel in the keys and in the texts of the evaluations.
-/

namespace SovriAgent

/-! ### Rules and evidence ids -/

/-- The accounts are inventoried. -/
def inventoryRule : Str :=
  "host.account.inventory".toList

/-- Root is the only account of uid 0. -/
def singleRootRule : Str :=
  "host.account.single-root".toList

/-- No account may log in without a password. -/
def noEmptyPasswordRule : Str :=
  "host.account.no-empty-password".toList

/-- No account is dormant beyond the threshold. -/
def dormantAccountRule : Str :=
  "host.account.dormant".toList

/-- Every privileged account is an expected one. -/
def privilegedExpectedRule : Str :=
  "host.account.privileged-expected".toList

/-- The file the account evidence is anchored on. -/
def passwdLocator : Str :=
  "/etc/passwd".toList

/-- The file the `shadow` evidence is anchored on. -/
def shadowLocator : Str :=
  "/etc/shadow".toList

/-- The file the evidence of a group membership is anchored on. -/
def groupLocator : Str :=
  "/etc/group".toList

/-- The file the evidence of a `sudoers` grant is anchored on. -/
def sudoersLocator : Str :=
  "/etc/sudoers".toList

/-- The shells without an interactive session (`NON_LOGIN_SHELLS`). -/
def nonLoginShells : List Str :=
  ["/usr/sbin/nologin".toList, "/sbin/nologin".toList, "/bin/false".toList,
    "/usr/bin/false".toList, []]

/-- The id of the `passwd` record of an account. -/
def accountEvidenceId (name : Str) : Str :=
  "host.account.".toList ++ name

/-- The id of the `shadow` record of an account. -/
def shadowEvidenceId (name : Str) : Str :=
  "host.shadow.".toList ++ name

/-- The id of the record of a privileged account. -/
def privilegedEvidenceId (name : Str) : Str :=
  "host.privileged.".toList ++ name

/-! ### Snapshots -/

/-- The state of the lock of an account. -/
inductive LockState where
  | unlocked
  | locked
  | undetermined
deriving DecidableEq, Repr

/-- What the password field of `shadow` says. -/
inductive PasswordState where
  | hashed
  | empty
  | locked
deriving DecidableEq, Repr

/-- The last login of an account, in days before the snapshot. -/
inductive LastLogin where
  | daysBefore (days : ℕ)
  | never
  | undetermined
deriving DecidableEq, Repr

/-- What `shadow` says of an account. -/
structure ShadowEntry where
  password : PasswordState
  lastLogin : LastLogin
  expiryPassed : Bool
  rawLine : Str
deriving DecidableEq

/-- An account, with its `shadow` entry if it has one. -/
structure Account where
  name : Str
  uid : ℕ
  shell : Str
  shadow : Option ShadowEntry
deriving DecidableEq

/-- How an account came by its privilege. -/
inductive GrantSource where
  | uid0
  | sudoGroup
  | wheelGroup
  | sudoersGrant
deriving DecidableEq, Repr

/-- The name of a source of privilege. -/
def GrantSource.label : GrantSource → Str
  | .uid0 => "uid 0".toList
  | .sudoGroup => "sudo group".toList
  | .wheelGroup => "wheel group".toList
  | .sudoersGrant => "sudoers.d grant".toList

/-- The file a grant is anchored on. -/
def GrantSource.locator : GrantSource → Str
  | .uid0 => passwdLocator
  | .sudoGroup => groupLocator
  | .wheelGroup => groupLocator
  | .sudoersGrant => sudoersLocator

/-- A grant of privilege. -/
structure PrivilegedGrant where
  name : Str
  source : GrantSource

/-- What the scanner evaluates against. -/
structure UserPolicy where
  inactivityThresholdDays : ℕ
  expectedPrivileged : List Str

/-- Whether an account is an expected privileged one. -/
def UserPolicy.expectsPrivileged (policy : UserPolicy) (name : Str) : Bool :=
  name ∈ policy.expectedPrivileged

/-- The captured accounts of a host. -/
structure UserSnapshot where
  accounts : List Account
  shadowReadable : Bool
  privileged : List PrivilegedGrant

/-- The state of the lock of an account. -/
def UserSnapshot.lockState (snapshot : UserSnapshot) (account : Account) : LockState :=
  if snapshot.shadowReadable then
    match account.shadow with
    | some entry => if entry.password = .locked then .locked else .unlocked
    | none => .unlocked
  else .undetermined

/-- Adds a privileged account, unless there is one of its name. -/
def pushPrivileged (privileged : List (Str × GrantSource)) (grant : Str × GrantSource) :
    List (Str × GrantSource) :=
  if grant.1 ∈ privileged.map Prod.fst then privileged else privileged ++ [grant]

/-- The privileged accounts, each once: those of uid 0 and those with a grant. -/
def snapshotPrivileged (snapshot : UserSnapshot) : List (Str × GrantSource) :=
  (((snapshot.accounts.filter fun account => account.uid = 0).map fun account =>
      (account.name, GrantSource.uid0)) ++
    snapshot.privileged.map fun grant => (grant.name, grant.source)).foldl pushPrivileged []

/-- Whether a shell starts an interactive session. -/
def hasLoginShell (shell : Str) : Bool :=
  shell ∉ nonLoginShells

/-- Whether an account may log in without a password. -/
def isPasswordlessLogin (account : Account) : Bool :=
  hasLoginShell account.shell && account.shadow.map (·.password) = some .empty

/-! ### The scanner -/

/-- The line of `passwd` that is kept of an account. -/
def accountLine (account : Account) : Str :=
  account.name ++ ":x:".toList ++ decimal account.uid ++ ":".toList ++ decimal account.uid ++
    "::/home/".toList ++ account.name ++ ":".toList ++ account.shell

/-- The evidence of an account. -/
def accountBuilder (account : Account) : EvidenceBuilder :=
  ⟨accountEvidenceId account.name, .config, passwdLocator,
    some (account.name ++ " (uid ".toList ++ decimal account.uid ++ ")".toList),
    some .sensitive, accountLine account⟩

/-- The evidence of the `shadow` entry of an account. -/
def shadowBuilder (account : Account) (entry : ShadowEntry) : EvidenceBuilder :=
  ⟨shadowEvidenceId account.name, .config, shadowLocator, some account.name, some .secret,
    entry.rawLine⟩

/-- The evidence of a privileged account. -/
def privilegedBuilder (grant : Str × GrantSource) : EvidenceBuilder :=
  ⟨privilegedEvidenceId grant.1, .config, grant.2.locator,
    some (grant.1 ++ " via ".toList ++ grant.2.label), some .sensitive,
    grant.1 ++ " granted via ".toList ++ grant.2.label⟩

/-- The evidence of the accounts of a host. -/
def accountEvidence (snapshot : UserSnapshot) : List EvidenceBuilder :=
  snapshot.accounts.flatMap fun account =>
    accountBuilder account :: (account.shadow.map (shadowBuilder account)).toList

/-- The evidence of the accounts and of the privileged accounts. -/
def userEvidence (snapshot : UserSnapshot) : List EvidenceBuilder :=
  accountEvidence snapshot ++ (snapshotPrivileged snapshot).map privilegedBuilder

/-- A snapshot with the policy it is evaluated against and the evidence captured of it. -/
structure UserScanner where
  snapshot : UserSnapshot
  policy : UserPolicy
  evidence : List StoredEvidence

namespace UserScanner

/-- The scanner of a snapshot. -/
def new (sdk : EvidenceSdk) (snapshot : UserSnapshot) (policy : UserPolicy) : UserScanner where
  snapshot := snapshot
  policy := policy
  evidence := sdk.collect (userEvidence snapshot)

/-- The captured evidence. -/
def evidenceLog (scanner : UserScanner) : List StoredEvidence :=
  scanner.evidence

/-- The inventory passes with the evidence of every account. -/
def evaluateInventory (scanner : UserScanner) : Evaluation :=
  Evaluation.satisfied.withEvidenceRefs
    (scanner.snapshot.accounts.map fun account => accountEvidenceId account.name)

/-- A second account of uid 0 is a finding. -/
def evaluateSingleRoot (scanner : UserScanner) : Evaluation :=
  let roots := scanner.snapshot.accounts.filter fun account => account.uid = 0
  if roots.length ≤ 1 then .satisfied
  else
    ((Evaluation.finding.withEvidenceRefs
      (roots.map fun account => accountEvidenceId account.name)).withTargets
        [passwdLocator]).withDetail
          ("more than one account has uid 0 (".toList ++ joinNames (roots.map (·.name)) ++
            "); root must be the only uid-0 account".toList)

/-- An account that may log in without a password is a finding. -/
def evaluateNoEmptyPassword (scanner : UserScanner) : Answer :=
  if scanner.snapshot.shadowReadable then
    let offending := scanner.snapshot.accounts.filter isPasswordlessLogin
    if offending = [] then .ok .satisfied
    else
      .ok (((Evaluation.finding.withEvidenceRefs
        (offending.map fun account => accountEvidenceId account.name)).withTargets
          [shadowLocator]).withDetail
            (joinNames (offending.map (·.name)) ++ " can log in without a password (an ".toList ++
              "empty shadow password field on an unlocked login account)".toList))
  else
    failed "the shadow file could not be read, so account passwords cannot be evaluated".toList

/-- Whether an account may be dormant: it has a login shell and is not locked. -/
def isDormancyEligible (scanner : UserScanner) (account : Account) : Bool :=
  hasLoginShell account.shell && scanner.snapshot.lockState account = .unlocked

/-- What is said of an account whose expiry date has passed. -/
def expiryReason (name : Str) (entry : ShadowEntry) : Option Str :=
  if entry.expiryPassed then
    some (name ++ " is expired and its access should be reviewed".toList)
  else none

/-- Why an account is dormant, if it is. -/
def dormancyReason (scanner : UserScanner) (name : Str) (entry : ShadowEntry) : Option Str :=
  match entry.lastLogin with
  | .daysBefore days =>
      if scanner.policy.inactivityThresholdDays < days then
        some (name ++ " is dormant beyond the ".toList ++
          decimal scanner.policy.inactivityThresholdDays ++ "-day threshold (last login ".toList ++
          decimal days ++ " days ago)".toList)
      else expiryReason name entry
  | .never => some (name ++ " has never logged in and is treated as dormant".toList)
  | .undetermined => expiryReason name entry

/-- The finding of one account. -/
def dormantFinding (scanner : UserScanner) (account : Account) : Option (Str × Str) :=
  if scanner.isDormancyEligible account then
    account.shadow.bind fun entry =>
      (scanner.dormancyReason account.name entry).map fun reason => (account.name, reason)
  else none

/-- A dormant account is a finding. -/
def evaluateDormant (scanner : UserScanner) : Evaluation :=
  let findings := scanner.snapshot.accounts.filterMap scanner.dormantFinding
  if findings = [] then .satisfied
  else
    ((Evaluation.finding.withEvidenceRefs
      (findings.map fun finding => accountEvidenceId finding.1)).withTargets
        [passwdLocator]).withDetail ("; ".toList.intercalate (findings.map Prod.snd))

/-- A privileged account that is not expected is a finding. -/
def evaluatePrivileged (scanner : UserScanner) : Evaluation :=
  let privileged := snapshotPrivileged scanner.snapshot
  let refs := privileged.map fun grant => privilegedEvidenceId grant.1
  let unexpected := (privileged.filter fun grant =>
    !scanner.policy.expectsPrivileged grant.1).map Prod.fst
  if unexpected = [] then Evaluation.satisfied.withEvidenceRefs refs
  else
    (Evaluation.finding.withEvidenceRefs refs).withDetail (joinNames unexpected ++
      " is an unexpected privileged account outside the expected set".toList)

/-- Evaluates a rule by its id. -/
def evaluate (scanner : UserScanner) (rule : Str) : Answer :=
  if rule = inventoryRule then .ok scanner.evaluateInventory
  else if rule = singleRootRule then .ok scanner.evaluateSingleRoot
  else if rule = noEmptyPasswordRule then scanner.evaluateNoEmptyPassword
  else if rule = dormantAccountRule then .ok scanner.evaluateDormant
  else if rule = privilegedExpectedRule then .ok scanner.evaluatePrivileged
  else .error ⟨"no user-scanner rule is registered for '".toList ++ rule ++ "'".toList⟩

end UserScanner

/-! ### Parsing -/

/-- What a password field says: nothing, a lock, or the hash of a password. -/
def classifyPasswordField (field : Str) : PasswordState :=
  if field = [] then .empty
  else if field = ['!'] ∨ field = ['*'] ∨ field = ['!', '!'] then .locked
  else .hashed

/-- The name and the entry of a line of `shadow`. -/
def parseShadowLine (line : Str) : Option (Str × ShadowEntry) :=
  match splitChar ':' line with
  | name :: field :: _ => some (name, ⟨classifyPasswordField field, .undetermined, false, line⟩)
  | _ => none

/-- The entries of `shadow`. -/
def parseShadow (shadow : Str) : List (Str × ShadowEntry) :=
  (lines shadow).filterMap parseShadowLine

/-- The name, the uid and the shell of a line of `passwd`. -/
def parsePasswdLine (line : Str) : Option (Str × ℕ × Str) :=
  match splitChar ':' line with
  | name :: _ :: uid :: _ :: _ :: _ :: shell :: _ =>
      (parseUnsigned 10 4294967295 uid).map fun uid => (name, uid, shell)
  | _ => none

/-- The first entry of a name. -/
def shadowEntryOf (entries : List (Str × ShadowEntry)) (name : Str) : Option ShadowEntry :=
  (entries.find? fun entry => entry.1 = name).map Prod.snd

/-- The accounts of `passwd` with their entries in `shadow`, if it could be read. -/
def parseAccounts (passwd : Str) (shadow : Option Str) : List Account :=
  ((lines passwd).filterMap parsePasswdLine).map fun (name, uid, shell) =>
    { name := name
      uid := uid
      shell := shell
      shadow := (shadow.map parseShadow).bind fun entries => shadowEntryOf entries name }

/-- Captures the accounts of a host from its `passwd` and, if it can be read, its `shadow`. -/
def UserSnapshot.acquire (passwd : Str) (shadow : Option Str) : UserSnapshot where
  accounts := parseAccounts passwd shadow
  shadowReadable := shadow.isSome
  privileged := []

end SovriAgent
