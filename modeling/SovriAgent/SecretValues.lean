import SovriAgent.DockerScanner
import SovriAgent.UserScanner

/-!
# Secret Values Do Not Show

Two runs of a scanner on inputs that differ only in secret values show the same: the answers to
every rule, with their texts and the evidence they cite, and the evidence itself except for the
digests and the sizes of secret records. The secrets are the values of the log options in `daemon.json` and the
password hashes in `shadow`.

The relations follow the data. Two configurations are related when their log options have the
same names, and two accounts when their `shadow` entries agree but for the raw line; what the
scanners read of them is then equal, and the evidence built of them differs at most in the
content of what is secret.

## Main results

* `SameConfig.evaluate_eq`, `SameAccounts.evaluate_eq`: the answers are equal.
* `EvidenceSdk.Redacts.collect`: evidence that differs in the content of secrets is recorded
  alike.
* `secret_values_do_not_show`: both, for every pair of texts.
* `secret_sizes_show`: the size of a record is that of its secret.
-/

namespace SovriAgent

open Relator

/-! ### Evidence -/

/-- Records that differ at most in the digest and the size of a secret. -/
structure SameRecord (record record' : StoredEvidence) : Prop where
  id : record.id = record'.id
  kind : record.kind = record'.kind
  locator : record.locator = record'.locator
  key : record.key = record'.key
  classification : record.classification = record'.classification
  excerpt : record.excerpt = record'.excerpt
  sizeBytes : record.classification ≠ some .secret → record.sizeBytes = record'.sizeBytes
  contentHash : record.classification ≠ some .secret → record.contentHash = record'.contentHash

theorem SameRecord.refl (record : StoredEvidence) : SameRecord record record :=
  ⟨rfl, rfl, rfl, rfl, rfl, rfl, fun _ => rfl, fun _ => rfl⟩

/-- Evidence that differs at most in the content of a secret. -/
inductive SameEvidence : EvidenceBuilder → EvidenceBuilder → Prop
  | refl (builder : EvidenceBuilder) : SameEvidence builder builder
  | secret (builder : EvidenceBuilder) (content : Str)
      (h : builder.classification = some .secret) :
      SameEvidence builder { builder with content := content }

variable {sdk : EvidenceSdk}

/-- Evidence that differs in the content of a secret is built or refused alike. -/
theorem EvidenceSdk.Redacts.build (hsdk : sdk.Redacts) {builder builder' : EvidenceBuilder}
    (h : SameEvidence builder builder') :
    Option.Rel SameRecord (sdk.build builder) (sdk.build builder') := by
  cases h with
  | refl =>
      cases sdk.build builder with
      | none => exact .none
      | some record => exact .some (.refl record)
  | secret content hsecret =>
      cases hbuild : sdk.build builder with
      | none =>
          cases hbuild' : sdk.build { builder with content := content } with
          | none => exact .none
          | some record' =>
              obtain ⟨record, hrecord⟩ := hsdk.builds _ builder.content record' hbuild'
              cases hbuild.symm.trans hrecord
      | some record =>
          obtain ⟨record', hbuild'⟩ := hsdk.builds _ content record hbuild
          obtain ⟨hid, hkind, hlocator, hkey, hclass⟩ := hsdk.keeps _ _ hbuild
          obtain ⟨hid', hkind', hlocator', hkey', hclass'⟩ := hsdk.keeps _ _ hbuild'
          have hredacts : builder.classification.any
              EvidenceClassification.redactsRawValue = true := by rw [hsecret]; rfl
          rw [hbuild']
          exact .some
            { id := hid.trans hid'.symm
              kind := hkind.trans hkind'.symm
              locator := hlocator.trans hlocator'.symm
              key := hkey.trans hkey'.symm
              classification := hclass.trans hclass'.symm
              excerpt := (hsdk.redacts _ _ hbuild hredacts).trans
                (hsdk.redacts _ _ hbuild' hredacts).symm
              sizeBytes := fun hother => absurd (hclass.trans hsecret) hother
              contentHash := fun hother => absurd (hclass.trans hsecret) hother }

/-- Evidence that differs in the content of secrets is recorded alike. -/
theorem EvidenceSdk.Redacts.collect (hsdk : sdk.Redacts)
    {builders builders' : List EvidenceBuilder}
    (h : List.Forall₂ SameEvidence builders builders') :
    List.Forall₂ SameRecord (sdk.collect builders) (sdk.collect builders') :=
  List.rel_filterMap (fun _ _ hbuilder => hsdk.build hbuilder) h

/-! ### Configurations of the daemon -/

/-- Members of the log options: the same name, and the same value or both a text. -/
def SameLogOpt (entry entry' : Str × JsonValue) : Prop :=
  entry.1 = entry'.1 ∧
    (entry.2 = entry'.2 ∨ ∃ text text', entry.2 = .str text ∧ entry'.2 = .str text')

/-- Members of `daemon.json`: the same name, and the same value or both log options. -/
def SameMember (entry entry' : Str × JsonValue) : Prop :=
  entry.1 = entry'.1 ∧
    (entry.2 = entry'.2 ∨ entry.1 = logOptsKey ∧ ∃ options options',
      entry.2 = .object options ∧ entry'.2 = .object options' ∧
        List.Forall₂ SameLogOpt options options')

/-- Settings: the same value, or log options of the same names. -/
def SameSetting (key : Str) (value value' : ConfigValue) : Prop :=
  value = value' ∨ key = logOptsKey ∧ ∃ options options',
    value = .map options ∧ value' = .map options' ∧
      Ordered.Map.Related (fun _ _ _ => True) options options'

/-- Configurations that differ at most in the values of log options. -/
def SameConfig (config config' : DaemonConfig) : Prop :=
  Ordered.Map.Related SameSetting config.values config'.values

/-- Members that differ in a secret are read alike into the log options. -/
theorem related_insertText {map map' : Ordered.Map Str Str}
    (hmap : Ordered.Map.Related (fun _ _ _ => True) map map') {entry entry' : Str × JsonValue}
    (h : SameLogOpt entry entry') :
    Ordered.Map.Related (fun _ _ _ => True) (insertText map entry) (insertText map' entry') := by
  obtain ⟨key, value⟩ := entry
  obtain ⟨key', value'⟩ := entry'
  obtain ⟨rfl, rfl | ⟨text, text', rfl, rfl⟩⟩ := h
  · cases value with
    | str text => exact hmap.insert trivial
    | _ => exact hmap
  · exact hmap.insert trivial

/-- Members that differ in secrets are read alike into the configuration. -/
theorem related_insertSetting {values values' : Ordered.Map Str ConfigValue}
    (hvalues : Ordered.Map.Related SameSetting values values') {entry entry' : Str × JsonValue}
    (h : SameMember entry entry') :
    Ordered.Map.Related SameSetting (insertSetting values entry)
      (insertSetting values' entry') := by
  obtain ⟨key, value⟩ := entry
  obtain ⟨key', value'⟩ := entry'
  obtain ⟨rfl, rfl | ⟨rfl, options, options', rfl, rfl, hoptions⟩⟩ := h
  · dsimp only [insertSetting]
    split
    · exact hvalues.insert (.inl rfl)
    · exact hvalues
  · have hinsert : (Ordered.Map.Related (fun _ _ _ => True) ⇒ SameLogOpt ⇒
        Ordered.Map.Related (fun _ _ _ => True)) insertText insertText :=
      fun _ _ hmap _ _ hoption => related_insertText hmap hoption
    have hrelated := List.rel_foldl hinsert Ordered.Map.related_empty hoptions
    exact hvalues.insert (.inr ⟨rfl, _, _, rfl, rfl, hrelated⟩)

/-- Objects that differ in the values of log options are configurations that do. -/
theorem sameConfig_of_members {entries entries' : List (Str × JsonValue)}
    (h : List.Forall₂ SameMember entries entries') :
    SameConfig ⟨entries.foldl insertSetting .empty⟩ ⟨entries'.foldl insertSetting .empty⟩ := by
  have hinsert : (Ordered.Map.Related SameSetting ⇒ SameMember ⇒
      Ordered.Map.Related SameSetting) insertSetting insertSetting :=
    fun _ _ hvalues _ _ hmember => related_insertSetting hvalues hmember
  exact List.rel_foldl hinsert Ordered.Map.related_empty h

namespace SameConfig

variable {config config' : DaemonConfig}

/-- A setting is the same, or log options of the same names. -/
theorem get_cases (h : SameConfig config config') (key : Str) :
    config.values.get key = config'.values.get key ∨ ∃ options options',
      config.values.get key = some (.map options) ∧
      config'.values.get key = some (.map options') ∧
      Ordered.Map.Related (fun _ _ _ => True) options options' := by
  have hget := Ordered.Map.Related.get h key
  generalize config.values.get key = value, config'.values.get key = value' at hget ⊢
  cases hget with
  | none => exact .inl rfl
  | some hvalue =>
      obtain rfl | ⟨-, options, options', rfl, rfl, hoptions⟩ := hvalue
      · exact .inl rfl
      · exact .inr ⟨options, options', rfl, rfl, hoptions⟩

/-- The lists of the two configurations are the same. -/
theorem listOf_eq (h : SameConfig config config') (key : String) :
    config.listOf key = config'.listOf key := by
  rw [DaemonConfig.listOf, DaemonConfig.listOf]
  obtain hget | ⟨options, options', hget, hget', -⟩ := h.get_cases key.toList
  · rw [hget]
  · rw [hget, hget']

theorem insecureRegistries_eq (h : SameConfig config config') :
    config.insecureRegistries = config'.insecureRegistries :=
  h.listOf_eq "insecure-registries"

theorem hosts_eq (h : SameConfig config config') : config.hosts = config'.hosts :=
  h.listOf_eq "hosts"

/-- They verify clients alike. -/
theorem tlsVerify_eq (h : SameConfig config config') : config.tlsVerify = config'.tlsVerify := by
  rw [DaemonConfig.tlsVerify, DaemonConfig.tlsVerify]
  obtain hget | ⟨options, options', hget, hget', -⟩ := h.get_cases "tlsverify".toList
  · rw [hget]
  · rw [hget, hget']

/-- They name the same key. -/
theorem tlsKeyPath_eq (h : SameConfig config config') :
    config.tlsKeyPath = config'.tlsKeyPath := by
  rw [DaemonConfig.tlsKeyPath, DaemonConfig.tlsKeyPath]
  obtain hget | ⟨options, options', hget, hget', -⟩ := h.get_cases "tlskey".toList
  · rw [hget]
  · rw [hget, hget']

/-- They are hardened alike. -/
theorem isHardened_eq (h : SameConfig config config') (option : HardeningOption) :
    config.isHardened option = config'.isHardened option := by
  rw [DaemonConfig.isHardened, DaemonConfig.isHardened]
  obtain hget | ⟨options, options', hget, hget', -⟩ := h.get_cases option.name
  · rw [hget]
  · rw [hget, hget']
    cases option.expected <;> rfl

/-- They lack the same hardening options. -/
theorem notHardened_eq (h : SameConfig config config') (policy : DockerPolicy) :
    policy.notHardened config = policy.notHardened config' := by
  simp only [DockerPolicy.notHardened, h.isHardened_eq]

/-- The log options have the same names. -/
theorem logOpts_rel (h : SameConfig config config') :
    Option.Rel (Ordered.Map.Related fun _ _ _ => True) config.logOpts config'.logOpts := by
  rw [DaemonConfig.logOpts, DaemonConfig.logOpts]
  obtain hget | ⟨options, options', hget, hget', hoptions⟩ := h.get_cases logOptsKey
  · rw [hget]
    split
    · exact .some (List.forall₂_same.mpr fun _ _ => ⟨rfl, trivial⟩)
    · exact .none
  · rw [hget, hget']
    exact .some hoptions

/-- Their log options have the same names. -/
theorem logOptKeys_eq (h : SameConfig config config') :
    config.logOptKeys = config'.logOptKeys := by
  have hoptions := h.logOpts_rel
  rw [DaemonConfig.logOptKeys, DaemonConfig.logOptKeys]
  generalize config.logOpts = options, config'.logOpts = options' at hoptions ⊢
  cases hoptions with
  | none => rfl
  | some hoptions => exact congrArg (fun keys => (some keys).getD []) hoptions.keys_eq

/-- The credentials among the log options have the same names. -/
theorem secretLogOpts_rel (h : SameConfig config config') :
    List.Forall₂ (fun entry entry' => entry.1 = entry'.1) config.secretLogOpts
      config'.secretLogOpts := by
  have hoptions := h.logOpts_rel
  rw [DaemonConfig.secretLogOpts, DaemonConfig.secretLogOpts]
  refine List.rel_filter (fun _ _ hkey => by dsimp only; rw [hkey]) ?_
  generalize config.logOpts = options, config'.logOpts = options' at hoptions ⊢
  cases hoptions with
  | none => exact .nil
  | some hoptions => exact hoptions.imp fun _ _ hentry => hentry.1

/-- **The summary of a configuration** does not show the values of its log options. -/
theorem configSummary_eq (h : SameConfig config config') (policy : DockerPolicy) :
    configSummary config policy = configSummary config' policy := by
  rw [configSummary, configSummary, h.insecureRegistries_eq, h.hosts_eq, h.tlsVerify_eq,
    h.tlsKeyPath_eq, h.logOptKeys_eq, h.notHardened_eq]

end SameConfig

/-! ### The Docker scanner -/

/-- The snapshot of a daemon whose `daemon.json` could be read. -/
def persistedSnapshot (builder : DockerSnapshotBuilder) (config : DaemonConfig) :
    DockerSnapshot where
  daemon := builder.daemon.getD .absent
  version := builder.version
  config := some config
  origin := .daemonJson
  daemonJson := .present
  present_of_origin := fun _ => rfl

/-- The snapshot of a `daemon.json` that is an object. -/
theorem build_daemonJson {raw : Str} {entries : List (Str × JsonValue)}
    (h : JsonParser.parse raw = some (.object entries)) (builder : DockerSnapshotBuilder) :
    (builder.daemonJson raw).build =
      persistedSnapshot builder ⟨entries.foldl insertSetting .empty⟩ := by
  rw [DockerSnapshotBuilder.daemonJson, h]
  rfl

namespace SameConfig

variable {config config' : DaemonConfig}

/-- The evidence of the two configurations differs at most in the values of credentials. -/
theorem dockerEvidence (h : SameConfig config config') (builder : DockerSnapshotBuilder)
    (policy : DockerPolicy) :
    List.Forall₂ SameEvidence (dockerEvidence (persistedSnapshot builder config) policy)
      (dockerEvidence (persistedSnapshot builder config') policy) := by
  have hsecrets : List.Forall₂ SameEvidence (config.secretLogOpts.map logOptBuilder)
      (config'.secretLogOpts.map logOptBuilder) := by
    refine List.rel_map (fun entry entry' hkey => ?_) h.secretLogOpts_rel
    obtain ⟨key, value⟩ := entry
    obtain ⟨_, value'⟩ := entry'
    obtain rfl := hkey
    exact .secret (logOptBuilder (key, value)) value' rfl
  rw [SovriAgent.dockerEvidence, SovriAgent.dockerEvidence]
  by_cases hreachable : builder.daemon.getD .absent = .reachable
  · rw [if_pos (show (persistedSnapshot builder config).daemon = .reachable from hreachable),
      if_pos (show (persistedSnapshot builder config').daemon = .reachable from hreachable)]
    have hsummary : daemonJsonBuilder config policy = daemonJsonBuilder config' policy := by
      rw [daemonJsonBuilder, daemonJsonBuilder, h.configSummary_eq]
    exact .cons (.refl _) (.cons (hsummary ▸ .refl _) hsecrets)
  · rw [if_neg (show (persistedSnapshot builder config).daemon ≠ .reachable from hreachable),
      if_neg (show (persistedSnapshot builder config').daemon ≠ .reachable from hreachable)]
    exact .nil

variable (sdk : EvidenceSdk) (builder : DockerSnapshotBuilder) (policy : DockerPolicy)

/-- The answers about registries are the same. -/
theorem evaluateInsecureRegistries_eq (h : SameConfig config config') :
    (DockerScanner.new sdk (persistedSnapshot builder config) policy).evaluateInsecureRegistries =
      (DockerScanner.new sdk (persistedSnapshot builder config')
        policy).evaluateInsecureRegistries := by
  simp only [DockerScanner.evaluateInsecureRegistries, DockerScanner.requireConfig,
    DockerScanner.configAnchored, DockerScanner.new, persistedSnapshot, bind, Except.bind,
    h.insecureRegistries_eq]

/-- The answers about the socket are the same. -/
theorem evaluateSocket_eq (h : SameConfig config config') :
    (DockerScanner.new sdk (persistedSnapshot builder config) policy).evaluateSocket =
      (DockerScanner.new sdk (persistedSnapshot builder config') policy).evaluateSocket := by
  simp only [DockerScanner.evaluateSocket, DockerScanner.requireConfig,
    DockerScanner.configAnchored, DockerScanner.new, persistedSnapshot, bind, Except.bind,
    h.hosts_eq, h.tlsVerify_eq]

/-- The answers about hardening are the same. -/
theorem evaluateHardening_eq (h : SameConfig config config') :
    (DockerScanner.new sdk (persistedSnapshot builder config) policy).evaluateHardening =
      (DockerScanner.new sdk (persistedSnapshot builder config') policy).evaluateHardening := by
  by_cases hnil : policy.notHardened config' = [] <;>
    simp only [DockerScanner.evaluateHardening, DockerScanner.requireConfig,
      DockerScanner.configAnchored, DockerScanner.new, persistedSnapshot, bind, Except.bind,
      h.notHardened_eq policy, hnil, if_true, if_false]

/-- The answers for the two configurations are the same. -/
theorem evaluate_eq (h : SameConfig config config') (rule : Str) :
    (DockerScanner.new sdk (persistedSnapshot builder config) policy).evaluate rule =
      (DockerScanner.new sdk (persistedSnapshot builder config') policy).evaluate rule := by
  rw [DockerScanner.evaluate, DockerScanner.evaluate, h.evaluateInsecureRegistries_eq,
    h.evaluateSocket_eq, h.evaluateHardening_eq]
  rfl

end SameConfig

/-! ### Accounts -/

/-- The hash of a password: neither empty nor a lock. -/
def IsHash (field : Str) : Prop :=
  field ≠ [] ∧ field ≠ ['!'] ∧ field ≠ ['*'] ∧ field ≠ ['!', '!']

/-- Lines of `shadow`: the same, or the same but for a password hash. -/
def SameShadowLine (line line' : Str) : Prop :=
  line = line' ∨ ∃ name hash hash' rest, splitChar ':' line = name :: hash :: rest ∧
    splitChar ':' line' = name :: hash' :: rest ∧ IsHash hash ∧ IsHash hash'

/-- Entries of `shadow` that differ at most in the raw line. -/
def SameEntry (entry entry' : ShadowEntry) : Prop :=
  entry' = { entry with rawLine := entry'.rawLine }

/-- Accounts that differ at most in the raw line of `shadow`. -/
def SameAccount (account account' : Account) : Prop :=
  account' = { account with shadow := account'.shadow } ∧
    Option.Rel SameEntry account.shadow account'.shadow

theorem SameEntry.refl (entry : ShadowEntry) : SameEntry entry entry :=
  rfl

/-- A hash is classified as one, whatever it is. -/
theorem IsHash.classify {field : Str} (h : IsHash field) :
    classifyPasswordField field = .hashed := by
  rw [classifyPasswordField, if_neg h.1, if_neg (by simp [h.2.1, h.2.2.1, h.2.2.2])]

/-- A line that differs in a password hash is read alike, but for the raw line. -/
theorem sameEntry_of_line {line line' : Str} (h : SameShadowLine line line') :
    Option.Rel (fun entry entry' => entry.1 = entry'.1 ∧ SameEntry entry.2 entry'.2)
      (parseShadowLine line) (parseShadowLine line') := by
  obtain rfl | ⟨name, hash, hash', rest, hline, hline', hhash, hhash'⟩ := h
  · cases parseShadowLine line with
    | none => exact .none
    | some entry => exact .some ⟨rfl, .refl _⟩
  · rw [parseShadowLine, parseShadowLine, hline, hline']
    refine .some ⟨rfl, ?_⟩
    simp only [SameEntry, hhash.classify, hhash'.classify]

/-- The entries of a name are found alike. -/
theorem sameEntry_shadowEntryOf {entries entries' : List (Str × ShadowEntry)}
    (h : List.Forall₂ (fun entry entry' => entry.1 = entry'.1 ∧ SameEntry entry.2 entry'.2)
      entries entries') (name : Str) :
    Option.Rel SameEntry (shadowEntryOf entries name) (shadowEntryOf entries' name) := by
  rw [shadowEntryOf, shadowEntryOf]
  induction h with
  | nil => exact .none
  | @cons entry entry' rest rest' hentry hrest ih =>
      rw [List.find?_cons, List.find?_cons, ← hentry.1]
      by_cases hname : entry.1 = name
      · simpa [hname] using Option.Rel.some hentry.2
      · simpa [hname] using ih

/-- Accounts read with two such files differ at most in raw lines. -/
theorem sameAccount_parseAccounts {shadow shadow' : Str}
    (h : List.Forall₂ SameShadowLine (lines shadow) (lines shadow')) (passwd : Str) :
    List.Forall₂ SameAccount (parseAccounts passwd (some shadow))
      (parseAccounts passwd (some shadow')) := by
  have hentries : List.Forall₂
      (fun entry entry' => entry.1 = entry'.1 ∧ SameEntry entry.2 entry'.2)
      (parseShadow shadow) (parseShadow shadow') :=
    List.rel_filterMap (fun _ _ hline => sameEntry_of_line hline) h
  rw [parseAccounts, parseAccounts, List.forall₂_map_left_iff, List.forall₂_map_right_iff]
  exact List.forall₂_same.mpr fun entry _ => ⟨rfl, sameEntry_shadowEntryOf hentries entry.1⟩

namespace SameAccount

variable {account account' : Account}

theorem name_eq (h : SameAccount account account') : account.name = account'.name := by
  rw [h.1]

theorem uid_eq (h : SameAccount account account') : account.uid = account'.uid := by
  rw [h.1]

theorem shell_eq (h : SameAccount account account') : account.shell = account'.shell := by
  rw [h.1]

/-- Both accounts let in without a password, or none does. -/
theorem isPasswordlessLogin_eq (h : SameAccount account account') :
    isPasswordlessLogin account = isPasswordlessLogin account' := by
  obtain ⟨haccount, hshadow⟩ := h
  rw [isPasswordlessLogin, isPasswordlessLogin, ← SameAccount.shell_eq ⟨haccount, hshadow⟩]
  generalize account.shadow = shadow, account'.shadow = shadow' at hshadow ⊢
  cases hshadow with
  | none => rfl
  | some hentry => rw [hentry]; rfl

/-- The evidence of the accounts themselves is the same. -/
theorem accountBuilder_eq (h : SameAccount account account') :
    accountBuilder account = accountBuilder account' := by
  simp only [accountBuilder, accountLine, h.name_eq, h.uid_eq, h.shell_eq]

/-- The evidence of the two accounts differs at most in the raw line of `shadow`. -/
theorem evidence (h : SameAccount account account') :
    List.Forall₂ SameEvidence
      (accountBuilder account :: (account.shadow.map (shadowBuilder account)).toList)
      (accountBuilder account' :: (account'.shadow.map (shadowBuilder account')).toList) := by
  refine .cons (h.accountBuilder_eq ▸ .refl _) ?_
  have hbuilder : shadowBuilder account' = shadowBuilder account := by
    funext entry
    simp only [shadowBuilder, h.name_eq]
  obtain ⟨-, hshadow⟩ := h
  rw [hbuilder]
  generalize account.shadow = shadow, account'.shadow = shadow' at hshadow ⊢
  cases hshadow with
  | none => exact .nil
  | @some entry entry' hentry =>
      exact .cons (.secret (shadowBuilder account entry) entry'.rawLine rfl) .nil

/-- Both accounts are locked, or none is. -/
theorem lockState_eq (h : SameAccount account account') {snapshot snapshot' : UserSnapshot}
    (hreadable : snapshot.shadowReadable = snapshot'.shadowReadable) :
    snapshot.lockState account = snapshot'.lockState account' := by
  obtain ⟨-, hshadow⟩ := h
  rw [UserSnapshot.lockState, UserSnapshot.lockState, hreadable]
  generalize account.shadow = shadow, account'.shadow = shadow' at hshadow ⊢
  cases hshadow with
  | none => rfl
  | some hentry => rw [hentry]

variable {scanner scanner' : UserScanner}

/-- Both accounts can be dormant, or none can. -/
theorem isDormancyEligible_eq (h : SameAccount account account')
    (hreadable : scanner.snapshot.shadowReadable = scanner'.snapshot.shadowReadable) :
    scanner.isDormancyEligible account = scanner'.isDormancyEligible account' := by
  rw [UserScanner.isDormancyEligible, UserScanner.isDormancyEligible, h.shell_eq,
    h.lockState_eq hreadable]

/-- The two accounts are dormant alike. -/
theorem dormantFinding_eq (h : SameAccount account account')
    (hreadable : scanner.snapshot.shadowReadable = scanner'.snapshot.shadowReadable)
    (hpolicy : scanner.policy = scanner'.policy) :
    scanner.dormantFinding account = scanner'.dormantFinding account' := by
  have hreason : ∀ entry entry', SameEntry entry entry' →
      scanner.dormancyReason account'.name entry =
        scanner'.dormancyReason account'.name entry' := by
    intro entry entry' hentry
    rw [hentry]
    simp only [UserScanner.dormancyReason, UserScanner.expiryReason, hpolicy]
  rw [UserScanner.dormantFinding, UserScanner.dormantFinding, h.isDormancyEligible_eq hreadable,
    h.name_eq]
  refine if_congr Iff.rfl ?_ rfl
  obtain ⟨-, hshadow⟩ := h
  generalize account.shadow = shadow, account'.shadow = shadow' at hshadow ⊢
  cases hshadow with
  | none => rfl
  | some hentry => simp only [Option.bind_some, hreason _ _ hentry]

end SameAccount

/-! ### The user scanner -/

/-- Equal values of the members of related lists. -/
theorem map_eq_of_forall₂ {α β γ : Type} {R : α → β → Prop} {f : α → γ} {g : β → γ}
    (hfg : ∀ a b, R a b → f a = g b) {items : List α} {items' : List β}
    (h : List.Forall₂ R items items') : items.map f = items'.map g :=
  List.forall₂_eq_eq_eq ▸ List.rel_map (fun a b hab => hfg a b hab) h

/-- Related items that give the same results give the same list. -/
theorem filterMap_eq_of_forall₂ {α β γ : Type} {R : α → β → Prop} {f : α → Option γ}
    {g : β → Option γ} (hfg : ∀ a b, R a b → f a = g b) {items : List α} {items' : List β}
    (h : List.Forall₂ R items items') : items.filterMap f = items'.filterMap g := by
  have hrel : (R ⇒ Option.Rel Eq) f g := by
    intro a b hab
    rw [hfg a b hab]
    cases g b with
    | none => exact .none
    | some value => exact .some rfl
  exact List.forall₂_eq_eq_eq ▸ List.rel_filterMap hrel h

/-- Accounts that differ at most in raw lines. -/
def SameAccounts (accounts accounts' : List Account) : Prop :=
  List.Forall₂ SameAccount accounts accounts'

namespace SameAccounts

variable {accounts accounts' : List Account}

/-- What is kept of related accounts is related. -/
theorem filter (h : SameAccounts accounts accounts') {kept : Account → Bool}
    (hkept : ∀ account account', SameAccount account account' → kept account = kept account') :
    SameAccounts (accounts.filter kept) (accounts'.filter kept) :=
  List.rel_filter (fun account account' hsame => by simp only [hkept account account' hsame]) h

/-- The names of the accounts are the same. -/
theorem names_eq (h : SameAccounts accounts accounts') :
    accounts.map (·.name) = accounts'.map (·.name) :=
  map_eq_of_forall₂ (fun _ _ hsame => hsame.name_eq) h

/-- The evidence that is cited for the accounts is the same. -/
theorem ids_eq (h : SameAccounts accounts accounts') :
    (accounts.map fun account => accountEvidenceId account.name) =
      accounts'.map fun account => accountEvidenceId account.name :=
  map_eq_of_forall₂ (fun _ _ hsame => by rw [hsame.name_eq]) h

/-- There are accounts in both files, or in none. -/
theorem eq_nil_iff (h : SameAccounts accounts accounts') : accounts = [] ↔ accounts' = [] := by
  rw [← List.length_eq_zero_iff, ← List.length_eq_zero_iff, h.length_eq]

/-- The accounts of uid 0. -/
theorem roots (h : SameAccounts accounts accounts') :
    SameAccounts (accounts.filter fun account => account.uid = 0)
      (accounts'.filter fun account => account.uid = 0) :=
  h.filter fun _ _ hsame => by rw [hsame.uid_eq]

variable (h : SameAccounts accounts accounts') (shadowReadable : Bool)
  (privileged : List PrivilegedGrant)

include h

/-- The privileged accounts are the same. -/
theorem snapshotPrivileged_eq :
    snapshotPrivileged ⟨accounts, shadowReadable, privileged⟩ =
      snapshotPrivileged ⟨accounts', shadowReadable, privileged⟩ := by
  rw [snapshotPrivileged, snapshotPrivileged]
  rw [map_eq_of_forall₂ (fun _ _ hsame => by rw [SameAccount.name_eq hsame]) h.roots]

/-- The evidence of the two files differs at most in the content of secrets. -/
theorem userEvidence :
    List.Forall₂ SameEvidence (userEvidence ⟨accounts, shadowReadable, privileged⟩)
      (userEvidence ⟨accounts', shadowReadable, privileged⟩) := by
  refine List.rel_append (List.rel_flatMap h fun _ _ hsame => hsame.evidence) ?_
  rw [h.snapshotPrivileged_eq]
  exact List.forall₂_same.mpr fun builder _ => .refl builder

variable (sdk : EvidenceSdk) (policy : UserPolicy)

/-- The answers about the inventory are the same. -/
theorem evaluateInventory_eq :
    (UserScanner.new sdk ⟨accounts, shadowReadable, privileged⟩ policy).evaluateInventory =
      (UserScanner.new sdk ⟨accounts', shadowReadable, privileged⟩ policy).evaluateInventory :=
  congrArg Evaluation.satisfied.withEvidenceRefs h.ids_eq

/-- The answers about other roots are the same. -/
theorem evaluateSingleRoot_eq :
    (UserScanner.new sdk ⟨accounts, shadowReadable, privileged⟩ policy).evaluateSingleRoot =
      (UserScanner.new sdk ⟨accounts', shadowReadable, privileged⟩ policy).evaluateSingleRoot := by
  dsimp only [UserScanner.evaluateSingleRoot, UserScanner.new]
  refine if_congr ?_ rfl ?_
  · rw [h.roots.length_eq]
  · rw [h.roots.ids_eq, h.roots.names_eq]

/-- The answers about empty passwords are the same. -/
theorem evaluateNoEmptyPassword_eq :
    (UserScanner.new sdk ⟨accounts, shadowReadable, privileged⟩ policy).evaluateNoEmptyPassword =
      (UserScanner.new sdk ⟨accounts', shadowReadable, privileged⟩
        policy).evaluateNoEmptyPassword := by
  have hoffending : SameAccounts (accounts.filter isPasswordlessLogin)
      (accounts'.filter isPasswordlessLogin) :=
    h.filter fun _ _ hsame => hsame.isPasswordlessLogin_eq
  dsimp only [UserScanner.evaluateNoEmptyPassword, UserScanner.new]
  refine if_congr Iff.rfl (if_congr hoffending.eq_nil_iff rfl ?_) rfl
  rw [hoffending.ids_eq, hoffending.names_eq]

/-- The accounts are dormant alike. -/
theorem dormantFindings_eq :
    accounts.filterMap (UserScanner.new sdk ⟨accounts, shadowReadable, privileged⟩
        policy).dormantFinding =
      accounts'.filterMap (UserScanner.new sdk ⟨accounts', shadowReadable, privileged⟩
        policy).dormantFinding :=
  filterMap_eq_of_forall₂ (fun _ _ hsame => hsame.dormantFinding_eq rfl rfl) h

/-- The answers about dormant accounts are the same. -/
theorem evaluateDormant_eq :
    (UserScanner.new sdk ⟨accounts, shadowReadable, privileged⟩ policy).evaluateDormant =
      (UserScanner.new sdk ⟨accounts', shadowReadable, privileged⟩ policy).evaluateDormant := by
  have hfindings := h.dormantFindings_eq shadowReadable privileged sdk policy
  dsimp only [UserScanner.evaluateDormant]
  refine if_congr ?_ rfl ?_
  · exact hfindings ▸ Iff.rfl
  · exact congrArg (fun findings : List (Str × Str) => ((Evaluation.finding.withEvidenceRefs
      (findings.map fun finding => accountEvidenceId finding.1)).withTargets
        [passwdLocator]).withDetail ("; ".toList.intercalate (findings.map Prod.snd))) hfindings

/-- The answers about privileged accounts are the same. -/
theorem evaluatePrivileged_eq :
    (UserScanner.new sdk ⟨accounts, shadowReadable, privileged⟩ policy).evaluatePrivileged =
      (UserScanner.new sdk ⟨accounts', shadowReadable, privileged⟩ policy).evaluatePrivileged := by
  dsimp only [UserScanner.evaluatePrivileged, UserScanner.new]
  refine if_congr ?_ ?_ ?_ <;> rw [h.snapshotPrivileged_eq]

/-- The answers for the two files are the same. -/
theorem evaluate_eq (rule : Str) :
    (UserScanner.new sdk ⟨accounts, shadowReadable, privileged⟩ policy).evaluate rule =
      (UserScanner.new sdk ⟨accounts', shadowReadable, privileged⟩ policy).evaluate rule := by
  rw [UserScanner.evaluate, UserScanner.evaluate, h.evaluateInventory_eq, h.evaluateSingleRoot_eq,
    h.evaluateNoEmptyPassword_eq, h.evaluateDormant_eq, h.evaluatePrivileged_eq]

end SameAccounts

/-! ### Both scanners -/

/-- Two runs that differ only in secret values give the same answers to every rule, and the same
evidence but for the digests and the sizes of secrets. -/
theorem secret_values_do_not_show {sdk : EvidenceSdk} (hsdk : sdk.Redacts) :
    (∀ builder policy raw raw' entries entries',
      JsonParser.parse raw = some (.object entries) →
      JsonParser.parse raw' = some (.object entries') →
      List.Forall₂ SameMember entries entries' →
      let scanner := DockerScanner.new sdk (DockerSnapshotBuilder.daemonJson builder raw).build
        policy
      let scanner' := DockerScanner.new sdk (DockerSnapshotBuilder.daemonJson builder raw').build
        policy
      (∀ rule, scanner.evaluate rule = scanner'.evaluate rule) ∧
        List.Forall₂ SameRecord scanner.evidenceLog scanner'.evidenceLog) ∧
    (∀ passwd policy shadow shadow',
      List.Forall₂ SameShadowLine (lines shadow) (lines shadow') →
      let scanner := UserScanner.new sdk (.acquire passwd (some shadow)) policy
      let scanner' := UserScanner.new sdk (.acquire passwd (some shadow')) policy
      (∀ rule, scanner.evaluate rule = scanner'.evaluate rule) ∧
        List.Forall₂ SameRecord scanner.evidenceLog scanner'.evidenceLog) := by
  constructor
  · intro builder policy raw raw' entries entries' hraw hraw' hmembers
    have hconfig := sameConfig_of_members hmembers
    dsimp only
    rw [build_daemonJson hraw, build_daemonJson hraw']
    exact ⟨hconfig.evaluate_eq sdk builder policy,
      hsdk.collect (hconfig.dockerEvidence builder policy)⟩
  · intro passwd policy shadow shadow' hlines
    have haccounts : SameAccounts _ _ := sameAccount_parseAccounts hlines passwd
    exact ⟨haccounts.evaluate_eq true [] sdk policy,
      hsdk.collect (haccounts.userEvidence true [])⟩

/-- A `daemon.json` with a credential. -/
def tokenJson : Str :=
  "\x7b\"log-opts\":\x7b\"token\":\"a\"\x7d\x7d".toList

/-- The same with another credential. -/
def otherTokenJson : Str :=
  "\x7b\"log-opts\":\x7b\"token\":\"b\"\x7d\x7d".toList

/-- The same with a longer credential. -/
def longTokenJson : Str :=
  "\x7b\"log-opts\":\x7b\"token\":\"bb\"\x7d\x7d".toList

/-- The members of a `daemon.json` with one log option. -/
def tokenMembers (value : Str) : List (Str × JsonValue) :=
  [("log-opts".toList, .object [("token".toList, .str value)])]

theorem parse_tokenJson : JsonParser.parse tokenJson = some (.object (tokenMembers ['a'])) := by
  cbv

/-- Only the credential differs. -/
theorem sameMember_tokenMembers (value value' : Str) :
    List.Forall₂ SameMember (tokenMembers value) (tokenMembers value') :=
  .cons ⟨rfl, .inr ⟨rfl, _, _, rfl, rfl, .cons ⟨rfl, .inr ⟨_, _, rfl, rfl⟩⟩ .nil⟩⟩ .nil

/-- The scanner of a daemon with some `daemon.json`. -/
def scannerOf (raw : Str) : DockerScanner :=
  .new keepingSdk (DockerSnapshot.builder.reachable.daemonJson raw).build
    ⟨⟨20, 10, 0⟩, ⟨24, 0, 0⟩, [⟨"live-restore".toList, .enabled⟩]⟩

theorem secret_values_do_not_show_token :
    (scannerOf tokenJson).evaluate daemonHardeningRule =
        (scannerOf otherTokenJson).evaluate daemonHardeningRule ∧
      List.Forall₂ SameRecord (scannerOf tokenJson).evidenceLog
        (scannerOf otherTokenJson).evidenceLog := by
  have hparse : JsonParser.parse otherTokenJson = some (.object (tokenMembers ['b'])) := by cbv
  have hshown := (secret_values_do_not_show keepingSdk_redacts).1
    DockerSnapshot.builder.reachable
    ⟨⟨20, 10, 0⟩, ⟨24, 0, 0⟩, [⟨"live-restore".toList, .enabled⟩]⟩ _ _ _ _ parse_tokenJson hparse
    (sameMember_tokenMembers ['a'] ['b'])
  exact ⟨hshown.1 daemonHardeningRule, hshown.2⟩

/-- **The size of a secret shows**: the builder keeps it for content it drops. -/
theorem secret_sizes_show :
    keepingSdk.Redacts ∧ ∃ entries entries',
      JsonParser.parse tokenJson = some (.object entries) ∧
      JsonParser.parse longTokenJson = some (.object entries') ∧
      List.Forall₂ SameMember entries entries' ∧
      ¬ List.Forall₂ (fun record record' => SameRecord record record' ∧
          record.sizeBytes = record'.sizeBytes)
        (scannerOf tokenJson).evidenceLog (scannerOf longTokenJson).evidenceLog := by
  have hparse : JsonParser.parse longTokenJson =
      some (.object (tokenMembers ['b', 'b'])) := by cbv
  refine ⟨keepingSdk_redacts, _, _, parse_tokenJson, hparse, sameMember_tokenMembers _ _,
    fun hsame => ?_⟩
  have hsizes : (scannerOf tokenJson).evidenceLog.map (·.sizeBytes) =
      (scannerOf longTokenJson).evidenceLog.map (·.sizeBytes) := by
    rw [← List.forall₂_eq_eq_eq, List.forall₂_map_left_iff, List.forall₂_map_right_iff]
    exact hsame.imp fun _ _ h => h.2
  exact absurd hsizes (by decide +kernel)

end SovriAgent
