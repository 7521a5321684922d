import SovriAgent.DockerScanner
import SovriAgent.SshScanner
import SovriAgent.UserScanner

/-!
# The Evidence an Evaluation Cites

A scanner builds its evidence when it is made, and writes the ids it cites when a rule is
evaluated. The two agree: whatever parts of a snapshot are there, an evaluation cites only
evidence whose builder was given an id, a locator and a key that are not blank, and such
evidence is in the log.

## Main results

* `SystemScanner.cited`, `UserScanner.cited`, `DockerScanner.cited`, `SshScanner.cited`: what a
  scanner cites was given to the builder.
* `cited_evidence_resolves`: every id an evaluation cites is the id of a record in the log of
  its scanner.
-/

namespace SovriAgent

/-! ### Citations -/

/-- Evidence the builder does not refuse. -/
structure EvidenceBuilder.Complete (builder : EvidenceBuilder) : Prop where
  id : NonBlank builder.id
  locator : NonBlank builder.locator
  key : ∀ key, builder.key = some key → NonBlank key

/-- Evidence without a key is complete if its id and locator are not blank. -/
theorem complete_of_keyless {id locator content : Str} {kind : EvidenceKind}
    {classification : Option EvidenceClassification} (hid : NonBlank id)
    (hlocator : NonBlank locator) :
    EvidenceBuilder.Complete ⟨id, kind, locator, none, classification, content⟩ :=
  ⟨hid, hlocator, nofun⟩

/-- An id is that of complete evidence. -/
def Supports (builders : List EvidenceBuilder) (id : Str) : Prop :=
  ∃ builder ∈ builders, builder.Complete ∧ builder.id = id

/-- Every id an answer cites is that of complete evidence. -/
def Cited (builders : List EvidenceBuilder) (answer : Answer) : Prop :=
  ∀ evaluation, answer = .ok evaluation →
    ∀ ref ∈ evaluation.evidenceRefs, Supports builders ref

/-- Complete evidence is built, and recorded under its id. -/
theorem EvidenceSdk.Builds.resolves {sdk : EvidenceSdk} (hsdk : sdk.Builds)
    {builders : List EvidenceBuilder} {answer : Answer} (h : Cited builders answer) :
    Resolves answer (sdk.collect builders) := by
  intro evaluation hevaluation ref href
  obtain ⟨builder, hbuilder, hcomplete, rfl⟩ := h evaluation hevaluation ref href
  obtain ⟨record, hrecord⟩ :=
    hsdk.succeeds builder hcomplete.id hcomplete.locator hcomplete.key
  exact ⟨record, List.mem_filterMap.mpr ⟨builder, hbuilder, hrecord⟩, hsdk.id _ _ hrecord⟩

variable {builders : List EvidenceBuilder}

/-- A rule that could not be evaluated cites nothing. -/
theorem cited_error (failure : ExecutionFailure) : Cited builders (.error failure) := by
  intro evaluation h
  cases h

/-- An evaluation cites evidence if every reference is supported. -/
theorem cited_ok {evaluation : Evaluation}
    (h : ∀ ref ∈ evaluation.evidenceRefs, Supports builders ref) :
    Cited builders (.ok evaluation) := by
  intro _ heq
  cases heq
  exact h

/-- An evaluation without references. -/
theorem cited_nil {evaluation : Evaluation} (h : evaluation.evidenceRefs = []) :
    Cited builders (.ok evaluation) :=
  cited_ok fun _ href => absurd (h ▸ href) List.not_mem_nil

/-- An evaluation with one reference. -/
theorem cited_singleton {evaluation : Evaluation} {id : Str} (h : evaluation.evidenceRefs = [id])
    (hid : Supports builders id) : Cited builders (.ok evaluation) := by
  refine cited_ok fun ref href => ?_
  rw [h, List.mem_singleton] at href
  exact href ▸ hid

/-- An evaluation with a reference for each of some items. -/
theorem cited_map {α : Type} {evaluation : Evaluation} {items : List α} {id : α → Str}
    (h : evaluation.evidenceRefs = items.map id)
    (hid : ∀ item ∈ items, Supports builders (id item)) :
    Cited builders (.ok evaluation) := by
  refine cited_ok fun ref href => ?_
  rw [h] at href
  obtain ⟨item, hitem, rfl⟩ := List.mem_map.mp href
  exact hid item hitem

/-- What is cited after a step that may fail. -/
theorem cited_bind {α : Type} {step : Except ExecutionFailure α} {rest : α → Answer}
    (h : ∀ value, step = .ok value → Cited builders (rest value)) :
    Cited builders (step >>= rest) := by
  cases hstep : step with
  | error failure => exact cited_error failure
  | ok value => exact h value hstep

/-! ### Texts that are not blank -/

/-- A text with a character that is no white space is not blank. -/
theorem nonBlank_of_mem {text : Str} {c : Char} (hmem : c ∈ text) (hc : isWhitespace c = false) :
    NonBlank text := by
  intro htrim
  have hreversed := List.dropWhile_eq_nil_iff.mp (List.reverse_eq_nil_iff.mp htrim)
  cases hdrop : text.dropWhile isWhitespace with
  | nil => exact absurd (List.dropWhile_eq_nil_iff.mp hdrop c hmem) (by simp [hc])
  | cons first rest =>
      have hfirst := List.head_dropWhile_not isWhitespace (hdrop ▸ List.cons_ne_nil first rest)
      simp only [hdrop, List.head_cons] at hfirst
      exact absurd (hreversed first (by simp [hdrop])) (by simp [hfirst])

/-- A text that goes on with one that is not blank is not blank. -/
theorem nonBlank_append {start rest : Str} {c : Char} (hmem : c ∈ rest)
    (hc : isWhitespace c = false) : NonBlank (start ++ rest) :=
  nonBlank_of_mem (List.mem_append_right _ hmem) hc

/-- A text that starts with one that is not blank is not blank. -/
theorem nonBlank_prefix {start rest : Str} {c : Char} (hmem : c ∈ start)
    (hc : isWhitespace c = false) : NonBlank (start ++ rest) :=
  nonBlank_of_mem (List.mem_append_left _ hmem) hc

/-! ### The system scanner -/

/-- A readable os-release is evidence. -/
theorem osReleaseBuilder_supports {snapshot : SystemSnapshot} {id : Str}
    {versionId : Option Str} {raw : Str} (h : snapshot.osRelease = .readable id versionId raw) :
    Supports (systemEvidence snapshot) osReleaseEvidenceId := by
  rw [systemEvidence, h]
  exact ⟨_, List.mem_cons_self, complete_of_keyless (by decide) (by decide), rfl⟩

/-- The inventory of a selected manager is evidence. -/
theorem inventoryBuilder_supports {snapshot : SystemSnapshot} {manager : Manager}
    (h : selectManager snapshot = some manager) :
    Supports (systemEvidence snapshot) packageInventoryEvidenceId := by
  have hcommand : NonBlank manager.inventoryCommand := by cases manager <;> decide
  rw [systemEvidence, inventoryBuilder, h]
  exact ⟨_, List.mem_append_right _ List.mem_cons_self,
    complete_of_keyless (by decide) hcommand, rfl⟩

namespace SystemScanner

variable {scanner : SystemScanner}

/-- A version is known of a readable os-release alone. -/
theorem readable_of_osVersion {version : Str × Str} (h : scanner.osVersion = .ok version) :
    ∃ id versionId raw, scanner.snapshot.osRelease = .readable id versionId raw := by
  rw [osVersion] at h
  cases hrelease : scanner.snapshot.osRelease with
  | unreadable => simp [hrelease, failed] at h
  | readable id versionId raw => exact ⟨id, versionId, raw, rfl⟩

/-- What the system scanner cites was given to the builder. -/
theorem cited (scanner : SystemScanner) (rule : Str) :
    Cited (systemEvidence scanner.snapshot) (scanner.evaluate rule) := by
  rw [evaluate]
  split_ifs
  · rw [evaluateOsEol]
    cases hversion : scanner.osVersion with
    | error failure => exact cited_error failure
    | ok version =>
        obtain ⟨id, versionId, raw, hrelease⟩ := readable_of_osVersion hversion
        dsimp only
        split
        · exact cited_singleton rfl (osReleaseBuilder_supports hrelease)
        · exact cited_singleton rfl (osReleaseBuilder_supports hrelease)
        · exact cited_nil rfl
  · rw [evaluateOsUndetermined]
    cases hversion : scanner.osVersion with
    | error failure => exact cited_error failure
    | ok version =>
        obtain ⟨id, versionId, raw, hrelease⟩ := readable_of_osVersion hversion
        dsimp only
        split
        · exact cited_singleton rfl (osReleaseBuilder_supports hrelease)
        · exact cited_nil rfl
  · rw [evaluatePackages]
    split
    · next hselected =>
        obtain ⟨manager, hmanager⟩ := Option.isSome_iff_exists.mp hselected
        exact cited_singleton rfl (inventoryBuilder_supports hmanager)
    · exact cited_error _
  · rw [evaluateServices]
    split
    · exact cited_nil rfl
    · dsimp only
      split <;> exact cited_nil rfl
  · exact cited_error _

end SystemScanner

/-! ### The user scanner -/

/-- Every account is evidence. -/
theorem accountBuilder_supports {snapshot : UserSnapshot} {account : Account}
    (h : account ∈ snapshot.accounts) :
    Supports (userEvidence snapshot) (accountEvidenceId account.name) := by
  have hpasswd : NonBlank passwdLocator := by decide
  refine ⟨accountBuilder account, ?_, ⟨?_, hpasswd, ?_⟩, rfl⟩
  · exact List.mem_append_left _ (List.mem_flatMap.mpr ⟨account, h, List.mem_cons_self⟩)
  · exact nonBlank_prefix (c := 'h') (by decide) (by decide)
  · rintro _ ⟨⟩
    exact nonBlank_append (c := ')') (by decide) (by decide)

/-- Every privileged account is evidence. -/
theorem privilegedBuilder_supports {snapshot : UserSnapshot} {grant : Str × GrantSource}
    (h : grant ∈ snapshotPrivileged snapshot) :
    Supports (userEvidence snapshot) (privilegedEvidenceId grant.1) := by
  have hlocator : NonBlank grant.2.locator := by cases grant.2 <;> decide
  refine ⟨privilegedBuilder grant, ?_, ⟨?_, hlocator, ?_⟩, rfl⟩
  · exact List.mem_append_right _ (List.mem_map_of_mem h)
  · exact nonBlank_prefix (c := 'h') (by decide) (by decide)
  · rintro _ ⟨⟩
    exact nonBlank_prefix (List.mem_append_right _ (by decide : 'v' ∈ " via ".toList)) (by decide)

namespace UserScanner

/-- What the user scanner cites was given to the builder. -/
theorem cited (scanner : UserScanner) (rule : Str) :
    Cited (userEvidence scanner.snapshot) (scanner.evaluate rule) := by
  have haccounts : ∀ (accounts : List Account), accounts ⊆ scanner.snapshot.accounts →
      ∀ account ∈ accounts, Supports (userEvidence scanner.snapshot)
        (accountEvidenceId account.name) :=
    fun accounts hsubset account hmem => accountBuilder_supports (hsubset hmem)
  rw [evaluate]
  split_ifs
  · exact cited_map rfl (haccounts _ (List.Subset.refl _))
  · rw [evaluateSingleRoot]
    split
    · exact cited_nil rfl
    · exact cited_map rfl (haccounts _ (List.filter_subset_self _))
  · rw [evaluateNoEmptyPassword]
    split
    · dsimp only
      split
      · exact cited_nil rfl
      · exact cited_map rfl (haccounts _ (List.filter_subset_self _))
    · exact cited_error _
  · rw [evaluateDormant]
    split
    · exact cited_nil rfl
    · refine cited_map rfl fun finding hfinding => ?_
      obtain ⟨account, hmem, hdormant⟩ := List.mem_filterMap.mp hfinding
      rw [dormantFinding] at hdormant
      split at hdormant
      · obtain ⟨entry, -, hdormant⟩ := Option.bind_eq_some_iff.mp hdormant
        obtain ⟨reason, -, rfl⟩ := Option.map_eq_some_iff.mp hdormant
        exact accountBuilder_supports hmem
      · cases hdormant
  · rw [evaluatePrivileged]
    split <;> exact cited_map rfl fun grant hgrant => privilegedBuilder_supports hgrant
  · exact cited_error _

end UserScanner

/-! ### The Docker scanner -/

/-- The flags of a daemon that responds are evidence. -/
theorem effectiveInfoBuilder_supports {snapshot : DockerSnapshot} {policy : DockerPolicy}
    (h : snapshot.daemon = .reachable) :
    Supports (dockerEvidence snapshot policy) effectiveInfoEvidenceId := by
  rw [dockerEvidence, if_pos h]
  exact ⟨_, List.mem_cons_self, complete_of_keyless (by decide) (by decide), rfl⟩

/-- A configuration of `daemon.json` comes with the evidence of the file. -/
theorem daemonJsonBuilder_supports {snapshot : DockerSnapshot} {policy : DockerPolicy}
    {config : DaemonConfig} (h : snapshot.daemon = .reachable)
    (hconfig : snapshot.config = some config) (horigin : snapshot.origin = .daemonJson) :
    Supports (dockerEvidence snapshot policy) daemonJsonEvidenceId := by
  rw [dockerEvidence, if_pos h, configEvidence, if_pos (snapshot.present_of_origin horigin),
    hconfig]
  exact ⟨daemonJsonBuilder config policy, List.mem_cons_of_mem _ List.mem_cons_self,
    complete_of_keyless (by decide) (by decide), rfl⟩

namespace DockerScanner

variable {scanner : DockerScanner}

/-- The flags of a daemon that responds can be cited. -/
theorem cited_commandAnchored (h : scanner.snapshot.daemon = .reachable) (evaluation : Evaluation) :
    Cited (dockerEvidence scanner.snapshot scanner.policy)
      (.ok (commandAnchored evaluation)) :=
  cited_singleton rfl (effectiveInfoBuilder_supports h)

/-- A configuration that is required is the captured one. -/
theorem config_of_requireConfig {config : DaemonConfig} (h : scanner.requireConfig = .ok config) :
    scanner.snapshot.config = some config := by
  rw [requireConfig] at h
  cases hconfig : scanner.snapshot.config with
  | none => simp [hconfig, failed] at h
  | some found =>
      rw [hconfig] at h
      cases h
      rfl

/-- An evaluation of the configuration cites where the configuration comes from. -/
theorem cited_configAnchored (h : scanner.snapshot.daemon = .reachable) {config : DaemonConfig}
    (hconfig : scanner.requireConfig = .ok config) (evaluation : Evaluation) :
    Cited (dockerEvidence scanner.snapshot scanner.policy)
      (.ok (scanner.configAnchored evaluation)) := by
  rw [configAnchored]
  cases horigin : scanner.snapshot.origin with
  | daemonJson =>
      exact cited_singleton rfl
        (daemonJsonBuilder_supports h (config_of_requireConfig hconfig) horigin)
  | dockerInfo => exact cited_singleton rfl (effectiveInfoBuilder_supports h)

/-- What the Docker scanner cites was given to the builder. -/
theorem cited (scanner : DockerScanner) (rule : Str) :
    Cited (dockerEvidence scanner.snapshot scanner.policy) (scanner.evaluate rule) := by
  rw [evaluate]
  cases hdaemon : scanner.snapshot.daemon with
  | absent => exact cited_nil rfl
  | unreachable reason => exact cited_nil rfl
  | reachable =>
      dsimp only
      split_ifs
      · refine cited_bind fun version _ => ?_
        split <;> exact cited_commandAnchored hdaemon _
      · refine cited_bind fun version _ => ?_
        split <;> exact cited_commandAnchored hdaemon _
      · refine cited_bind fun config hconfig => ?_
        split <;> exact cited_configAnchored hdaemon hconfig _
      · refine cited_bind fun config hconfig => ?_
        dsimp only
        split <;> exact cited_configAnchored hdaemon hconfig _
      · refine cited_bind fun config hconfig => ?_
        split <;> exact cited_configAnchored hdaemon hconfig _
      · exact cited_error _

end DockerScanner

/-! ### The SSH scanner -/

namespace SshScanner

variable {scanner : SshScanner}

/-- Every evaluation of the configuration cites its evidence, if there is a configuration. -/
theorem cited_anchored {evaluation : Evaluation} (h : evaluation.evidenceRefs = []) :
    Cited (configurationBuilder scanner.snapshot).toList (.ok (scanner.anchored evaluation)) := by
  rw [anchored, evidenceId, configurationBuilder]
  cases scanner.snapshot.source with
  | effectiveDump =>
      exact cited_singleton rfl
        ⟨_, List.mem_cons_self, complete_of_keyless (by decide) (by decide), rfl⟩
  | parsedFallback =>
      exact cited_singleton rfl
        ⟨_, List.mem_cons_self, complete_of_keyless (by decide) (by decide), rfl⟩
  | unassessable => exact cited_nil h
  | absent => exact cited_nil h

/-- What the SSH scanner cites was given to the builder. -/
theorem cited (scanner : SshScanner) (rule : Str) :
    Cited (configurationBuilder scanner.snapshot).toList (scanner.evaluate rule) := by
  rw [evaluate]
  split
  · exact cited_nil rfl
  · exact cited_error _
  · split_ifs
    · refine cited_bind fun value _ => ?_
      split <;> exact cited_anchored rfl
    · refine cited_bind fun value _ => ?_
      split <;> exact cited_anchored rfl
    · refine cited_bind fun value _ => ?_
      split <;> exact cited_anchored rfl
    · rw [evaluateWeakCrypto]
      split_ifs
      · exact cited_anchored rfl
      · exact cited_error _
      · exact cited_anchored rfl
    · rw [evaluateProtocolV1]
      split_ifs
      · exact cited_anchored rfl
      · exact cited_error _
      · exact cited_anchored rfl
    · exact cited_error _

end SshScanner

/-! ### All scanners -/

/-- Every evidence id an evaluation cites is the id of a record in the log of its scanner, for
every snapshot, policy and rule. -/
theorem cited_evidence_resolves {sdk : EvidenceSdk} (hsdk : sdk.Builds) (rule : Str) :
    (∀ snapshot policy, Resolves ((SystemScanner.new sdk snapshot policy).evaluate rule)
      (SystemScanner.new sdk snapshot policy).evidenceLog) ∧
    (∀ snapshot policy, Resolves ((UserScanner.new sdk snapshot policy).evaluate rule)
      (UserScanner.new sdk snapshot policy).evidenceLog) ∧
    (∀ snapshot policy, Resolves ((DockerScanner.new sdk snapshot policy).evaluate rule)
      (DockerScanner.new sdk snapshot policy).evidenceLog) ∧
    (∀ snapshot policy, Resolves ((SshScanner.new sdk snapshot policy).evaluate rule)
      (SshScanner.new sdk snapshot policy).evidenceLog) :=
  ⟨fun snapshot policy => hsdk.resolves (SystemScanner.cited (.new sdk snapshot policy) rule),
    fun snapshot policy => hsdk.resolves (UserScanner.cited (.new sdk snapshot policy) rule),
    fun snapshot policy => hsdk.resolves (DockerScanner.cited (.new sdk snapshot policy) rule),
    fun snapshot policy => hsdk.resolves (SshScanner.cited (.new sdk snapshot policy) rule)⟩

/-- A host with one account. -/
def rootSnapshot : UserSnapshot :=
  .acquire "root:x:0:0:root:/root:/bin/sh".toList none

theorem cited_evidence_resolves_root :
    (UserScanner.new keepingSdk rootSnapshot ⟨90, []⟩).evaluate inventoryRule =
        .ok (Evaluation.satisfied.withEvidenceRefs ["host.account.root".toList]) ∧
      Resolves ((UserScanner.new keepingSdk rootSnapshot ⟨90, []⟩).evaluate inventoryRule)
        (UserScanner.new keepingSdk rootSnapshot ⟨90, []⟩).evidenceLog :=
  ⟨rfl, (cited_evidence_resolves keepingSdk_builds inventoryRule).2.1 rootSnapshot ⟨90, []⟩⟩

end SovriAgent
