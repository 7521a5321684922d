import SovriAgent.ScanRun

/-!
# The Evidence of Scans

The evidence the results of a scan cite was collected by its scanners. A store that the evidence
is persisted to holds its digests from then on, whatever scans come after, and a scan that is
repeated on an unchanged host adds nothing to it.

## Main results

* `stored_of_scans`: what the stores hold after any scans.
* `cited_evidence_survives`: the evidence the results of a scan cite.
* `rescans_report_alike`: a scan that is repeated.
-/

namespace SovriAgent

namespace ScanCommand

variable {sdk : ScanSdk} {args : List Str} {config : ScanConfig} {catalog : sdk.CatalogData}
  {selection : Selection}

/-! ### Evidence -/

/-- Persisting evidence keeps what the stores hold. -/
theorem stored_persistOutcome (hstore : sdk.Accumulates) {disk : sdk.Disk} {dir digest : Str}
    (h : sdk.Stored disk dir digest) (evidenceStore : Option Str) (evidence : List StoredEvidence)
    (outcome : ScanOutcome) :
    sdk.Stored (persistOutcome sdk disk evidenceStore evidence outcome).2 dir digest := by
  obtain ⟨store, hopened, hheld⟩ := h
  rcases evidenceStore with _ | dir'
  · exact ⟨store, hopened, hheld⟩
  rcases hpersist : persistEvidence sdk.store (disk dir') evidence with e | ⟨stored, after⟩
  · rw [persistOutcome_error hpersist]
    by_cases hdir : dir = dir'
    · subst hdir
      refine ⟨sdk.afterFailedWrite store evidence, ?_, hstore.failed store evidence digest hheld⟩
      exact (Function.update_self dir _ disk).trans (by rw [hopened]; rfl)
    · exact ⟨store, (Function.update_of_ne hdir _ disk).trans hopened, hheld⟩
  · rw [persistOutcome_ok hpersist]
    by_cases hdir : dir = dir'
    · subst hdir
      obtain ⟨before, hbefore, hwrite, -⟩ := persistEvidence_ok_iff.mp hpersist
      rw [hopened] at hbefore
      cases hbefore
      exact ⟨after, Function.update_self dir _ disk,
        (hstore.written store evidence after hwrite digest).mpr (.inl hheld)⟩
    · exact ⟨store, (Function.update_of_ne hdir _ disk).trans hopened, hheld⟩

/-- **One scan** keeps what the stores hold. -/
theorem stored_run (hsdk : sdk.Executes) (hstore : sdk.Accumulates) {disk : sdk.Disk}
    {dir digest : Str} (h : sdk.Stored disk dir digest) (host : Host) (args : List Str) :
    sdk.Stored (run sdk host disk args).2 dir digest := by
  rcases plans_or_refused sdk args with ⟨config, catalog, selection, hplans⟩ | ⟨console, -, hrun⟩
  · rcases hhost : hostRegistry sdk.evidence host with e | ⟨registry, evidence⟩
    · rw [hplans.run_of_unread hhost]
      exact h
    · obtain ⟨outcome, -, hscan, -, -⟩ := hplans.runScan_ok hsdk registry.evaluate
      rw [hplans.run_of_scanned hhost hscan]
      exact stored_persistOutcome hstore h config.evidenceStore evidence outcome
  · rw [hrun host disk]
    exact h

/-- The stores after one more scan, of any host and with any arguments. -/
def ScanSdk.Step (sdk : ScanSdk) (disk disk' : sdk.Disk) : Prop :=
  ∃ host args, disk' = (run sdk host disk args).2

/-- **Any scans** keep what the stores hold. -/
theorem stored_of_scans (hsdk : sdk.Executes) (hstore : sdk.Accumulates) {disk disk' : sdk.Disk}
    {dir digest : Str} (hscans : Relation.ReflTransGen sdk.Step disk disk')
    (h : sdk.Stored disk dir digest) : sdk.Stored disk' dir digest := by
  induction hscans with
  | refl => exact h
  | tail _ hstep ih =>
      obtain ⟨host, args, rfl⟩ := hstep
      exact stored_run hsdk hstore ih host args

/-- A scan that reports no error persisted its evidence. -/
theorem stored_of_persistOutcome (hstore : sdk.Accumulates) {disk : sdk.Disk} {dir : Str}
    {evidence : List StoredEvidence} {outcome : ScanOutcome}
    (hprinted : (consoleOf (persistOutcome sdk disk (some dir) evidence outcome).1).stderr = [])
    {record : StoredEvidence} (hrecord : record ∈ evidence) :
    sdk.Stored (persistOutcome sdk disk (some dir) evidence outcome).2 dir
      record.contentHash := by
  rcases hpersist : persistEvidence sdk.store (disk dir) evidence with e | ⟨stored, store⟩
  · rw [persistOutcome_error hpersist] at hprinted
    exact absurd hprinted (List.append_ne_nil_of_right_ne_nil _ (List.cons_ne_nil _ _))
  · obtain ⟨before, -, hwrite, -⟩ := persistEvidence_ok_iff.mp hpersist
    rw [persistOutcome_ok hpersist]
    exact ⟨store, Function.update_self dir _ disk,
      (hstore.written before evidence store hwrite _).mpr (.inr ⟨record, hrecord, rfl⟩)⟩

/-- **The evidence of a scan survives**: every evidence id that a result of a scan cites is the id
of a record its scanners collected, and if the scan was asked to persist the evidence and reports
no error, the store of the scan holds the digest of that record, also after any later scans of any
hosts, whether they fail or not. -/
theorem cited_evidence_survives (hsdk : sdk.Executes) (hbuilds : sdk.evidence.Builds)
    (hstore : sdk.Accumulates) (h : Plans sdk args config catalog selection) {host : Host}
    {registry : Registry} {evidence : List StoredEvidence} {outcome : ScanOutcome}
    (hhost : hostRegistry sdk.evidence host = .ok (registry, evidence))
    (hscan : runScan sdk catalog selection registry.evaluate config.failOn scanExecutedAt =
      .ok outcome) :
    ∀ result ∈ outcome.results, ∀ ref ∈ result.evidenceRefs, ∃ record ∈ evidence,
      record.id = ref ∧ ∀ dir disk disk', config.evidenceStore = some dir →
        (run sdk host disk args).1.stderr = [] →
        Relation.ReflTransGen sdk.Step (run sdk host disk args).2 disk' →
        sdk.Stored disk' dir record.contentHash := by
  intro result hresult ref href
  obtain ⟨outcome', engine, hscan', hresults, -⟩ := h.runScan_ok hsdk registry.evaluate
  rw [hscan] at hscan'
  cases hscan'
  obtain ⟨evaluation, hevaluation, hcited⟩ := hsdk.cites _ _ _ _ _ hresults result hresult ref href
  obtain ⟨record, hrecord, hid⟩ :=
    hostRegistry_resolves hbuilds hhost result.ruleId evaluation hevaluation ref hcited
  refine ⟨record, hrecord, hid, fun dir disk disk' hdir hprinted hscans => ?_⟩
  refine stored_of_scans hsdk hstore hscans ?_
  rw [h.run_of_scanned hhost hscan, hdir] at hprinted ⊢
  exact stored_of_persistOutcome hstore hprinted hrecord

theorem cited_evidence_survives_framework :
    ∃ record ∈ sshEvidence, record.id = effectiveConfigEvidenceId ∧
      plainScanSdk.Stored (run plainScanSdk sshHost noStores frameworkArgs).2 "evidence".toList
        record.contentHash := by
  obtain ⟨record, hrecord, hid, hstored⟩ :=
    cited_evidence_survives plainScanSdk_executes keepingSdk_builds plainScanSdk_accumulates
      plans_frameworkArgs hostRegistry_sshHost runScan_sshHost
      (plainResult sshRegistry.evaluate ("host.ssh.root-access".toList, permitRootLoginRule))
      List.mem_cons_self effectiveConfigEvidenceId List.mem_cons_self
  exact ⟨record, hrecord, hid, hstored _ _ _ rfl rfl .refl⟩

/-! ### Repeated scans -/

/-- The digests of a store after evidence is written to it, as a set. -/
theorem entryCount_of_written (hstore : sdk.Accumulates) {store store' : sdk.store.Store}
    (hsame : ∀ digest, (sdk.store.resolveDigest store' digest).isSome ↔
      (sdk.store.resolveDigest store digest).isSome) :
    sdk.store.entryCount store' = sdk.store.entryCount store := by
  obtain ⟨digests, hdigests, hcount⟩ := hstore.counted store
  obtain ⟨digests', hdigests', hcount'⟩ := hstore.counted store'
  rw [hcount, hcount', show digests' = digests from Finset.ext fun digest =>
    (hdigests' digest).trans ((hsame digest).trans (hdigests digest).symm)]

/-- Persisting evidence once more prints the same, and adds nothing. -/
theorem persistOutcome_again (hstore : sdk.Accumulates) {disk : sdk.Disk}
    {evidenceStore : Option Str} {evidence : List StoredEvidence} {outcome : ScanOutcome}
    (hfirst : (consoleOf (persistOutcome sdk disk evidenceStore evidence outcome).1).stderr = [])
    (hsecond : (consoleOf (persistOutcome sdk
      (persistOutcome sdk disk evidenceStore evidence outcome).2 evidenceStore evidence
      outcome).1).stderr = []) :
    (persistOutcome sdk (persistOutcome sdk disk evidenceStore evidence outcome).2 evidenceStore
        evidence outcome).1 = (persistOutcome sdk disk evidenceStore evidence outcome).1 ∧
      ∀ dir digest, sdk.Stored (persistOutcome sdk
        (persistOutcome sdk disk evidenceStore evidence outcome).2 evidenceStore evidence
        outcome).2 dir digest ↔
          sdk.Stored (persistOutcome sdk disk evidenceStore evidence outcome).2 dir digest := by
  have hfailed : ∀ e : ScanError, (consoleOf (.error e)).stderr ≠ [] := fun _ =>
    List.append_ne_nil_of_right_ne_nil _ (List.cons_ne_nil _ _)
  rcases evidenceStore with _ | dir
  · exact ⟨rfl, fun _ _ => Iff.rfl⟩
  rcases hpersist : persistEvidence sdk.store (disk dir) evidence with e | ⟨stored, store⟩
  · rw [persistOutcome_error hpersist] at hfirst
    exact absurd hfirst (hfailed _)
  rw [persistOutcome_ok hpersist] at hsecond ⊢
  dsimp only at hsecond ⊢
  rcases hpersist' : persistEvidence sdk.store (Function.update disk dir (.ok store) dir) evidence
    with e | ⟨stored', store'⟩
  · rw [persistOutcome_error hpersist'] at hsecond
    exact absurd hsecond (hfailed _)
  rw [persistOutcome_ok hpersist']
  obtain ⟨before, -, hwrite, rfl⟩ := persistEvidence_ok_iff.mp hpersist
  obtain ⟨before', hbefore', hwrite', rfl⟩ := persistEvidence_ok_iff.mp hpersist'
  rw [Function.update_self] at hbefore'
  cases hbefore'
  have hsame : ∀ digest, (sdk.store.resolveDigest store' digest).isSome ↔
      (sdk.store.resolveDigest store digest).isSome := by
    intro digest
    rw [hstore.written store evidence store' hwrite' digest]
    refine or_iff_left_of_imp fun hrecord => ?_
    exact (hstore.written before evidence store hwrite digest).mpr (.inr hrecord)
  refine ⟨by rw [entryCount_of_written hstore hsame], fun dir' digest => ?_⟩
  by_cases hdir : dir' = dir
  · subst hdir
    simp only [ScanSdk.Stored, Function.update_self, Except.ok.injEq, exists_eq_left']
    exact hsame digest
  · simp only [ScanSdk.Stored, Function.update_of_ne hdir]

/-- A scan that is repeated once. -/
theorem rescan (hsdk : sdk.Executes) (hstore : sdk.Accumulates) {host : Host} {disk : sdk.Disk}
    (hfirst : (run sdk host disk args).1.stderr = [])
    (hsecond : (run sdk host (run sdk host disk args).2 args).1.stderr = []) :
    (run sdk host (run sdk host disk args).2 args).1 = (run sdk host disk args).1 ∧
      ∀ dir digest, sdk.Stored (run sdk host (run sdk host disk args).2 args).2 dir digest ↔
        sdk.Stored (run sdk host disk args).2 dir digest := by
  rcases plans_or_refused sdk args with ⟨config, catalog, selection, h⟩ | ⟨console, -, hrun⟩
  · rcases hhost : hostRegistry sdk.evidence host with e | ⟨registry, evidence⟩
    · rw [h.run_of_unread hhost] at hfirst
      exact absurd hfirst (List.append_ne_nil_of_right_ne_nil _ (List.cons_ne_nil _ _))
    · obtain ⟨outcome, -, hscan, -, -⟩ := h.runScan_ok hsdk registry.evaluate
      simp only [h.run_of_scanned hhost hscan] at hfirst hsecond ⊢
      obtain ⟨hconsole, hstored⟩ := persistOutcome_again hstore hfirst hsecond
      exact ⟨congrArg consoleOf hconsole, hstored⟩
  · rw [hrun host disk, hrun host disk]
    exact ⟨rfl, fun _ _ => Iff.rfl⟩

/-- **A scan that is repeated** on an unchanged host prints the same as the first time, and after
the first time the evidence stores hold the same digests, however often it is repeated. -/
theorem rescans_report_alike (hsdk : sdk.Executes) (hstore : sdk.Accumulates) {host : Host}
    {disks : ℕ → sdk.Disk} (k : ℕ)
    (hscans : ∀ n ≤ k, disks (n + 1) = (run sdk host (disks n) args).2)
    (hprinted : ∀ n ≤ k, (run sdk host (disks n) args).1.stderr = []) :
    (run sdk host (disks k) args).1 = (run sdk host (disks 0) args).1 ∧
      ∀ dir digest, sdk.Stored (disks (k + 1)) dir digest ↔ sdk.Stored (disks 1) dir digest := by
  induction k with
  | zero => exact ⟨rfl, fun _ _ => Iff.rfl⟩
  | succ k ih =>
      obtain ⟨hsame, hkept⟩ := ih (fun n hn => hscans n (Nat.le_succ_of_le hn))
        (fun n hn => hprinted n (Nat.le_succ_of_le hn))
      have hscan := hscans k (Nat.le_succ k)
      have hsecond := hprinted (k + 1) le_rfl
      rw [hscan] at hsecond
      obtain ⟨hconsole, hstored⟩ := rescan hsdk hstore (hprinted k (Nat.le_succ k)) hsecond
      rw [← hscan] at hconsole hstored
      refine ⟨hconsole.trans hsame, fun dir digest => ?_⟩
      rw [hscans (k + 1) le_rfl]
      exact (hstored dir digest).trans (hkept dir digest)

/-- The scan, with a store it can open. -/
theorem run_sshHost {disk : plainScanSdk.Disk} {store : Keyed.Table Str StoredEvidence}
    (hstore : disk "evidence".toList = .ok store) :
    ∃ report, run plainScanSdk sshHost disk frameworkArgs =
      (⟨report, [], exitClean⟩, Function.update disk "evidence".toList
        (.ok (store.insertAll StoredEvidence.contentHash id sshEvidence))) := by
  rw [plans_frameworkArgs.run_of_scanned hostRegistry_sshHost runScan_sshHost,
    show frameworkConfig.evidenceStore = some "evidence".toList from rfl,
    persistOutcome_ok (persistEvidence_ok_iff.mpr ⟨store, hstore, rfl, rfl⟩)]
  exact ⟨_, rfl⟩

/-- The scan, repeated. -/
def repeatedScans (k : ℕ) : plainScanSdk.Disk :=
  Nat.rec noStores (fun _ disk => (run plainScanSdk sshHost disk frameworkArgs).2) k

/-- The store of the scan is opened every time. -/
theorem opened_repeatedScans (k : ℕ) :
    ∃ store : Keyed.Table Str StoredEvidence, repeatedScans k "evidence".toList = .ok store := by
  induction k with
  | zero => exact ⟨Keyed.Table.empty, rfl⟩
  | succ k ih =>
      obtain ⟨store, hstore⟩ := ih
      obtain ⟨report, hrun⟩ := run_sshHost hstore
      refine ⟨store.insertAll StoredEvidence.contentHash id sshEvidence, ?_⟩
      change (run plainScanSdk sshHost (repeatedScans k) frameworkArgs).2 "evidence".toList = _
      rw [hrun]
      exact Function.update_self "evidence".toList _ (repeatedScans k)

theorem rescans_report_alike_framework :
    (run plainScanSdk sshHost (repeatedScans 2) frameworkArgs).1 =
      (run plainScanSdk sshHost noStores frameworkArgs).1 := by
  have hprinted : ∀ n ≤ 2,
      (run plainScanSdk sshHost (repeatedScans n) frameworkArgs).1.stderr = [] := by
    intro n _
    obtain ⟨store, hstore⟩ := opened_repeatedScans n
    obtain ⟨report, hrun⟩ := run_sshHost hstore
    rw [hrun]
  have hscans : ∀ n ≤ 2, repeatedScans (n + 1) =
      (run plainScanSdk sshHost (repeatedScans n) frameworkArgs).2 := fun _ _ => rfl
  exact (rescans_report_alike plainScanSdk_executes plainScanSdk_accumulates 2 hscans hprinted).1

end ScanCommand

end SovriAgent
