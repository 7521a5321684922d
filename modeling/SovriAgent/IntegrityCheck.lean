import SovriAgent.LinkedEvidence

/-!
# What the Integrity Check Says

The check of a run looks every linked record up in the evidence store. Metadata with a digest
passes exactly when the store holds a record of its id and digest; metadata without one passes
always, since a failed lookup of its id is no error.

## Main results

* `validateLinkedEvidence_ok_iff`: the metadata that passes.
* `mismatch_differs`: a reported mismatch names two different digests.
* `integrityExact_iff`: the runs on which the check is exact.
-/

namespace SovriAgent

open Transaction Transaction.Tx

/-! ### Stores and the records they hold -/

/-- What the SDK store promises about the records it holds: one at most for each digest, which
is the one its digest resolves to, and every id that some record has resolves to such a
record. -/
structure StoreSdk.Holding (sdk : StoreSdk) (holds : sdk.Store → StoredEvidence → Prop) : Prop where
  unique : ∀ store a b, holds store a → holds store b → a.contentHash = b.contentHash → a = b
  digest : ∀ store digest record, sdk.resolveDigest store digest = some record ↔
    holds store record ∧ record.contentHash = digest
  id : ∀ store evidenceId record, sdk.resolveId store evidenceId = some record →
    holds store record ∧ record.id = evidenceId
  found : ∀ store record, holds store record →
    ∃ other, sdk.resolveId store record.id = some other

section Check

variable {sdk : StoreSdk} {holds : sdk.Store → StoredEvidence → Prop} {store : sdk.Store}

/-- The store holds a record of the id, and of the digest unless it is empty. -/
def LinkHeld (holds : sdk.Store → StoredEvidence → Prop) (store : sdk.Store)
    (evidenceId digest : Str) : Prop :=
  ∃ record, holds store record ∧ record.id = evidenceId ∧
    (digest ≠ [] → record.contentHash = digest)

/-- **Metadata passes** if it has no digest or the store holds its record. -/
theorem validateLinkedEvidence_ok_iff (hsdk : sdk.Holding holds)
    (metadata : LocalDatabaseEvidence) :
    (∃ answer, validateLinkedEvidence sdk store metadata = .ok answer) ↔
      metadata.digest = [] ∨ LinkHeld holds store metadata.id metadata.digest := by
  rw [validateLinkedEvidence]
  by_cases hempty : metadata.digest = []
  · rw [if_pos hempty]
    exact iff_of_true ⟨_, rfl⟩ (.inl hempty)
  · rw [if_neg hempty, or_iff_right hempty]
    split
    · next hresolved =>
        refine iff_of_true ⟨_, rfl⟩ ?_
        cases hrecord : sdk.resolveDigest store metadata.digest with
        | none =>
            rw [hrecord] at hresolved
            cases hresolved
        | some record =>
            rw [hrecord, Option.any_some] at hresolved
            obtain ⟨hid, hdigest⟩ := of_decide_eq_true hresolved
            exact ⟨record, ((hsdk.digest store _ record).mp hrecord).1, hid, fun _ => hdigest⟩
    · next hunresolved =>
        refine iff_of_false ?_ ?_
        · cases sdk.resolveId store metadata.id <;> simp
        · rintro ⟨record, hrecord, hid, hdigest⟩
          refine hunresolved ?_
          rw [(hsdk.digest store metadata.digest record).mpr ⟨hrecord, hdigest hempty⟩]
          exact decide_eq_true ⟨hid, hdigest hempty⟩

/-- **A reported mismatch names two different digests.** -/
theorem mismatch_differs (hsdk : sdk.Holding holds) {metadata : LocalDatabaseEvidence}
    {evidenceId expected actual : Str}
    (h : validateLinkedEvidence sdk store metadata =
      .error (.integrityMismatch evidenceId expected actual)) : expected ≠ actual := by
  rw [validateLinkedEvidence] at h
  split at h
  · cases h
  · split at h
    · cases h
    · next hunresolved =>
        split at h
        · cases h
        · next record hrecord =>
            injection h with h
            injection h with hid hexpected hactual
            obtain ⟨hheld, hrecordId⟩ := hsdk.id store _ record hrecord
            rintro rfl
            refine hunresolved ?_
            rw [(hsdk.digest store metadata.digest record).mpr ⟨hheld, hactual.trans hexpected.symm⟩]
            exact decide_eq_true ⟨hrecordId, hactual.trans hexpected.symm⟩

/-- What the check of a list fails with is what it fails with on one of its records. -/
theorem exists_of_validateAll_error {evidence : List LocalDatabaseEvidence}
    {e : LocalDatabaseError} (h : validateAll sdk store evidence = .error e) :
    ∃ metadata ∈ evidence, validateLinkedEvidence sdk store metadata = .error e := by
  induction evidence with
  | nil => cases h
  | cons metadata rest ih =>
      rw [validateAll] at h
      split at h
      · next e' hfailed =>
          injection h with h
          exact ⟨metadata, List.mem_cons_self, h ▸ hfailed⟩
      · obtain ⟨found, hmem, hfound⟩ := ih h
        exact ⟨found, List.mem_cons_of_mem _ hmem, hfound⟩

end Check

/-! ### The check of a run -/

/-- The metadata linked to a run is that of its rows. -/
theorem mem_linkedMetadata_iff {runId : Str} {db : Db} {metadata : LocalDatabaseEvidence} :
    metadata ∈ linkedMetadata runId db ↔
      ∃ evidenceId row, db.runEvidenceLinks.get (runId, evidenceId) = some row ∧
        metadata = ⟨evidenceId, row.digest, row.locator, row.classification⟩ := by
  rw [linkedMetadata, (orderBy_perm _ _).mem_iff, List.mem_map]
  constructor
  · rintro ⟨⟨⟨_, evidenceId⟩, row⟩, hmem, rfl⟩
    obtain ⟨hrow, hrun⟩ := List.mem_filter.mp hmem
    obtain rfl := of_decide_eq_true hrun
    exact ⟨evidenceId, row, Keyed.Table.mem_rows_iff.mp hrow, rfl⟩
  · rintro ⟨evidenceId, row, hget, rfl⟩
    exact ⟨((runId, evidenceId), row), List.mem_filter.mpr
      ⟨Keyed.Table.mem_rows_iff.mpr hget, decide_eq_true rfl⟩, rfl⟩

/-- The check of a run is exact: it passes if and only if the store holds the record of every
link, and a mismatch it reports names two different digests. -/
structure IntegrityExact (sdk : StoreSdk) (holds : sdk.Store → StoredEvidence → Prop)
    (store : sdk.Store) (runId : Str) (db : Db) : Prop where
  ok_iff : (validateCorpusReconstruction sdk store runId).answer (fun _ => false) db = .ok () ↔
    ∀ evidenceId row, db.runEvidenceLinks.get (runId, evidenceId) = some row →
      LinkHeld holds store evidenceId row.digest
  differs : ∀ evidenceId expected actual,
    (validateCorpusReconstruction sdk store runId).answer (fun _ => false) db =
      .error (.integrityMismatch evidenceId expected actual) → expected ≠ actual

/-- **The check of a run is exact** if the store holds a record for every link without a digest,
or misses that of some link with one. -/
theorem integrityExact_iff {sdk : StoreSdk} {holds : sdk.Store → StoredEvidence → Prop}
    (hsdk : sdk.Holding holds) {db : Db} (hreach : Relation.ReflTransGen AcceptedStep freshDb db)
    (store : sdk.Store) (runId : Str) :
    IntegrityExact sdk holds store runId db ↔
      (∀ evidenceId row, db.runEvidenceLinks.get (runId, evidenceId) = some row →
        row.digest = [] → LinkHeld holds store evidenceId row.digest) ∨
      ∃ evidenceId row, db.runEvidenceLinks.get (runId, evidenceId) = some row ∧
        row.digest ≠ [] ∧ ¬ LinkHeld holds store evidenceId row.digest := by
  have hshape := (wellFormed_of_reachable hreach).toCurrentShape
  have hanswers : (ask (columnsOf .runEvidenceLinks
      [.runId, .evidenceId, .digest, .locator, .classification])
      (linkedMetadata runId)).Answers db (linkedMetadata runId db) :=
    answers_ask hshape _ (by decide)
  have hcheck : (validateCorpusReconstruction sdk store runId).answer (fun _ => false) db =
      validateAll sdk store (linkedMetadata runId db) := by
    rw [validateCorpusReconstruction, hanswers.answer_lift]
  have hpasses : validateAll sdk store (linkedMetadata runId db) = .ok () ↔
      ∀ evidenceId row, db.runEvidenceLinks.get (runId, evidenceId) = some row →
        row.digest = [] ∨ LinkHeld holds store evidenceId row.digest := by
    rw [validateAll_ok_iff]
    constructor
    · intro hall evidenceId row hget
      exact (validateLinkedEvidence_ok_iff hsdk _).mp
        (hall _ (mem_linkedMetadata_iff.mpr ⟨evidenceId, row, hget, rfl⟩))
    · intro hall metadata hmem
      obtain ⟨evidenceId, row, hget, rfl⟩ := mem_linkedMetadata_iff.mp hmem
      exact (validateLinkedEvidence_ok_iff hsdk _).mpr (hall evidenceId row hget)
  constructor
  · intro hexact
    by_contra hnot
    obtain ⟨hmissing, hheld⟩ := not_or.mp hnot
    refine hmissing fun evidenceId row hget _ => hexact.ok_iff.mp ?_ evidenceId row hget
    rw [hcheck, hpasses]
    intro evidenceId row hget
    by_cases hempty : row.digest = []
    · exact .inl hempty
    · refine .inr ?_
      by_contra hunheld
      exact hheld ⟨evidenceId, row, hget, hempty, hunheld⟩
  · intro hwhen
    refine ⟨?_, ?_⟩
    · rw [hcheck, hpasses]
      constructor
      · intro hall evidenceId row hget
        rcases hwhen with hempty | ⟨otherId, other, hother, hdigest, hunheld⟩
        · rcases hall evidenceId row hget with hdigest | hheld
          · exact hempty evidenceId row hget hdigest
          · exact hheld
        · rcases hall otherId other hother with hnone | hheld
          · exact absurd hnone hdigest
          · exact absurd hheld hunheld
      · exact fun hall evidenceId row hget => .inr (hall evidenceId row hget)
    · intro evidenceId expected actual hmismatch
      rw [hcheck] at hmismatch
      obtain ⟨metadata, -, hfailed⟩ := exists_of_validateAll_error hmismatch
      exact mismatch_differs hsdk hfailed

/-! ### A store of records -/

/-- Records with different digests. -/
abbrev DistinctRecords :=
  { records : List StoredEvidence // (records.map (·.contentHash)).Nodup }

/-- Adds a record unless there is one of its digest. -/
def DistinctRecords.add (store : DistinctRecords) (record : StoredEvidence) : DistinctRecords :=
  if h : record.contentHash ∈ store.1.map (·.contentHash) then store
  else ⟨record :: store.1, List.nodup_cons.mpr ⟨h, store.2⟩⟩

/-- A store that keeps the first record of each digest and answers from its list. -/
def recordStore : StoreSdk where
  Store := DistinctRecords
  empty := ⟨[], List.nodup_nil⟩
  writeAll := fun store evidence => .ok (evidence.foldl DistinctRecords.add store)
  entryCount := fun store => store.1.length
  resolveDigest := fun store digest => store.1.find? (·.contentHash = digest)
  resolveId := fun store evidenceId => store.1.find? (·.id = evidenceId)

theorem recordStore_holding :
    recordStore.Holding fun (store : DistinctRecords) record => record ∈ store.1 where
  unique store _ _ ha hb hsame := List.inj_on_of_nodup_map store.2 ha hb hsame
  digest := by
    intro store digest record
    constructor
    · intro h
      exact ⟨List.mem_of_find?_eq_some h, by simpa using List.find?_some h⟩
    · rintro ⟨hmem, rfl⟩
      have hfound : (store.1.find? (·.contentHash = record.contentHash)).isSome = true :=
        List.find?_isSome.mpr ⟨record, hmem, decide_eq_true rfl⟩
      obtain ⟨other, hother⟩ := Option.isSome_iff_exists.mp hfound
      have hsame : other.contentHash = record.contentHash := by
        simpa using List.find?_some hother
      obtain rfl := List.inj_on_of_nodup_map store.2 (List.mem_of_find?_eq_some hother) hmem hsame
      exact hother
  id store evidenceId record h := ⟨List.mem_of_find?_eq_some h, by simpa using List.find?_some h⟩
  found store record hmem :=
    Option.isSome_iff_exists.mp (List.find?_isSome.mpr
      ⟨record, hmem, decide_eq_true (rfl : record.id = record.id)⟩)

/-- A corpus with one record of evidence. -/
def heldCorpus (integrity : Str) : Corpus :=
  { (Corpus.new "now".toList).withRunId "run".toList with
    evidence := [⟨"ev".toList, "config".toList, "/etc/daemon.json".toList, integrity,
      .unclassified⟩] }

theorem heldCorpus_reachable (integrity : Str) :
    Relation.ReflTransGen AcceptedStep freshDb (written (heldCorpus integrity) freshDb) := by
  refine .single ⟨heldCorpus integrity, fun _ => false, ?_⟩
  have hrun : trim (heldCorpus integrity).runId ≠ [] := by
    change trim "run".toList ≠ []
    decide
  exact writeCompletedCorpus_accepts currentShape_freshDb hrun rfl

/-- A store with the record of a digest. -/
def daemonStore : DistinctRecords :=
  ⟨[{ id := "ev".toList, kind := .config, locator := "/etc/daemon.json".toList, key := none,
      classification := none, excerpt := none, sizeBytes := some 2,
      contentHash := "d1".toList, contentHash_ne := by decide }], by decide⟩

/-- Evidence that is in the store. -/
theorem integrityExact_iff_held :
    IntegrityExact recordStore (fun (store : DistinctRecords) record => record ∈ store.1)
      daemonStore "run".toList (written (heldCorpus "d1".toList) freshDb) := by
  refine (integrityExact_iff recordStore_holding (heldCorpus_reachable _) daemonStore _).mpr
    (.inl ?_)
  intro evidenceId row hget hempty
  have hrow := Keyed.Table.mem_rows_iff.mpr hget
  have hrows : (written (heldCorpus "d1".toList) freshDb).runEvidenceLinks.rows =
      [(("run".toList, "ev".toList), ⟨"config".toList, "d1".toList, "/etc/daemon.json".toList,
        "Unclassified".toList⟩)] := by decide +kernel
  rw [hrows, List.mem_singleton] at hrow
  rw [(Prod.mk.inj hrow).2] at hempty
  cases hempty

/-- **Evidence without a digest passes** although the store is empty. -/
theorem missing_evidence_passes :
    Relation.ReflTransGen AcceptedStep freshDb (written (heldCorpus []) freshDb) ∧
      (validateCorpusReconstruction recordStore recordStore.empty "run".toList).answer
        (fun _ => false) (written (heldCorpus []) freshDb) = .ok () ∧
      ¬ IntegrityExact recordStore (fun (store : DistinctRecords) record => record ∈ store.1)
        recordStore.empty "run".toList (written (heldCorpus []) freshDb) := by
  have hpasses : (validateCorpusReconstruction recordStore recordStore.empty "run".toList).answer
      (fun _ => false) (written (heldCorpus []) freshDb) = .ok () := by decide +kernel
  refine ⟨heldCorpus_reachable [], hpasses, fun hexact => ?_⟩
  have hget : (written (heldCorpus []) freshDb).runEvidenceLinks.get
      ("run".toList, "ev".toList) = some ⟨"config".toList, [], "/etc/daemon.json".toList,
        "Unclassified".toList⟩ := by decide +kernel
  obtain ⟨record, hmem, -⟩ := hexact.ok_iff.mp hpasses _ _ hget
  cases hmem

end SovriAgent
