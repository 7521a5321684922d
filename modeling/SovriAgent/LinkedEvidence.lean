import SovriAgent.EvidenceQueries
import SovriAgent.EvidenceSdk

/-!
# Evidence in the Store and in the Database

A scan persists its evidence to a store that keeps one record for each content digest, and the
corpus of the scan is written to the database, which keeps the records by their ids. The
validation of a run looks the digest of each linked record up in the store, and asks for the
record of the same id. The store is code of the SDK, and a parameter here.

## Main results

* `validateLinkedEvidence_ok_iff`: a record validates if the store kept it for its digest.
* `persisted_evidence_validates_iff`: the lists of records that validate after a scan.
-/

namespace SovriAgent

open Keyed Transaction Transaction.Tx

/-! ### The store -/

/-- The evidence store of the SDK. -/
structure StoreSdk where
  Store : Type
  empty : Store
  writeAll : Store → List StoredEvidence → Except Str Store
  entryCount : Store → ℕ
  resolveDigest : Store → Str → Option StoredEvidence
  resolveId : Store → Str → Option StoredEvidence

/-- What a store holds after some evidence is written to an empty one: one of the records of
each digest, found by the digest and by its id. -/
structure StoreSdk.KeepsOnePerDigest (sdk : StoreSdk) : Prop where
  kept : ∀ evidence store, sdk.writeAll sdk.empty evidence = .ok store → ∀ digest record,
    sdk.resolveDigest store digest = some record →
      record ∈ evidence ∧ record.contentHash = digest
  covered : ∀ evidence store, sdk.writeAll sdk.empty evidence = .ok store → ∀ record ∈ evidence,
    ∃ found, sdk.resolveDigest store record.contentHash = some found
  ids : ∀ evidence store, sdk.writeAll sdk.empty evidence = .ok store → ∀ evidenceId record,
    sdk.resolveId store evidenceId = some record →
      record.id = evidenceId ∧ sdk.resolveDigest store record.contentHash = some record

/-- Persists evidence to an opened store, and returns the number of records it then has
(`persist_evidence`). -/
def persistEvidence (sdk : StoreSdk) (opened : Except Str sdk.Store)
    (evidence : List StoredEvidence) : Except Str (ℕ × sdk.Store) :=
  match opened with
  | .error message => .error message
  | .ok store =>
      match sdk.writeAll store evidence with
      | .error message => .error message
      | .ok store => .ok (sdk.entryCount store, store)

/-! ### The corpus -/

/-- The class of a projected record. -/
def projectedClass : Option EvidenceClassification → Classification
  | some .secret => .secret
  | some .sensitive => .sensitive
  | some .isPublic | none => .unclassified

/-- The metadata of a record of the SDK. -/
def projectedEvidence (sdk : EvidenceSdk) (evidence : StoredEvidence) : Evidence where
  id := evidence.id
  kind := sdk.kindText evidence.kind
  location := evidence.locator
  integrity := evidence.contentHash
  classification := projectedClass evidence.classification

/-- Adds the metadata of a record of the SDK. -/
def Corpus.withStoredEvidence (sdk : EvidenceSdk) (corpus : Corpus) (evidence : StoredEvidence) :
    Corpus :=
  { corpus with evidence := corpus.evidence ++ [projectedEvidence sdk evidence] }

/-! ### Validation -/

/-- Metadata is validated against the store: its digest resolves to a record of its id. Metadata
without a digest is only looked up by its id. -/
def validateLinkedEvidence (sdk : StoreSdk) (store : sdk.Store)
    (metadata : LocalDatabaseEvidence) :
    Except LocalDatabaseError (Option LocalDatabaseEvidence) :=
  if metadata.digest = [] then
    .ok (if (sdk.resolveId store metadata.id).isSome then some metadata else none)
  else if (sdk.resolveDigest store metadata.digest).any fun record =>
      record.id = metadata.id ∧ record.contentHash = metadata.digest then
    .ok (some metadata)
  else
    match sdk.resolveId store metadata.id with
    | none => .error (.missingEvidence metadata.id metadata.digest)
    | some record =>
        .error (.integrityMismatch metadata.id metadata.digest record.contentHash)

/-- Reads the metadata of linked evidence, validated. -/
def readLinkedEvidence (sdk : StoreSdk) (store : sdk.Store) (evidenceId : Str) :
    DbTx (Option LocalDatabaseEvidence) := do
  let found ← queryEvidence "id".toList evidenceId
  Tx.lift (match found.head? with
    | none => .ok none
    | some metadata => validateLinkedEvidence sdk store metadata)

/-- The metadata linked to a run. -/
def linkedMetadata (runId : Str) (db : Db) : List LocalDatabaseEvidence :=
  orderBy [LocalDatabaseEvidence.id] ((db.runEvidenceLinks.rows.filter fun r =>
    r.1.1 = runId).map fun r => ⟨r.1.2, r.2.digest, r.2.locator, r.2.classification⟩)

/-- Validates one record after the other. -/
def validateAll (sdk : StoreSdk) (store : sdk.Store) :
    List LocalDatabaseEvidence → Except LocalDatabaseError Unit
  | [] => .ok ()
  | metadata :: rest =>
      match validateLinkedEvidence sdk store metadata with
      | .error e => .error e
      | .ok _ => validateAll sdk store rest

/-- Validates all evidence linked to a run. -/
def validateCorpusReconstruction (sdk : StoreSdk) (store : sdk.Store) (runId : Str) :
    DbTx Unit := do
  let evidence ← ask
    (columnsOf .runEvidenceLinks [.runId, .evidenceId, .digest, .locator, .classification])
    (linkedMetadata runId)
  Tx.lift (validateAll sdk store evidence)

theorem validateAll_ok_iff {sdk : StoreSdk} {store : sdk.Store}
    {evidence : List LocalDatabaseEvidence} : validateAll sdk store evidence = .ok () ↔
      ∀ metadata ∈ evidence, ∃ answer, validateLinkedEvidence sdk store metadata = .ok answer := by
  induction evidence with
  | nil => simp [validateAll]
  | cons metadata rest ih =>
      rw [List.forall_mem_cons, ← ih, validateAll]
      cases hvalidate : validateLinkedEvidence sdk store metadata with
      | error e => simp
      | ok answer => simp

/-! ### After a scan -/

section Persisted

variable {sdk : StoreSdk} {store : sdk.Store} {records : List StoredEvidence}

/-- **A record validates** if the store kept it for its digest. -/
theorem validateLinkedEvidence_eq (hsdk : sdk.KeepsOnePerDigest)
    (hstore : sdk.writeAll sdk.empty records = .ok store)
    (hids : (records.map (·.id)).Nodup) {record : StoredEvidence} (hrecord : record ∈ records)
    {metadata : LocalDatabaseEvidence} (hid : metadata.id = record.id)
    (hdigest : metadata.digest = record.contentHash) :
    validateLinkedEvidence sdk store metadata =
      if sdk.resolveDigest store record.contentHash = some record then .ok (some metadata)
      else .error (.missingEvidence record.id record.contentHash) := by
  obtain ⟨found, hfound⟩ := hsdk.covered _ _ hstore record hrecord
  obtain ⟨hmem, hhash⟩ := hsdk.kept _ _ hstore _ _ hfound
  rw [validateLinkedEvidence, hdigest, if_neg record.contentHash_ne, hfound, hid, Option.any_some]
  by_cases hsame : found = record
  · rw [hsame, if_pos (by simp), if_pos rfl]
  · have hother : found.id ≠ record.id := fun h =>
      hsame (List.inj_on_of_nodup_map hids hmem hrecord h)
    have hmissing : sdk.resolveId store record.id = none := by
      rw [Option.eq_none_iff_forall_ne_some]
      intro other hresolved
      obtain ⟨hotherId, hkept⟩ := hsdk.ids _ _ hstore _ _ hresolved
      have hrecords := (hsdk.kept _ _ hstore _ _ hkept).1
      obtain rfl := List.inj_on_of_nodup_map hids hrecords hrecord hotherId
      exact hsame (Option.some.inj (hfound.symm.trans hkept))
    rw [if_neg (by simp [hother]), if_neg (by simpa using hsame), hmissing]

/-- All records are kept if no two have the same digest. -/
theorem resolveDigest_iff_nodup (hsdk : sdk.KeepsOnePerDigest)
    (hstore : sdk.writeAll sdk.empty records = .ok store)
    (hids : (records.map (·.id)).Nodup) :
    (∀ record ∈ records, sdk.resolveDigest store record.contentHash = some record) ↔
      (records.map (·.contentHash)).Nodup := by
  constructor
  · intro hkept
    refine List.Nodup.map_on (fun a ha b hb hhash => ?_) hids.of_map
    have hfound := hkept a ha
    rw [hhash, hkept b hb] at hfound
    exact (Option.some.inj hfound).symm
  · intro hnodup record hrecord
    obtain ⟨found, hfound⟩ := hsdk.covered _ _ hstore record hrecord
    obtain ⟨hmem, hhash⟩ := hsdk.kept _ _ hstore _ _ hfound
    rw [hfound, List.inj_on_of_nodup_map hnodup hmem hrecord hhash]

end Persisted

/-! ### The rows of a scan -/

section Written

variable {esdk : EvidenceSdk} {records : List StoredEvidence} {corpus : Corpus} {db : Db}

/-- The metadata of a record of the SDK, as it is read back. -/
def ownMetadata (esdk : EvidenceSdk) (record : StoredEvidence) : LocalDatabaseEvidence :=
  ⟨record.id, record.contentHash, record.locator, (projectedEvidence esdk record).classification.asStr⟩

/-- The records of a list are the evidence of a corpus that is built from it. -/
theorem evidence_withStoredEvidence {base : Corpus} (hbase : base.evidence = []) :
    (records.foldl (Corpus.withStoredEvidence esdk) base).evidence =
      records.map (projectedEvidence esdk) := by
  have hfold : ∀ corpus : Corpus, (records.foldl (Corpus.withStoredEvidence esdk) corpus).evidence =
      corpus.evidence ++ records.map (projectedEvidence esdk) := by
    induction records with
    | nil => simp
    | cons record records ih =>
        intro corpus
        rw [List.foldl_cons, ih, Corpus.withStoredEvidence, List.append_assoc]
        rfl
  rw [hfold, hbase, List.nil_append]

/-- The links of a run are those of the records. -/
theorem mem_linkedMetadata (h : CurrentShape db)
    (hevidence : corpus.evidence = records.map (projectedEvidence esdk))
    (hids : (records.map (·.id)).Nodup) {metadata : LocalDatabaseEvidence} :
    metadata ∈ linkedMetadata corpus.runId (written corpus db) ↔
      ∃ record ∈ records, metadata = ownMetadata esdk record := by
  have hdigest : ∀ evidence ∈ corpus.evidence, evidence.integrity ≠ [] := by
    rw [hevidence]
    intro evidence hmem
    obtain ⟨record, -, rfl⟩ := List.mem_map.mp hmem
    exact record.contentHash_ne
  have hlinks := evidenceLinks_written h hdigest
  have hrecords : corpus.evidenceRecords =
      records.map fun record => (projectedEvidence esdk record).record := by
    rw [Corpus.evidenceRecords, hevidence, List.map_map]
    rfl
  have hlink : ∀ record : StoredEvidence, evidenceLink (projectedEvidence esdk record).record
      (evidenceRow [] (projectedEvidence esdk record).record) =
      ⟨esdk.kindText record.kind, record.contentHash, record.locator,
        (projectedEvidence esdk record).classification.asStr⟩ := by
    intro record
    have hne : (projectedEvidence esdk record).record.integrity ≠ [] := record.contentHash_ne
    rw [evidenceLink, if_neg hne, if_neg hne]
    rfl
  rw [linkedMetadata, (orderBy_perm _ _).mem_iff, List.mem_map]
  constructor
  · rintro ⟨⟨⟨_, evidenceId⟩, link⟩, hmem, rfl⟩
    obtain ⟨hrow, hrun⟩ := List.mem_filter.mp hmem
    obtain rfl := of_decide_eq_true hrun
    obtain ⟨e, he, hkey, rfl⟩ :=
      Table.mem_of_lastOf ((hlinks _ _ rfl).mp (Table.mem_rows_iff.mp hrow))
    rw [hrecords] at he
    obtain ⟨record, hrecord, rfl⟩ := List.mem_map.mp he
    refine ⟨record, hrecord, ?_⟩
    rw [hlink, ownMetadata]
    exact congrArg (LocalDatabaseEvidence.mk · _ _ _) (Prod.mk.inj hkey).2.symm
  · rintro ⟨record, hrecord, rfl⟩
    have hpairwise : corpus.evidenceRecords.Pairwise fun a later =>
        True → (corpus.runId, later.id) ≠ (corpus.runId, a.id) := by
      rw [hrecords, List.pairwise_map]
      refine (List.pairwise_map.mp hids).imp fun hne _ heq => hne ?_
      exact (Prod.mk.inj heq).2.symm
    have hmem : (projectedEvidence esdk record).record ∈ corpus.evidenceRecords :=
      hrecords ▸ List.mem_map_of_mem hrecord
    have hlast : Table.lastOf (fun e : EvidenceRecord => (corpus.runId, e.id))
        (fun e => evidenceLink e (evidenceRow [] e)) corpus.evidenceRecords
        (corpus.runId, record.id) = some _ :=
      Table.lastOf_of_pairwise hpairwise hmem trivial
    exact ⟨_, List.mem_filter.mpr ⟨Table.mem_rows_iff.mpr ((hlinks _ _ rfl).mpr hlast),
      decide_eq_true rfl⟩, by rw [hlink]; rfl⟩

/-- The validation of a run asks for the digest of every record. -/
theorem validateCorpusReconstruction_ok_iff {sdk : StoreSdk} {store : sdk.Store}
    (hsdk : sdk.KeepsOnePerDigest) (hstore : sdk.writeAll sdk.empty records = .ok store)
    (h : CurrentShape db) (hevidence : corpus.evidence = records.map (projectedEvidence esdk))
    (hids : (records.map (·.id)).Nodup) :
    (validateCorpusReconstruction sdk store corpus.runId).answer (fun _ => false)
        (written corpus db) = .ok () ↔
      ∀ record ∈ records, sdk.resolveDigest store record.contentHash = some record := by
  have hanswers : (ask (columnsOf .runEvidenceLinks
      [.runId, .evidenceId, .digest, .locator, .classification])
      (linkedMetadata corpus.runId)).Answers (written corpus db)
        (linkedMetadata corpus.runId (written corpus db)) :=
    answers_ask (h.written corpus) _ (by decide)
  rw [validateCorpusReconstruction, hanswers.answer_lift, validateAll_ok_iff]
  have hvalid : ∀ record ∈ records,
      (∃ answer, validateLinkedEvidence sdk store (ownMetadata esdk record) = .ok answer) ↔
        sdk.resolveDigest store record.contentHash = some record := by
    intro record hrecord
    rw [validateLinkedEvidence_eq hsdk hstore hids hrecord rfl rfl]
    split_ifs with hkept
    · exact iff_of_true ⟨_, rfl⟩ hkept
    · exact iff_of_false (by simp) hkept
  constructor
  · intro hall record hrecord
    exact (hvalid record hrecord).mp
      (hall _ ((mem_linkedMetadata h hevidence hids).mpr ⟨record, hrecord, rfl⟩))
  · intro hkept metadata hmem
    obtain ⟨record, hrecord, rfl⟩ := (mem_linkedMetadata h hevidence hids).mp hmem
    exact (hvalid record hrecord).mpr (hkept record hrecord)

/-- The stored locator of a record, or none that another run stored. -/
def LocatorFree (db : Db) (record : StoredEvidence) : Prop :=
  ∀ row, db.evidenceMetadata.get record.id = some row →
    row.locator = [] ∨ row.locator = record.locator

/-- A record is read back if the store kept it, with its own metadata if no other locator was
stored for its id. -/
theorem readLinkedEvidence_own_iff {sdk : StoreSdk} {store : sdk.Store}
    (hsdk : sdk.KeepsOnePerDigest) (hstore : sdk.writeAll sdk.empty records = .ok store)
    (h : CurrentShape db) (hevidence : corpus.evidence = records.map (projectedEvidence esdk))
    (hids : (records.map (·.id)).Nodup) {record : StoredEvidence} (hrecord : record ∈ records) :
    (readLinkedEvidence sdk store record.id).answer (fun _ => false) (written corpus db) =
        .ok (some (ownMetadata esdk record)) ↔
      sdk.resolveDigest store record.contentHash = some record ∧ LocatorFree db record := by
  have honce : (corpus.evidence.filter fun e => e.id = (projectedEvidence esdk record).id) =
      [projectedEvidence esdk record] := by
    rw [hevidence, List.filter_map]
    exact congrArg _ (filter_key_eq_singleton hids hrecord)
  have hrow := evidenceMetadata_written_once h honce
  have hne : (projectedEvidence esdk record).record.integrity ≠ [] := record.contentHash_ne
  have hread : ∀ row, (written corpus db).evidenceMetadata.get record.id = some row →
      row.digest = record.contentHash →
      (readLinkedEvidence sdk store record.id).answer (fun _ => false) (written corpus db) =
        if sdk.resolveDigest store record.contentHash = some record then
          .ok (some (foundEvidence (record.id, row)))
        else .error (.missingEvidence record.id record.contentHash) := by
    intro row hget hdigest
    have hanswers := answers_queryEvidence_id (h.written corpus) hget
    rw [readLinkedEvidence, hanswers.answer_lift]
    exact validateLinkedEvidence_eq hsdk hstore hids hrecord rfl hdigest
  cases hold : db.evidenceMetadata.get record.id with
  | none =>
      rw [show (projectedEvidence esdk record).id = record.id from rfl, hold] at hrow
      rw [hread _ hrow rfl]
      have hfree : LocatorFree db record := fun row hget => by
        rw [hold] at hget
        cases hget
      split_ifs with hkept
      · exact iff_of_true rfl ⟨hkept, hfree⟩
      · exact iff_of_false (by simp) fun hboth => hkept hboth.1
  | some row =>
      rw [show (projectedEvidence esdk record).id = record.id from rfl, hold] at hrow
      rw [hread _ hrow (if_neg hne)]
      split_ifs with hkept
      · have hfree : LocatorFree db record ↔ row.locator = [] ∨ row.locator = record.locator := by
          rw [LocatorFree, hold]
          simp
        rw [hfree, and_iff_right hkept, foundEvidence, ownMetadata]
        simp only [mergeEvidence, if_neg hne, Except.ok.injEq, Option.some.injEq,
          LocalDatabaseEvidence.mk.injEq]
        by_cases hempty : row.locator = []
        · simp [hempty, Evidence.record, projectedEvidence]
        · simp [hempty, Evidence.record, projectedEvidence]
      · exact iff_of_false (by simp) fun hboth => hkept hboth.1

end Written

/-- **The evidence of a scan validates** after it was persisted to an empty store and written,
and every record is read back with its own metadata, if no two records have the same digest
and no run has stored another locator for one of the ids. -/
theorem persisted_evidence_validates_iff {sdk : StoreSdk} {esdk : EvidenceSdk}
    (hsdk : sdk.KeepsOnePerDigest) {records : List StoredEvidence} {count : ℕ}
    {store : sdk.Store} {base : Corpus} {faults : ℕ → Bool} {db db' : Db}
    (hids : (records.map (·.id)).Nodup)
    (hpersist : persistEvidence sdk (.ok sdk.empty) records = .ok (count, store))
    (hbase : base.evidence = []) (hreach : Relation.ReflTransGen AcceptedStep freshDb db)
    (hwrite : writeCompletedCorpus (records.foldl (Corpus.withStoredEvidence esdk) base) faults
      db = (.ok (), db')) :
    ((validateCorpusReconstruction sdk store
        (records.foldl (Corpus.withStoredEvidence esdk) base).runId).answer (fun _ => false)
          db' = .ok () ∧
      ∀ record ∈ records, (readLinkedEvidence sdk store record.id).answer (fun _ => false) db' =
        .ok (some (ownMetadata esdk record))) ↔
      (records.map (·.contentHash)).Nodup ∧ ∀ record ∈ records, LocatorFree db record := by
  have hstore : sdk.writeAll sdk.empty records = .ok store := by
    simp only [persistEvidence] at hpersist
    split at hpersist
    · cases hpersist
    · next store' hwritten =>
        obtain ⟨-, rfl⟩ := Prod.mk.inj (Except.ok.inj hpersist)
        exact hwritten
  have hshape := (wellFormed_of_reachable hreach).toCurrentShape
  have hevidence : (records.foldl (Corpus.withStoredEvidence esdk) base).evidence =
      records.map (projectedEvidence esdk) := evidence_withStoredEvidence hbase
  rw [(writeCompletedCorpus_ok hwrite).eq_written,
    validateCorpusReconstruction_ok_iff hsdk hstore hshape hevidence hids,
    ← resolveDigest_iff_nodup hsdk hstore hids]
  constructor
  · rintro ⟨hkept, hread⟩
    exact ⟨hkept, fun record hrecord => ((readLinkedEvidence_own_iff hsdk hstore hshape hevidence
      hids hrecord).mp (hread record hrecord)).2⟩
  · rintro ⟨hkept, hfree⟩
    exact ⟨hkept, fun record hrecord => (readLinkedEvidence_own_iff hsdk hstore hshape hevidence
      hids hrecord).mpr ⟨hkept record hrecord, hfree record hrecord⟩⟩

/-! ### A store -/

/-- The first record of each digest. -/
def firstOfDigest (evidence : List StoredEvidence) : Table Str StoredEvidence :=
  Table.empty.insertAll StoredEvidence.contentHash id evidence

theorem get_firstOfDigest (evidence : List StoredEvidence) (digest : Str) :
    (firstOfDigest evidence).get digest = evidence.find? (·.contentHash = digest) := by
  rw [firstOfDigest, Table.get_insertAll, Option.map_id]
  rfl

/-- A store that keeps the first record of each digest. -/
def firstKeptStore : StoreSdk where
  Store := Table Str StoredEvidence
  empty := Table.empty
  writeAll := fun store evidence => .ok (store.insertAll StoredEvidence.contentHash id evidence)
  entryCount := fun store => store.rows.length
  resolveDigest := Table.get
  resolveId := fun store evidenceId =>
    (store.rows.find? fun r => r.2.id = evidenceId).map Prod.snd

theorem firstKeptStore_keepsOnePerDigest : firstKeptStore.KeepsOnePerDigest := by
  have hkept : ∀ evidence digest record, (firstOfDigest evidence).get digest = some record →
      record ∈ evidence ∧ record.contentHash = digest := by
    intro evidence digest record hget
    rw [get_firstOfDigest] at hget
    exact ⟨List.mem_of_find?_eq_some hget, by simpa using List.find?_some hget⟩
  refine ⟨?_, ?_, ?_⟩
  · rintro evidence _ ⟨⟩ digest record hfound
    exact hkept evidence digest record hfound
  · rintro evidence _ ⟨⟩ record hrecord
    change ∃ found, (firstOfDigest evidence).get record.contentHash = some found
    rw [get_firstOfDigest, ← Option.isSome_iff_exists, List.find?_isSome]
    exact ⟨record, hrecord, decide_eq_true rfl⟩
  · rintro evidence _ ⟨⟩ evidenceId record hfound
    obtain ⟨⟨digest, _⟩, hrow, rfl⟩ := Option.map_eq_some_iff.mp hfound
    have hget : (firstOfDigest evidence).get digest = some _ :=
      Table.mem_rows_iff.mp (List.mem_of_find?_eq_some hrow)
    have hdigest := (hkept evidence digest _ hget).2
    subst hdigest
    exact ⟨by simpa using List.find?_some hrow, hget⟩

/-- A secret log option of a daemon configuration. -/
def logOptRecord (id digest : String) (h : digest.toList ≠ []) : StoredEvidence where
  id := id.toList
  kind := .config
  locator := "/etc/docker/daemon.json".toList
  key := some id.toList
  classification := some .secret
  excerpt := none
  sizeBytes := some 1
  contentHash := digest.toList
  contentHash_ne := h

/-- An SDK whose builder refuses everything. -/
def refusingSdk : EvidenceSdk where
  build := fun _ => none
  kindText := fun _ => "config".toList

/-- The corpus of a scan with some evidence. -/
def scanCorpus (records : List StoredEvidence) : Corpus :=
  records.foldl (Corpus.withStoredEvidence refusingSdk)
    ((Corpus.new "now".toList).withRunId "run".toList)

theorem scanCorpus_accepted (records : List StoredEvidence)
    (h : (scanCorpus records).runId = "run".toList)
    (hvalid : validateCompletedCorpus (scanCorpus records) = .ok ()) :
    writeCompletedCorpus (scanCorpus records) (fun _ => false) freshDb =
      (.ok (), written (scanCorpus records) freshDb) :=
  writeCompletedCorpus_accepts currentShape_freshDb (by rw [h]; decide) hvalid

/-- Two secrets with different values. -/
def differentSecrets : List StoredEvidence :=
  [logOptRecord "token" "d1" (by decide), logOptRecord "password" "d2" (by decide)]

theorem persisted_evidence_validates_iff_different :
    (validateCorpusReconstruction firstKeptStore (firstOfDigest differentSecrets)
      "run".toList).answer (fun _ => false) (written (scanCorpus differentSecrets) freshDb) =
        .ok () :=
  ((persisted_evidence_validates_iff firstKeptStore_keepsOnePerDigest (by decide)
    (rfl : persistEvidence firstKeptStore (.ok Table.empty) differentSecrets =
      .ok (2, firstOfDigest differentSecrets)) rfl .refl
    (scanCorpus_accepted differentSecrets rfl (by decide))).mpr
      ⟨by decide, fun _ _ _ hget => by cases hget⟩).1

/-- Two secrets with the same value. -/
def sameSecrets : List StoredEvidence :=
  [logOptRecord "token" "d1" (by decide), logOptRecord "password" "d1" (by decide)]

/-- **Two records with the same content** make the validation of their run fail. -/
theorem same_secrets_do_not_validate :
    (sameSecrets.map (·.id)).Nodup ∧
      persistEvidence firstKeptStore (.ok Table.empty) sameSecrets =
        .ok (1, firstOfDigest sameSecrets) ∧
      writeCompletedCorpus (scanCorpus sameSecrets) (fun _ => false) freshDb =
        (.ok (), written (scanCorpus sameSecrets) freshDb) ∧
      (validateCorpusReconstruction firstKeptStore (firstOfDigest sameSecrets)
        "run".toList).answer (fun _ => false) (written (scanCorpus sameSecrets) freshDb) ≠
          .ok () := by
  refine ⟨by decide, rfl, scanCorpus_accepted sameSecrets rfl (by decide), fun hvalid => ?_⟩
  have hstore : firstKeptStore.writeAll firstKeptStore.empty sameSecrets =
      .ok (firstOfDigest sameSecrets) := rfl
  have hevidence : (scanCorpus sameSecrets).evidence =
      sameSecrets.map (projectedEvidence refusingSdk) := rfl
  have hkept := (validateCorpusReconstruction_ok_iff firstKeptStore_keepsOnePerDigest hstore
    currentShape_freshDb hevidence (by decide)).mp hvalid
    (logOptRecord "password" "d1" (by decide)) (by decide)
  have hfirst : firstKeptStore.resolveDigest (firstOfDigest sameSecrets) "d1".toList =
      some (logOptRecord "token" "d1" (by decide)) := rfl
  exact absurd (Option.some.inj (hfirst.symm.trans hkept)) (by decide)

end SovriAgent
