import SovriAgent.Persistence
import SovriAgent.Rewrite

/-!
# Reading Evidence Back

The two ways stored evidence is shown: the query of the metadata by id, digest or control, and
the evidence of a reconstructed run. A record is shown redacted where the class stored for it
is not `Unclassified`.

## Main results

* `evidenceMetadata_written_once`, `runEvidenceLinks_written_once`: what a write stores for an
  evidence id that occurs once.
* `answers_queryEvidence_id`: evidence is found under its id.
* `reconstructed_evidence`: the evidence of a reconstructed run is what the links say.
-/

namespace SovriAgent

open Keyed Transaction Transaction.Tx

/-! ### Queries -/

/-- Persisted evidence metadata returned by queries. -/
structure LocalDatabaseEvidence where
  id : Str
  digest : Str
  locator : Str
  classification : Str
deriving DecidableEq

/-- The redaction status of a class; an unknown class is redacted. -/
def LocalDatabaseEvidence.redactionStatus (evidence : LocalDatabaseEvidence) : Str :=
  match Classification.fromPersisted evidence.classification with
  | some .unclassified => "none".toList
  | some .secret | some .sensitive | none => "redacted".toList

/-- What evidence is looked up by. -/
inductive EvidenceLookup where
  | id
  | digest
  | control
deriving DecidableEq, Repr

/-- Lookup names are exact. -/
def EvidenceLookup.parse (lookup : Str) : Option EvidenceLookup :=
  if lookup = "id".toList then some .id
  else if lookup = "digest".toList then some .digest
  else if lookup = "control".toList then some .control
  else none

/-- The metadata of a row. -/
def foundEvidence (row : Str × EvidenceRow) : LocalDatabaseEvidence :=
  ⟨row.1, row.2.digest, row.2.locator, row.2.classification⟩

/-- The columns the queries select. -/
def evidenceColumns : List Column :=
  columnsOf .evidenceMetadata [.id, .digest, .locator, .classification]

/-- The rows of a lookup. The lookup by control joins the results that name the evidence. -/
def evidenceRows (lookup : EvidenceLookup) (value : Str) (db : Db) : List LocalDatabaseEvidence :=
  match lookup with
  | .id => (db.evidenceMetadata.rows.filter fun r => r.1 = value).map foundEvidence
  | .digest => (db.evidenceMetadata.rows.filter fun r => r.2.digest = value).map foundEvidence
  | .control =>
      (db.evidenceMetadata.rows.flatMap fun r =>
        (db.controlResults.rows.filter fun c => c.2.evidenceId = r.1 ∧ c.2.controlId = value).map
          fun _ => foundEvidence r).dedup

/-- Queries persisted evidence metadata by id, digest, or control id (`query_evidence`). -/
def queryEvidence (lookup value : Str) : DbTx (List LocalDatabaseEvidence) :=
  match EvidenceLookup.parse lookup with
  | none => pure []
  | some .control =>
      ask (evidenceColumns ++ columnsOf .controlResults [.evidenceId, .controlId]) fun db =>
        orderBy [LocalDatabaseEvidence.id] (evidenceRows .control value db)
  | some lookup =>
      ask evidenceColumns fun db =>
        orderBy [LocalDatabaseEvidence.id] (evidenceRows lookup value db)

/-- Evidence that is found has a metadata row. -/
theorem get_of_mem_evidenceRows {lookup : EvidenceLookup} {value : Str} {db : Db}
    {found : LocalDatabaseEvidence} (h : found ∈ evidenceRows lookup value db) :
    ∃ row, db.evidenceMetadata.get found.id = some row ∧ found = foundEvidence (found.id, row) := by
  have hrow : ∃ r ∈ db.evidenceMetadata.rows, found = foundEvidence r := by
    cases lookup with
    | id =>
        obtain ⟨r, hr, rfl⟩ := List.mem_map.mp h
        exact ⟨r, (List.mem_filter.mp hr).1, rfl⟩
    | digest =>
        obtain ⟨r, hr, rfl⟩ := List.mem_map.mp h
        exact ⟨r, (List.mem_filter.mp hr).1, rfl⟩
    | control =>
        obtain ⟨r, hr, hfound⟩ := List.mem_flatMap.mp (List.mem_dedup.mp h)
        obtain ⟨-, -, rfl⟩ := List.mem_map.mp hfound
        exact ⟨r, hr, rfl⟩
  obtain ⟨⟨evidenceId, row⟩, hr, rfl⟩ := hrow
  exact ⟨row, Table.mem_rows_iff.mp hr, rfl⟩

/-- A query answers with rows of a lookup. -/
theorem mem_evidenceRows_of_answer {lookup value : Str} {faults : ℕ → Bool} {db : Db}
    {answered : List LocalDatabaseEvidence}
    (h : (queryEvidence lookup value).answer faults db = .ok answered)
    {found : LocalDatabaseEvidence} (hfound : found ∈ answered) :
    ∃ lookup, found ∈ evidenceRows lookup value db := by
  obtain ⟨db', hruns⟩ := runs_of_answer h
  rw [queryEvidence] at hruns
  split at hruns
  · obtain ⟨rfl, -⟩ := hruns.of_pure
    cases hfound
  · obtain ⟨rfl, -⟩ := runs_ask hruns
    exact ⟨_, (orderBy_perm _ _).mem_iff.mp hfound⟩
  · obtain ⟨rfl, -⟩ := runs_ask hruns
    exact ⟨_, (orderBy_perm _ _).mem_iff.mp hfound⟩

/-- **Evidence is found under its id.** -/
theorem answers_queryEvidence_id {db : Db} (h : CurrentShape db) {evidenceId : Str}
    {row : EvidenceRow} (hget : db.evidenceMetadata.get evidenceId = some row) :
    (queryEvidence "id".toList evidenceId).Answers db [foundEvidence (evidenceId, row)] := by
  have hrows : db.evidenceMetadata.rows.filter (fun r => r.1 = evidenceId) =
      [(evidenceId, row)] :=
    filter_key_eq_singleton db.evidenceMetadata.nodup (Table.mem_rows_iff.mpr hget)
  have hanswers : (queryEvidence "id".toList evidenceId).Answers db
      (orderBy [LocalDatabaseEvidence.id] (evidenceRows .id evidenceId db)) :=
    answers_ask h (fun db => orderBy [LocalDatabaseEvidence.id] (evidenceRows .id evidenceId db))
      (by decide)
  rw [evidenceRows, hrows] at hanswers
  exact hanswers

/-! ### What a write stores for an evidence id -/

/-- The record the exporters and the writer see of some evidence. -/
def Evidence.record (evidence : Evidence) : EvidenceRecord :=
  { id := evidence.id, kind := evidence.kind, locator := evidence.location,
    integrity := evidence.integrity, classification := evidence.classification.asStr,
    redactionStatus := redactionStatus evidence.classification }

section Once

variable {corpus : Corpus} {db : Db} {evidence : Evidence}

/-- The record of an evidence id that occurs once. -/
theorem recordsOf_once
    (honce : (corpus.evidence.filter fun e => e.id = evidence.id) = [evidence]) :
    recordsOf evidence.id corpus.evidenceRecords = [evidence.record] := by
  rw [recordsOf, Corpus.evidenceRecords, List.filter_map]
  exact congrArg (List.map Evidence.record) honce

/-- The metadata stored for an evidence id that occurs once. -/
theorem evidenceMetadata_written_once (h : CurrentShape db)
    (honce : (corpus.evidence.filter fun e => e.id = evidence.id) = [evidence]) :
    (written corpus db).evidenceMetadata.get evidence.id =
      some (match db.evidenceMetadata.get evidence.id with
        | none => evidenceRow [] evidence.record
        | some row => mergeEvidence evidence.record row) := by
  rw [get_evidenceMetadata_written h, recordsOf_once honce]
  cases db.evidenceMetadata.get evidence.id with
  | none => exact congrArg some (mergeEvidence_blank [] evidence.record)
  | some row => rfl

/-- The link stored for an evidence id that occurs once. -/
theorem runEvidenceLinks_written_once (h : CurrentShape db)
    (honce : (corpus.evidence.filter fun e => e.id = evidence.id) = [evidence]) :
    (written corpus db).runEvidenceLinks.get (corpus.runId, evidence.id) =
      some (finalLink [] (written corpus db).evidenceMetadata evidence.record) := by
  have hmem : evidence.record ∈ recordsOf evidence.id corpus.evidenceRecords := by
    rw [recordsOf_once honce]
    exact List.mem_singleton_self _
  obtain ⟨link, hlast⟩ := Table.exists_lastOf (fun e : EvidenceRecord => (corpus.runId, e.id))
    (finalLink [] (written corpus db).evidenceMetadata) (List.mem_filter.mp hmem).1
  obtain ⟨record, hrecord, hkey, rfl⟩ := Table.mem_of_lastOf hlast
  have honly : record ∈ recordsOf evidence.id corpus.evidenceRecords :=
    List.mem_filter.mpr ⟨hrecord, decide_eq_true (Prod.mk.inj hkey).2⟩
  rw [recordsOf_once honce, List.mem_singleton] at honly
  rw [get_runEvidenceLinks_written h]
  change (Table.lastOf _ _ _ (corpus.runId, evidence.record.id)).or _ = _
  rw [hlast, honly, Option.some_or]

end Once

/-! ### The evidence of a reconstructed run -/

/-- **The evidence of a reconstructed run** is what its links say. -/
theorem reconstructed_evidence {sdk : ResultSdk} {runId : Str} {faults : ℕ → Bool} {db : Db}
    {corpus : Corpus} (h : (reconstructExportCorpus sdk runId).answer faults db = .ok corpus)
    {evidence : Evidence} : evidence ∈ corpus.evidence ↔
      ∃ link, db.runEvidenceLinks.get (runId, evidence.id) = some link ∧
        evidence = linkedEvidence evidence.id link := by
  obtain ⟨db', hruns⟩ := runs_of_answer h
  obtain ⟨run, db₁, hrun, h₁⟩ := hruns.of_bind
  obtain ⟨-, rfl⟩ := runs_ask hrun
  cases run with
  | none => cases (Runs.of_lift h₁).1
  | some run =>
      obtain ⟨frameworks, db₂, hframeworks, h₂⟩ := h₁.of_bind
      obtain ⟨-, rfl⟩ := runs_ask hframeworks
      obtain ⟨persisted, db₃, hpersisted, h₃⟩ := h₂.of_bind
      obtain ⟨-, rfl⟩ := runs_ask hpersisted
      obtain ⟨controls, db₄, hcontrols, h₄⟩ := h₃.of_bind
      obtain ⟨-, rfl⟩ := runs_ask hcontrols
      obtain ⟨results, db₅, hresults, h₅⟩ := h₄.of_bind
      obtain ⟨-, rfl⟩ := Runs.of_lift hresults
      obtain ⟨found, db₆, hfound, h₆⟩ := h₅.of_bind
      obtain ⟨rfl, rfl⟩ := runs_ask hfound
      obtain ⟨rfl, -⟩ := h₆.of_pure
      rw [rebuiltCorpus_eq, (orderBy_perm _ _).mem_iff, List.mem_map]
      constructor
      · rintro ⟨⟨⟨_, evidenceId⟩, link⟩, hlink, rfl⟩
        obtain ⟨hmem, hid⟩ := List.mem_filter.mp hlink
        obtain rfl := of_decide_eq_true hid
        exact ⟨link, Table.mem_rows_iff.mp hmem, rfl⟩
      · rintro ⟨link, hlink, heq⟩
        exact ⟨((runId, evidence.id), link), List.mem_filter.mpr
          ⟨Table.mem_rows_iff.mpr hlink, decide_eq_true rfl⟩, heq.symm⟩

end SovriAgent
