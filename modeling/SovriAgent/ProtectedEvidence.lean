import SovriAgent.EvidenceQueries

/-!
# Classified Evidence

After a write, a record that the corpus classifies is shown by the queries and by the
reconstruction of the run. The write takes the class from the record only if the record
carries a digest, or if nothing is stored under its id; otherwise the class stored before is
kept, and linked to the run.

## Main results

* `classes_written`: the classes a write stores for an evidence id that occurs once.
* `shownRedacted_iff`: the writes after which a classified record is shown redacted.
-/

namespace SovriAgent

open Keyed Transaction Transaction.Tx

/-- A class whose evidence is shown redacted. -/
def IsProtected (classification : Str) : Prop :=
  classification = Classification.secret.asStr ∨ classification = Classification.sensitive.asStr

/-- Evidence that a corpus classifies. -/
def Evidence.IsClassified (evidence : Evidence) : Prop :=
  evidence.classification = .secret ∨ evidence.classification = .sensitive

/-- The redacted form. -/
def redacted : Str :=
  redactionStatus .secret

/-- An evidence id of a run is shown redacted: the stored classes are protected, and so is the
evidence of every reconstruction of the run and of every query. -/
structure ShownRedacted (db : Db) (runId evidenceId : Str) : Prop where
  linked : ∃ link, db.runEvidenceLinks.get (runId, evidenceId) = some link ∧
    IsProtected link.classification
  stored : ∃ row, db.evidenceMetadata.get evidenceId = some row ∧ IsProtected row.classification
  reconstructed : ∀ sdk faults corpus,
    (reconstructExportCorpus sdk runId).answer faults db = .ok corpus →
    (∃ evidence ∈ corpus.evidence, evidence.id = evidenceId) ∧
      ∀ evidence ∈ corpus.evidence, evidence.id = evidenceId →
        redactionStatus evidence.classification = redacted
  queried : ∀ lookup value faults answered,
    (queryEvidence lookup value).answer faults db = .ok answered →
    ∀ found ∈ answered, found.id = evidenceId → found.redactionStatus = redacted
  found : ∃ found : LocalDatabaseEvidence, found.id = evidenceId ∧
    (queryEvidence "id".toList evidenceId).answer (fun _ => false) db = .ok [found]

/-- A stored class is the one of the record, unless the record has no digest and another class
is stored. -/
def keptClass (evidence : Evidence) (stored : Option EvidenceRow) : Str :=
  match stored with
  | none => evidence.classification.asStr
  | some row =>
      if evidence.integrity = [] then row.classification else evidence.classification.asStr

theorem isProtected_asStr {evidence : Evidence} (h : evidence.IsClassified) :
    IsProtected evidence.classification.asStr := by
  rcases h with h | h
  · exact .inl (congrArg Classification.asStr h)
  · exact .inr (congrArg Classification.asStr h)

/-- A protected class is read as one that is redacted. -/
theorem redactionStatus_of_isProtected {classification : Str} (h : IsProtected classification) :
    redactionStatus ((Classification.fromPersisted classification).getD .secret) = redacted := by
  rcases h with rfl | rfl
  · rw [Classification.fromPersisted_asStr]
    rfl
  · rw [Classification.fromPersisted_asStr]
    rfl

theorem found_redactionStatus_of_isProtected {found : LocalDatabaseEvidence}
    (h : IsProtected found.classification) : found.redactionStatus = redacted := by
  rw [LocalDatabaseEvidence.redactionStatus]
  rcases h with h | h
  · rw [h, Classification.fromPersisted_asStr]
    rfl
  · rw [h, Classification.fromPersisted_asStr]
    rfl

/-! ### A write -/

section Written

variable {corpus : Corpus} {db : Db} {evidence : Evidence}

/-- **The classes a write stores** for an evidence id that occurs once. -/
theorem classes_written (h : CurrentShape db)
    (honce : (corpus.evidence.filter fun e => e.id = evidence.id) = [evidence]) :
    (∃ row, (written corpus db).evidenceMetadata.get evidence.id = some row ∧
        row.classification = keptClass evidence (db.evidenceMetadata.get evidence.id)) ∧
      ∃ link, (written corpus db).runEvidenceLinks.get (corpus.runId, evidence.id) = some link ∧
        link.classification = keptClass evidence (db.evidenceMetadata.get evidence.id) := by
  have hrow := evidenceMetadata_written_once h honce
  have hlink := runEvidenceLinks_written_once h honce
  have hid : evidence.record.id = evidence.id := rfl
  refine ⟨⟨_, hrow, ?_⟩, _, hlink, ?_⟩
  · cases db.evidenceMetadata.get evidence.id with
    | none => rfl
    | some row => rfl
  · -- The link takes the class of the record, or the one the metadata has by now.
    rw [finalLink, hid, hrow, Option.getD_some]
    cases db.evidenceMetadata.get evidence.id with
    | none => exact ite_self _
    | some row =>
        by_cases hdigest : evidence.integrity = []
        · simp [evidenceLink, mergeEvidence, keptClass, Evidence.record, hdigest]
        · simp [evidenceLink, keptClass, Evidence.record, hdigest]

/-- A record whose stored classes are protected is shown redacted. -/
theorem shownRedacted_of_classes {runId evidenceId : Str} (h : CurrentShape db)
    (hlinked : ∃ link, db.runEvidenceLinks.get (runId, evidenceId) = some link ∧
      IsProtected link.classification)
    (hstored : ∃ row, db.evidenceMetadata.get evidenceId = some row ∧
      IsProtected row.classification) : ShownRedacted db runId evidenceId := by
  refine ⟨hlinked, hstored, fun sdk faults corpus hanswer => ?_,
    fun lookup value faults answered hanswer found hfound hid => ?_, ?_⟩
  · obtain ⟨link, hget, hprotected⟩ := hlinked
    refine ⟨⟨linkedEvidence evidenceId link, ?_, rfl⟩, ?_⟩
    · exact (reconstructed_evidence hanswer).mpr ⟨link, hget, rfl⟩
    · rintro evidence hmem rfl
      obtain ⟨link', hget', heq⟩ := (reconstructed_evidence hanswer).mp hmem
      obtain rfl := Option.some.inj (hget.symm.trans hget')
      rw [heq]
      exact redactionStatus_of_isProtected hprotected
  · obtain ⟨row, hget, hprotected⟩ := hstored
    obtain ⟨lookup', hmem⟩ := mem_evidenceRows_of_answer hanswer hfound
    obtain ⟨row', hget', heq⟩ := get_of_mem_evidenceRows hmem
    obtain rfl := Option.some.inj (hget.symm.trans (hid ▸ hget'))
    apply found_redactionStatus_of_isProtected
    rw [heq]
    exact hprotected
  · obtain ⟨row, hget, -⟩ := hstored
    exact ⟨foundEvidence (evidenceId, row), rfl, (answers_queryEvidence_id h hget).answer_eq⟩

end Written

/-- **A classified record is shown redacted** after a write, if it carries a digest or the class
stored before for its id is protected. -/
theorem shownRedacted_iff {corpus : Corpus} {faults : ℕ → Bool} {db db' : Db}
    {evidence : Evidence} (hreach : Relation.ReflTransGen AcceptedStep freshDb db)
    (hwrite : writeCompletedCorpus corpus faults db = (.ok (), db'))
    (honce : (corpus.evidence.filter fun e => e.id = evidence.id) = [evidence])
    (hclass : evidence.IsClassified) :
    ShownRedacted db' corpus.runId evidence.id ↔
      evidence.integrity ≠ [] ∨
        ∀ row, db.evidenceMetadata.get evidence.id = some row →
          IsProtected row.classification := by
  have hshape := (wellFormed_of_reachable hreach).toCurrentShape
  rw [(writeCompletedCorpus_ok hwrite).eq_written]
  obtain ⟨⟨row, hrow, hrowClass⟩, link, hlink, hlinkClass⟩ := classes_written hshape honce
  have hkept : IsProtected (keptClass evidence (db.evidenceMetadata.get evidence.id)) ↔
      evidence.integrity ≠ [] ∨
        ∀ row, db.evidenceMetadata.get evidence.id = some row →
          IsProtected row.classification := by
    cases db.evidenceMetadata.get evidence.id with
    | none => exact iff_of_true (isProtected_asStr hclass) (.inr fun _ h => by cases h)
    | some old =>
        rw [keptClass]
        by_cases hdigest : evidence.integrity = []
        · simp [hdigest]
        · rw [if_neg hdigest]
          exact iff_of_true (isProtected_asStr hclass) (.inl hdigest)
  rw [← hkept]
  constructor
  · intro hshown
    obtain ⟨row', hrow', hprotected⟩ := hshown.stored
    obtain rfl := Option.some.inj (hrow.symm.trans hrow')
    exact hrowClass ▸ hprotected
  · intro hprotected
    exact shownRedacted_of_classes (hshape.written corpus)
      ⟨link, hlink, hlinkClass ▸ hprotected⟩ ⟨row, hrow, hrowClass ▸ hprotected⟩

/-- A corpus of a run with one evidence record. -/
def evidenceCorpus (runId : Str) (evidence : Evidence) : Corpus :=
  { (Corpus.new "now".toList).withRunId runId with evidence := [evidence] }

/-- A record of some class and digest. -/
def sampleEvidence (classification : Classification) (integrity : Str) : Evidence :=
  ⟨"e".toList, "config".toList, "path".toList, integrity, classification⟩

/-- A secret with a digest, where nothing is stored. -/
theorem shownRedacted_iff_digest :
    ShownRedacted (written (evidenceCorpus "a".toList (sampleEvidence .secret "d".toList)) freshDb)
      "a".toList "e".toList := by
  let evidence := sampleEvidence .secret "d".toList
  have haccepted : writeCompletedCorpus (evidenceCorpus "a".toList evidence) (fun _ => false)
      freshDb = (.ok (), written (evidenceCorpus "a".toList evidence) freshDb) :=
    writeCompletedCorpus_accepts currentShape_freshDb (by decide) (by decide)
  have honce : ((evidenceCorpus "a".toList evidence).evidence.filter fun e => e.id = evidence.id) =
      [evidence] := by decide
  exact (shownRedacted_iff .refl haccepted honce (.inl rfl)).mpr (.inl (by decide))

/-- **A secret is shown in the open** after a run that stored its id without a class, if it
carries no digest. -/
theorem secret_shown_unclassified :
    let before := afterWrite (evidenceCorpus "a".toList (sampleEvidence .unclassified "d".toList))
      freshDb
    let secret := evidenceCorpus "b".toList (sampleEvidence .secret [])
    (writeCompletedCorpus (evidenceCorpus "a".toList (sampleEvidence .unclassified "d".toList))
        (fun _ => false) freshDb).1 = .ok () ∧
      (writeCompletedCorpus secret (fun _ => false) before).1 = .ok () ∧
      ¬ ShownRedacted (afterWrite secret before) "b".toList "e".toList := by
  refine ⟨by decide +kernel, by decide +kernel, fun hshown => ?_⟩
  obtain ⟨row, hrow, hprotected⟩ := hshown.stored
  have hstored : (afterWrite (evidenceCorpus "b".toList (sampleEvidence .secret []))
      (afterWrite (evidenceCorpus "a".toList (sampleEvidence .unclassified "d".toList))
        freshDb)).evidenceMetadata.get "e".toList =
      some ⟨[], "d".toList, "path".toList, Classification.unclassified.asStr⟩ := by
    decide +kernel
  obtain rfl := Option.some.inj (hrow.symm.trans hstored)
  rcases hprotected with h | h
  · exact absurd h (by decide)
  · exact absurd h (by decide)

end SovriAgent
