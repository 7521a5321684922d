import SovriAgent.Isolation
import SovriAgent.RunRows

/-!
# Rewriting a Run

Writing a corpus again, or writing another corpus for the same run. The second write
leaves of the run what it would have left without the first one; evidence is the
exception, for a record without a digest keeps the metadata a former write stored. Writing
the same corpus twice is writing it once, in every table.

## Main results

* `SameTables.written_twice`: writing twice is writing once.
* `rewrite_replaces_run`: a rewrite leaves nothing of the former write.
-/

namespace SovriAgent

open Keyed

/-- An accepted write. -/
def AcceptedStep (db db' : Db) : Prop :=
  ∃ corpus faults, writeCompletedCorpus corpus faults db = (.ok (), db')

/-- Every database that accepted writes reach is well formed. -/
theorem wellFormed_of_reachable {db : Db} (h : Relation.ReflTransGen AcceptedStep freshDb db) :
    WellFormed db := by
  induction h with
  | refl => exact wellFormed_freshDb
  | tail _ hstep ih =>
      obtain ⟨corpus, faults, hwrite⟩ := hstep
      rw [(writeCompletedCorpus_ok hwrite).eq_written]
      exact ih.written corpus

/-! ### Merging evidence twice -/

/-- Of the digest and classification of records either nothing is merged, or a row's own
values do not matter. -/
theorem mergedEvidence_digest (records : List EvidenceRecord) :
    (∀ row, (mergedEvidence records row).digest = row.digest ∧
        (mergedEvidence records row).classification = row.classification) ∨
      ∃ digest classification, ∀ row, (mergedEvidence records row).digest = digest ∧
        (mergedEvidence records row).classification = classification := by
  induction records with
  | nil => exact .inl fun _ => ⟨rfl, rfl⟩
  | cons evidence records ih =>
      rcases ih with hsame | ⟨digest, classification, hconst⟩
      · by_cases hdigest : evidence.integrity = []
        · refine .inl fun row => ?_
          obtain ⟨h₁, h₂⟩ := hsame (mergeEvidence evidence row)
          exact ⟨h₁.trans (if_pos hdigest), h₂.trans (if_pos hdigest)⟩
        · refine .inr ⟨evidence.integrity, evidence.classification, fun row => ?_⟩
          obtain ⟨h₁, h₂⟩ := hsame (mergeEvidence evidence row)
          exact ⟨h₁.trans (if_neg hdigest), h₂.trans (if_neg hdigest)⟩
      · exact .inr ⟨digest, classification, fun row => hconst (mergeEvidence evidence row)⟩

/-- A locator is only merged into a row that has none. -/
theorem mergedEvidence_locator (records : List EvidenceRecord) :
    ∃ locator, ∀ row, (mergedEvidence records row).locator =
      if row.locator = [] then locator else row.locator := by
  induction records with
  | nil =>
      refine ⟨[], fun row => ?_⟩
      change row.locator = _
      split
      · next h => exact h
      · rfl
  | cons evidence records ih =>
      obtain ⟨locator, hlocator⟩ := ih
      refine ⟨if evidence.locator = [] then locator else evidence.locator, fun row => ?_⟩
      refine (hlocator (mergeEvidence evidence row)).trans ?_
      rw [mergeEvidence]
      by_cases hrow : row.locator = []
      · simp only [hrow, if_true]
      · simp only [hrow, if_false]

/-- Merging records leaves the run of a row alone. -/
theorem mergedEvidence_runId (records : List EvidenceRecord) (row : EvidenceRow) :
    (mergedEvidence records row).runId = row.runId := by
  induction records generalizing row with
  | nil => rfl
  | cons evidence records ih => exact ih (mergeEvidence evidence row)

/-- **Merging the same records again changes nothing.** -/
theorem mergedEvidence_twice (records : List EvidenceRecord) (row : EvidenceRow) :
    mergedEvidence records (mergedEvidence records row) = mergedEvidence records row := by
  have hdigest : (mergedEvidence records (mergedEvidence records row)).digest =
        (mergedEvidence records row).digest ∧
      (mergedEvidence records (mergedEvidence records row)).classification =
        (mergedEvidence records row).classification := by
    rcases mergedEvidence_digest records with hsame | ⟨digest, classification, hconst⟩
    · exact hsame _
    · rw [(hconst _).1, (hconst _).2, (hconst row).1, (hconst row).2]
      exact ⟨rfl, rfl⟩
  have hlocator : (mergedEvidence records (mergedEvidence records row)).locator =
      (mergedEvidence records row).locator := by
    obtain ⟨locator, hmerged⟩ := mergedEvidence_locator records
    rw [hmerged (mergedEvidence records row), hmerged row]
    by_cases hrow : row.locator = []
    · simp [hrow]
    · simp [hrow]
  have hrun := mergedEvidence_runId records (mergedEvidence records row)
  rcases hmerged : mergedEvidence records (mergedEvidence records row) with ⟨_, _, _, _⟩
  rw [hmerged] at hdigest hlocator hrun
  rcases hrow : mergedEvidence records row with ⟨_, _, _, _⟩
  rw [hrow] at hdigest hlocator hrun
  simp only at hdigest hlocator hrun
  rw [hrun, hdigest.1, hdigest.2, hlocator]

/-! ### The evidence tables of a write -/

/-- A database of the current shape records no legacy owner. -/
theorem evidence_written {db : Db} (h : CurrentShape db) (corpus : Corpus) :
    ((written corpus db).evidenceMetadata, (written corpus db).runEvidenceLinks) =
      evidenceRowsWritten [] corpus.runId
        (db.evidenceMetadata, db.runEvidenceLinks.deleteWhere fun key _ => key.1 = corpus.runId)
        corpus.evidenceRecords := by
  have hstage : (repaired (outcomesCleared corpus.runId
      (catalogWritten corpus.runId corpus db))).schema = db.schema := by
    have hcurrent : scoreSummarySchemaIsCurrent (outcomesCleared corpus.runId
        (catalogWritten corpus.runId corpus db)) = true := h.scoreSchema
    rw [repaired_of_current hcurrent]
    rfl
  have howner : legacyOwner corpus.runId (decide
      ((TableName.evidenceMetadata, ColumnName.runId) ∈ (repaired (outcomesCleared corpus.runId
        (catalogWritten corpus.runId corpus db))).schema)) = [] := by
    have hmissing := h.no_legacyRunId
    rw [Db.columnExists] at hmissing
    rw [hstage, hmissing]
    rfl
  change evidenceRowsWritten (legacyOwner _ _) _ _ _ = _
  rw [← howner]
  rfl

/-- The evidence a write leaves under an id. -/
theorem get_evidenceMetadata_written {db : Db} (h : CurrentShape db) (corpus : Corpus)
    (evidenceId : Str) :
    (written corpus db).evidenceMetadata.get evidenceId =
      ((db.evidenceMetadata.get evidenceId).or
        ((recordsOf evidenceId corpus.evidenceRecords).head?.map (blankEvidence []))).map
        (mergedEvidence (recordsOf evidenceId corpus.evidenceRecords)) := by
  have hmetadata := congrArg Prod.fst (evidence_written h corpus)
  rw [← get_evidenceMetadata [] corpus.runId corpus.evidenceRecords (db.evidenceMetadata, _)]
  exact congrArg (Table.get · evidenceId) hmetadata

/-- The evidence link a write leaves under a key. -/
theorem get_runEvidenceLinks_written {db : Db} (h : CurrentShape db) (corpus : Corpus)
    (key : Str × Str) :
    (written corpus db).runEvidenceLinks.get key =
      (Table.lastOf (fun e => (corpus.runId, e.id))
        (finalLink [] (written corpus db).evidenceMetadata) corpus.evidenceRecords key).or
        ((db.runEvidenceLinks.deleteWhere fun key _ => key.1 = corpus.runId).get key) := by
  have htables := Prod.mk.inj (evidence_written h corpus)
  rw [htables.2, htables.1]
  exact get_runEvidenceLinks _ _ _ _ _

/-- The link of a record with a digest needs no stored metadata. -/
theorem finalLink_of_digest {evidence : EvidenceRecord} (h : evidence.integrity ≠ [])
    (owner : Str) (metadata : Table Str EvidenceRow) :
    finalLink owner metadata evidence = evidenceLink evidence (evidenceRow [] evidence) := by
  simp only [finalLink, evidenceLink, if_neg h]

/-- The links of records that all have a digest are those of the records. -/
theorem evidenceLinks_written {db : Db} (h : CurrentShape db) {corpus : Corpus}
    (hdigest : ∀ evidence ∈ corpus.evidence, evidence.integrity ≠ []) :
    (written corpus db).runEvidenceLinks.Agrees (fun key _ => key.1 = corpus.runId)
      (Table.lastOf (fun e => (corpus.runId, e.id))
        (fun e => evidenceLink e (evidenceRow [] e)) corpus.evidenceRecords) := by
  have hlinks : ∀ key, Table.lastOf (fun e => (corpus.runId, e.id))
      (finalLink [] (written corpus db).evidenceMetadata) corpus.evidenceRecords key =
      Table.lastOf (fun e => (corpus.runId, e.id)) (fun e => evidenceLink e (evidenceRow [] e))
        corpus.evidenceRecords key := by
    refine fun key => Table.lastOf_congr fun record hrecord _ => ?_
    obtain ⟨evidence, hmem, rfl⟩ := List.mem_map.mp hrecord
    exact finalLink_of_digest (hdigest evidence hmem) _ _
  have hget := get_runEvidenceLinks_written h corpus
  simp only [hlinks] at hget
  exact Table.agrees_refill (fun _ _ hp => decide_eq_true hp) hget

/-! ### Writing twice -/

/-- Two databases hold the same rows in every table. -/
structure SameTables (db db' : Db) : Prop where
  scanRuns : db.scanRuns.Same db'.scanRuns
  frameworks : db.frameworks.Same db'.frameworks
  controls : db.controls.Same db'.controls
  controlResults : db.controlResults.Same db'.controlResults
  complianceGaps : db.complianceGaps.Same db'.complianceGaps
  evidenceMetadata : db.evidenceMetadata.Same db'.evidenceMetadata
  runEvidenceLinks : db.runEvidenceLinks.Same db'.runEvidenceLinks
  runFrameworkLinks : db.runFrameworkLinks.Same db'.runFrameworkLinks
  runControlLinks : db.runControlLinks.Same db'.runControlLinks
  scoreSummaries : db.scoreSummaries.Same db'.scoreSummaries
  ledger : db.ledger = db'.ledger

/-- The frameworks a write leaves. -/
theorem frameworks_written (corpus : Corpus) (db : Db) : (written corpus db).frameworks =
    Table.insertAll Framework.id (fun f => ⟨f.version⟩) db.frameworks corpus.frameworks := rfl

/-- The controls a write leaves. -/
theorem controls_written (corpus : Corpus) (db : Db) : (written corpus db).controls =
    Table.insertAll Control.id (fun _ => ()) db.controls corpus.controls := rfl

theorem ledger_written (corpus : Corpus) (db : Db) : (written corpus db).ledger = db.ledger := rfl

/-- A second write leaves the runs alone. -/
theorem same_scanRuns_twice (corpus : Corpus) (db : Db) :
    (written corpus (written corpus db)).scanRuns.Same (written corpus db).scanRuns := by
  intro runId
  rw [get_scanRuns_written]
  split
  · next hrun =>
      rw [← hrun, get_scanRuns_written, if_pos hrun, Option.elim_some, mergeRun]
      by_cases hexecuted : corpus.executedAt = []
      · rw [if_pos hexecuted]
      · rw [if_neg hexecuted]
        rcases db.scanRuns.get corpus.runId with _ | old
        · rfl
        · rw [Option.elim_some, mergeRun, if_neg hexecuted]
  · rfl

/-- A second write leaves the gaps alone. -/
theorem same_gaps_twice {db : Db} (h : WellFormed db) (corpus : Corpus) :
    (written corpus (written corpus db)).complianceGaps.Same (written corpus db).complianceGaps := by
  intro rowId
  by_cases hid : ∃ gap ∈ corpusGaps corpus, rowId = gap.rowId corpus.runId
  · -- Under an id of the run both loops start without a row.
    obtain ⟨gap, -, hid⟩ := hid
    have hfree : ∀ {db : Db}, WellFormed db → (db.complianceGaps.deleteWhere fun _ row =>
        row.runId = some corpus.runId).get rowId = none := by
      intro db hdb
      rw [Option.eq_none_iff_forall_ne_some]
      exact fun row hrow => hdb.ne_gapRowId hrow gap hid
    rw [get_complianceGaps_written, get_complianceGaps_written, hfree h, hfree (h.written corpus)]
  · have hne : ∀ gap ∈ corpusGaps corpus, rowId ≠ gap.rowId corpus.runId :=
      fun gap hgap heq => hid ⟨gap, hgap, heq⟩
    rw [get_complianceGaps_written, foldl_gapTurn_of_ne hne]
    split
    · next hlegacy =>
        rw [get_complianceGaps_written, foldl_gapTurn_of_ne hne, if_pos hlegacy]
    · next hlegacy =>
        rw [Table.get_deleteWhere, get_complianceGaps_written, foldl_gapTurn_of_ne hne,
          if_neg hlegacy, Table.get_deleteWhere, Option.filter_filter]
        simp

/-- A second write leaves the evidence alone. -/
theorem same_evidenceMetadata_twice {db : Db} (h : CurrentShape db) (corpus : Corpus) :
    (written corpus (written corpus db)).evidenceMetadata.Same
      (written corpus db).evidenceMetadata := by
  intro evidenceId
  rw [get_evidenceMetadata_written (h.written corpus), get_evidenceMetadata_written h]
  rcases hrows : (db.evidenceMetadata.get evidenceId).or
      ((recordsOf evidenceId corpus.evidenceRecords).head?.map (blankEvidence [])) with _ | row
  · rw [Option.or_eq_none_iff] at hrows
    rw [Option.map_none, hrows.2]
    rfl
  · rw [Option.map_some, Option.some_or, Option.map_some, mergedEvidence_twice]

/-- A second write leaves the evidence links alone. -/
theorem same_runEvidenceLinks_twice {db : Db} (h : CurrentShape db) (corpus : Corpus) :
    (written corpus (written corpus db)).runEvidenceLinks.Same
      (written corpus db).runEvidenceLinks := by
  have hlinks : ∀ key, Table.lastOf (fun e => (corpus.runId, e.id))
      (finalLink [] (written corpus (written corpus db)).evidenceMetadata)
        corpus.evidenceRecords key = Table.lastOf (fun e => (corpus.runId, e.id))
      (finalLink [] (written corpus db).evidenceMetadata) corpus.evidenceRecords key := by
    intro key
    refine Table.lastOf_congr fun evidence _ _ => ?_
    rw [finalLink, finalLink, same_evidenceMetadata_twice h]
  refine Table.same_refill (get_runEvidenceLinks_written h corpus) fun key => ?_
  rw [get_runEvidenceLinks_written (h.written corpus), hlinks]

/-- **Writing a corpus twice is writing it once.** -/
theorem SameTables.written_twice {db : Db} (h : WellFormed db) (corpus : Corpus) :
    SameTables (written corpus (written corpus db)) (written corpus db) where
  scanRuns := same_scanRuns_twice corpus db
  frameworks := by
    rw [frameworks_written, frameworks_written]
    exact Table.same_insertAll _ _ _ _
  controls := by
    rw [controls_written, controls_written]
    exact Table.same_insertAll _ _ _ _
  controlResults := Table.same_refill (get_controlResults_written corpus db)
    (get_controlResults_written corpus (written corpus db))
  complianceGaps := same_gaps_twice h corpus
  evidenceMetadata := same_evidenceMetadata_twice h.toCurrentShape corpus
  runEvidenceLinks := same_runEvidenceLinks_twice h.toCurrentShape corpus
  runFrameworkLinks := Table.same_refill (get_runFrameworkLinks_written corpus db)
    (get_runFrameworkLinks_written corpus (written corpus db))
  runControlLinks := Table.same_refill (get_runControlLinks_written corpus db)
    (get_runControlLinks_written corpus (written corpus db))
  scoreSummaries := Table.same_refill (get_scoreSummaries_written h.toCurrentShape corpus)
    (get_scoreSummaries_written (h.written corpus).toCurrentShape corpus)
  ledger := ledger_written corpus _

/-! ### Rewrites -/

/-- Two databases hold the same rows of a run in the tables a write clears and refills. -/
structure SameRun (runId : Str) (db db' : Db) : Prop where
  controlResults : db.controlResults.SameWhere (fun _ row => row.runId = runId) db'.controlResults
  complianceGaps :
    db.complianceGaps.SameWhere (fun _ row => row.runId = some runId) db'.complianceGaps
  scoreSummaries :
    db.scoreSummaries.SameWhere (fun _ row => row.runId = some runId) db'.scoreSummaries
  runFrameworkLinks :
    db.runFrameworkLinks.SameWhere (fun key _ => key.1 = runId) db'.runFrameworkLinks
  runControlLinks : db.runControlLinks.SameWhere (fun key _ => key.1 = runId) db'.runControlLinks

/-- A write leaves the same rows of its run whatever the database was. -/
theorem sameRun_written {db db' : Db} (h : WellFormed db) (h' : WellFormed db')
    (corpus : Corpus) : SameRun corpus.runId (written corpus db) (written corpus db') := by
  have hrows := runRows_written h.toCurrentShape corpus
  have hrows' := runRows_written h'.toCurrentShape corpus
  exact
    { controlResults := hrows.results.sameWhere hrows'.results
      complianceGaps := (gapRows_written h corpus).sameWhere (gapRows_written h' corpus)
      scoreSummaries := hrows.scores.sameWhere hrows'.scores
      runFrameworkLinks := hrows.frameworkLinks.sameWhere hrows'.frameworkLinks
      runControlLinks := hrows.controlLinks.sameWhere hrows'.controlLinks }

/-- **A rewrite fully replaces a run**: after a corpus `A` of the run, a corpus `B` leaves the
rows of the run it leaves without `A`, those of evidence included when all records of `B`
have a digest; and writing `B` once more changes no table. -/
theorem rewrite_replaces_run {A B : Corpus} {faultsA faultsAB faultsB faultsBB : ℕ → Bool}
    {db dbA dbAB dbB dbBB : Db} (hreach : Relation.ReflTransGen AcceptedStep freshDb db)
    (hrun : A.runId = B.runId) (hA : writeCompletedCorpus A faultsA db = (.ok (), dbA))
    (hAB : writeCompletedCorpus B faultsAB dbA = (.ok (), dbAB))
    (hB : writeCompletedCorpus B faultsB db = (.ok (), dbB))
    (hBB : writeCompletedCorpus B faultsBB dbB = (.ok (), dbBB)) :
    SameRun A.runId dbAB dbB ∧
      ((∀ evidence ∈ B.evidence, evidence.integrity ≠ []) →
        dbAB.runEvidenceLinks.SameWhere (fun key _ => key.1 = A.runId) dbB.runEvidenceLinks) ∧
      SameTables dbBB dbB := by
  have hwf := wellFormed_of_reachable hreach
  rw [(writeCompletedCorpus_ok hBB).eq_written, (writeCompletedCorpus_ok hB).eq_written,
    (writeCompletedCorpus_ok hAB).eq_written, (writeCompletedCorpus_ok hA).eq_written, hrun]
  refine ⟨sameRun_written (hwf.written A) hwf B, fun hdigest => ?_, .written_twice hwf B⟩
  exact (evidenceLinks_written (hwf.written A).toCurrentShape hdigest).sameWhere
    (evidenceLinks_written hwf.toCurrentShape hdigest)

/-- A corpus of run `a` whose result passes, with one evidence record. -/
def passedCorpus : Corpus where
  executedAt := "later".toList
  runId := "a".toList
  controls := [⟨"gdpr".toList, "c1".toList, "Encryption".toList, "major".toList, 1, []⟩]
  results := [⟨some "gdpr".toList, ⟨"c1".toList, "r1".toList, .pass, "major".toList, 1,
    ["e1".toList], none, "later".toList, []⟩⟩]
  evidence := [⟨"e1".toList, "file".toList, "disk.tf".toList, "ab".toList, .unclassified⟩]
  frameworks := [⟨"gdpr".toList, "1".toList, []⟩]

theorem rewrite_replaces_run_passed :
    SameRun "a".toList (written passedCorpus (written (failedCorpus "a".toList) freshDb))
        (written passedCorpus freshDb) ∧
      (written passedCorpus (written (failedCorpus "a".toList) freshDb)).runEvidenceLinks.SameWhere
        (fun key _ => key.1 = "a".toList) (written passedCorpus freshDb).runEvidenceLinks ∧
      SameTables (written passedCorpus (written passedCorpus freshDb))
        (written passedCorpus freshDb) := by
  have hpassed : ∀ db, CurrentShape db → writeCompletedCorpus passedCorpus (fun _ => false) db =
      (.ok (), written passedCorpus db) :=
    fun db hdb => writeCompletedCorpus_accepts hdb (by decide) (by decide)
  have hfailed : writeCompletedCorpus (failedCorpus "a".toList) (fun _ => false) freshDb =
      (.ok (), written (failedCorpus "a".toList) freshDb) :=
    writeCompletedCorpus_accepts currentShape_freshDb (by decide) (by decide)
  have hsame : (failedCorpus "a".toList).runId = passedCorpus.runId := rfl
  obtain ⟨hrun, hlinks, htables⟩ := rewrite_replaces_run .refl hsame hfailed
    (hpassed _ (currentShape_freshDb.written _)) (hpassed _ currentShape_freshDb)
    (hpassed _ (currentShape_freshDb.written _))
  exact ⟨hrun, hlinks (by decide), htables⟩

end SovriAgent
