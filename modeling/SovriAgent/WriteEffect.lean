import SovriAgent.WriteCorpus

/-!
# What a Write Leaves

The effect of an accepted write as a function on databases: `written corpus db`, one
equation for each table. The statements of the write path are connected to it once, by
`writeCompletedCorpus_ok`; everything later speaks about the tables.

## Main results

* `writeCompletedCorpus_ok`: an accepted write leaves `written corpus db`.
* `writeCompletedCorpus_error`: a rejected write leaves the database as it was.
* `writeCompletedCorpus_accepted`: what an accepted corpus satisfies.
* `get_countResults`: the counting loop counts the results of each framework.
-/

namespace SovriAgent

open Keyed Transaction Transaction.Tx

/-! ### The repair of the score table -/

/-- The score row of a group. -/
def ScoreGroup.row (group : ScoreGroup) : ScoreRow :=
  scoreRow group.runId group.frameworkId group.passCount group.failCount group.warningCount

/-- The score row id of a group. -/
def ScoreGroup.rowId (group : ScoreGroup) : Str :=
  scoreSummaryRowId group.runId group.frameworkId

/-- The score table without legacy rows and with the rows of the given groups. -/
def scoreRowsReplaced (summaries : List ScoreGroup) (db : Db) : Db :=
  { db with
    scoreSummaries := Table.replaceAll ScoreGroup.rowId ScoreGroup.row
      (db.scoreSummaries.deleteWhere fun _ row => row.isLegacy) summaries }

/-- The database with its score rows recomputed. -/
def backfilled (db : Db) : Db :=
  if scoredColumns.all db.columnExists then scoreRowsReplaced (scoreGroups db.controlResults) db
  else db

/-- Adding a score column: whether it was missing, and the database with it. -/
def columnAdded (name : ColumnName) (db : Db) : Bool × Db :=
  if db.columnExists (.scoreSummaries, name) then (false, db) else (true, addColumn (.scoreSummaries, name) db)

/-- The score rows recomputed if a column was added or a legacy row remains. -/
def backfilledIf (schemaRepaired : Bool) (db : Db) : Db :=
  if schemaRepaired then backfilled db
  else if legacyScoreSummaryRowsExist db then backfilled db else db

/-- The score table with `NOT NULL` columns. -/
def rebuilt (db : Db) : Db :=
  if db.scoreColumnsNotNull then db else { db with scoreColumnsNotNull := true }

/-- The database with its score table in the current shape. -/
def repaired (db : Db) : Db :=
  let runId := columnAdded .runId db
  let frameworkId := columnAdded .frameworkId runId.2
  let pass := columnAdded .passCount frameworkId.2
  let fail := columnAdded .failCount pass.2
  let warning := columnAdded .warningCount fail.2
  rebuilt (backfilledIf (runId.1 || frameworkId.1 || pass.1 || fail.1 || warning.1) warning.2)

/-- Replacing the score rows. -/
theorem hasEffect_replaceScoreRows (summaries : List ScoreGroup) :
    (replaceScoreRows summaries).HasEffect (scoreRowsReplaced summaries) := by
  have hloop : ∀ groups : List ScoreGroup, (groups.forM fun group =>
      insertScoreRow group.runId group.frameworkId group.passCount group.failCount
        group.warningCount).HasEffect fun db =>
      { db with
        scoreSummaries :=
          Table.replaceAll ScoreGroup.rowId ScoreGroup.row db.scoreSummaries groups } :=
    hasEffect_forM (fun _ => hasEffect_sql _ _) (fun _ => rfl) fun _ _ _ => rfl
  exact (hasEffect_seq (hasEffect_sql _ _) (hloop summaries)).congr fun _ => rfl

/-- Filling the scores from the results. -/
theorem hasEffect_backfill : backfillScoreSummariesFromResults.HasEffect backfilled := by
  have hgroups : (ask scoredColumns (fun db => scoreGroups db.controlResults) >>=
      replaceScoreRows).HasEffect fun db => scoreRowsReplaced (scoreGroups db.controlResults) db :=
    hasEffect_ask _ _ hasEffect_replaceScoreRows
  have hbranch : ∀ complete : Bool, (if complete then
      ask scoredColumns (fun db => scoreGroups db.controlResults) >>= replaceScoreRows
      else pure ()).HasEffect fun db =>
        if complete then scoreRowsReplaced (scoreGroups db.controlResults) db else db :=
    fun complete => hasEffect_ite hgroups (yields_pure ())
  exact hasEffect_ask [] _ hbranch

/-- Adding a column to the scores, and whether it was missing. -/
theorem yields_addScoreColumnIfMissing (name : ColumnName) :
    (addScoreColumnIfMissing name).Yields (columnAdded name) := by
  have hadd : (alterAddColumn (.scoreSummaries, name) >>=
      fun _ => pure true).Yields fun db => (true, addColumn (.scoreSummaries, name) db) :=
    yields_bind (hasEffect_alterAddColumn _) fun _ => yields_pure true
  have hbranch : ∀ present : Bool, (if present then pure false
      else alterAddColumn (.scoreSummaries, name) >>= fun _ => pure true).Yields fun db =>
        if present then (false, db) else (true, addColumn (.scoreSummaries, name) db) := by
    intro present
    cases present
    · exact hadd
    · exact yields_pure false
  exact yields_bind (yields_ask _ _) hbranch

/-- Filling the scores of a table that was repaired. -/
theorem hasEffect_backfillIfRepaired (schemaRepaired : Bool) :
    (backfillIfRepaired schemaRepaired).HasEffect (backfilledIf schemaRepaired) := by
  have hlegacy : ∀ legacy : Bool, (if legacy then backfillScoreSummariesFromResults
      else pure ()).HasEffect fun db => if legacy then backfilled db else db :=
    fun legacy => hasEffect_ite hasEffect_backfill (yields_pure ())
  exact hasEffect_ite hasEffect_backfill (hasEffect_ask _ _ hlegacy)

/-- Rebuilding a table that allows `NULL`. -/
theorem hasEffect_rebuildIfNullable : rebuildIfNullable.HasEffect rebuilt := by
  have hrebuild : rebuildScoreSummariesWithNotNullColumns.HasEffect fun db =>
      { db with scoreColumnsNotNull := true } := by
    refine hasEffect_execute fun db db' h => ?_
    split at h
    · exact (Except.ok.inj h).symm
    · cases h
  have hbranch : ∀ notNull : Bool, (if notNull then pure ()
      else rebuildScoreSummariesWithNotNullColumns).HasEffect fun db =>
        if notNull then db else { db with scoreColumnsNotNull := true } :=
    fun notNull => hasEffect_ite (yields_pure ()) hrebuild
  exact hasEffect_ask [] _ hbranch

/-- **The effect of a repair** of the score table. -/
theorem hasEffect_addMissingScoreSummaryColumns :
    addMissingScoreSummaryColumns.HasEffect repaired := by
  have hfinish : ∀ schemaRepaired, (backfillIfRepaired schemaRepaired >>=
      fun _ => rebuildIfNullable).HasEffect fun db => rebuilt (backfilledIf schemaRepaired db) :=
    fun schemaRepaired =>
      hasEffect_seq (hasEffect_backfillIfRepaired schemaRepaired) hasEffect_rebuildIfNullable
  exact yields_bind (yields_addScoreColumnIfMissing .runId) fun a =>
    yields_bind (yields_addScoreColumnIfMissing .frameworkId) fun b =>
      yields_bind (yields_addScoreColumnIfMissing .passCount) fun c =>
        yields_bind (yields_addScoreColumnIfMissing .failCount) fun d =>
          yields_bind (yields_addScoreColumnIfMissing .warningCount) fun e =>
            hfinish (a || b || c || d || e)

/-! ### The repair leaves the other tables alone -/

/-- Two databases differ at most in the score table and the schema. -/
def ScoresApart (db db' : Db) : Prop :=
  db' = { db with
    schema := db'.schema
    scoreColumnsNotNull := db'.scoreColumnsNotNull
    scoreSummaries := db'.scoreSummaries }

theorem ScoresApart.refl (db : Db) : ScoresApart db db := rfl

theorem ScoresApart.trans {db db' db'' : Db} (h : ScoresApart db db')
    (h' : ScoresApart db' db'') : ScoresApart db db'' := by
  rw [ScoresApart] at *
  rw [h', h]

/-- Adding a column to the scores leaves the other tables alone. -/
theorem scoresApart_columnAdded (name : ColumnName) (db : Db) :
    ScoresApart db (columnAdded name db).2 := by
  rw [columnAdded]
  split <;> rfl

/-- Filling the scores leaves the other tables alone. -/
theorem scoresApart_backfilled (db : Db) : ScoresApart db (backfilled db) := by
  rw [backfilled]
  split <;> rfl

theorem scoresApart_backfilledIf (schemaRepaired : Bool) (db : Db) :
    ScoresApart db (backfilledIf schemaRepaired db) := by
  rw [backfilledIf]
  split
  · exact scoresApart_backfilled db
  · split
    · exact scoresApart_backfilled db
    · exact .refl db

/-- Rebuilding the scores leaves the other tables alone. -/
theorem scoresApart_rebuilt (db : Db) : ScoresApart db (rebuilt db) := by
  rw [rebuilt]
  split <;> rfl

/-- A repair leaves the other tables alone. -/
theorem scoresApart_repaired (db : Db) : ScoresApart db (repaired db) :=
  (scoresApart_columnAdded _ _).trans <| (scoresApart_columnAdded _ _).trans <|
    (scoresApart_columnAdded _ _).trans <| (scoresApart_columnAdded _ _).trans <|
      (scoresApart_columnAdded _ _).trans <| (scoresApart_backfilledIf _ _).trans <|
        scoresApart_rebuilt _

/-- A score table of the current shape is not repaired. -/
theorem repaired_of_current {db : Db} (h : scoreSummarySchemaIsCurrent db = true) :
    repaired db = db := by
  simp only [scoreSummarySchemaIsCurrent, scoreColumns, columnsOf, List.map_cons, List.map_nil,
    List.all_cons, List.all_nil, Bool.and_true, Bool.and_eq_true, Bool.not_eq_true'] at h
  obtain ⟨⟨⟨hrun, hframework, hpass, hfail, hwarning⟩, hnotNull⟩, hlegacy⟩ := h
  simp only [repaired, columnAdded, hrun, hframework, hpass, hfail, hwarning, if_true,
    backfilledIf, Bool.or_self, Bool.false_eq_true, if_false, hlegacy, rebuilt, hnotNull]

/-! ### The stages of a write -/

/-- The run and its catalog links. -/
def catalogWritten (runId : Str) (corpus : Corpus) (db : Db) : Db :=
  { db with
    scanRuns := db.scanRuns.upsert runId ⟨corpus.executedAt⟩ (mergeRun corpus.executedAt)
    frameworks := Table.insertAll Framework.id (fun f => ⟨f.version⟩) db.frameworks
      corpus.frameworks
    runFrameworkLinks := Table.overwriteAll (fun f => (runId, f.id)) frameworkLink
      (db.runFrameworkLinks.deleteWhere fun k _ => k.1 = runId) corpus.frameworks
    controls := Table.insertAll Control.id (fun _ => ()) db.controls corpus.controls
    runControlLinks := Table.overwriteAll (fun c => (runId, c.frameworkId, c.id)) controlLink
      (db.runControlLinks.deleteWhere fun k _ => k.1 = runId) corpus.controls }

/-- The results and gaps without those of the run. -/
def outcomesCleared (runId : Str) (db : Db) : Db :=
  { db with
    controlResults := db.controlResults.deleteWhere fun _ row => row.runId = runId
    complianceGaps := db.complianceGaps.deleteWhere fun _ row => row.runId = some runId }

/-- The score row id of a counted framework of a run. -/
def summaryRowId (runId : Str) (summary : Str × ScoreSummaryCounts) : Str :=
  scoreSummaryRowId runId summary.1

/-- The score row of a counted framework of a run. -/
def summaryRow (runId : Str) (summary : Str × ScoreSummaryCounts) : ScoreRow :=
  scoreRow runId summary.1 summary.2.pass summary.2.fail summary.2.warning

/-- The score table, repaired and with the summaries of the corpus's run. -/
def scoresWritten (corpus : Corpus) (db : Db) : Db :=
  { db with
    schema := (repaired db).schema
    scoreColumnsNotNull := (repaired db).scoreColumnsNotNull
    scoreSummaries := Table.replaceAll (summaryRowId corpus.runId) (summaryRow corpus.runId)
      ((repaired db).scoreSummaries.deleteWhere fun _ row => row.runId = some corpus.runId)
      (scoreSummaryCounts corpus) }

/-- The result table with the results of a run. -/
def resultsWritten (runId : Str) (results : List ScopedResult)
    (table : Table Str ControlResultRow) : Table Str ControlResultRow :=
  Table.overwriteAll (resultRowId runId) (resultRow runId) table results

/-- The gap table with one more gap. -/
def gapWritten (runId : Str) (table : Table Str GapRow) (gap : ScopedGap) : Table Str GapRow :=
  (table.deleteWhere fun k _ => k = gap.legacyId).insertOrIgnore (gap.rowId runId) (gap.row runId)

/-- The gap table with the gaps of a run. -/
def gapsWritten (runId : Str) (gaps : List ScopedGap) (table : Table Str GapRow) :
    Table Str GapRow :=
  gaps.foldl (gapWritten runId) table

/-- The gaps of a corpus. -/
def corpusGaps (corpus : Corpus) : List ScopedGap :=
  corpus.results.filterMap scopedGap

/-- The metadata and the links of evidence. -/
abbrev EvidenceTables := Table Str EvidenceRow × Table (Str × Str) EvidenceLinkRow

/-- The links with the one of a record whose metadata is stored. -/
def linkWritten (runId : Str) (metadata : Table Str EvidenceRow)
    (links : Table (Str × Str) EvidenceLinkRow) (evidence : EvidenceRecord) :
    Table (Str × Str) EvidenceLinkRow :=
  match metadata.get evidence.id with
  | none => links
  | some stored =>
      links.upsert (runId, evidence.id) (evidenceLink evidence stored)
        fun _ => evidenceLink evidence stored

/-- The metadata with the one of a record. -/
def metadataWritten (owner : Str) (metadata : Table Str EvidenceRow) (evidence : EvidenceRecord) :
    Table Str EvidenceRow :=
  metadata.upsert evidence.id (evidenceRow owner evidence) (mergeEvidence evidence)

/-- The evidence tables with one more record. -/
def evidenceWritten (owner runId : Str) (tables : EvidenceTables) (evidence : EvidenceRecord) :
    EvidenceTables :=
  let metadata := metadataWritten owner tables.1 evidence
  (metadata, linkWritten runId metadata tables.2 evidence)

/-- The evidence tables with the evidence of a run. -/
def evidenceRowsWritten (owner runId : Str) (tables : EvidenceTables)
    (records : List EvidenceRecord) : EvidenceTables :=
  records.foldl (evidenceWritten owner runId) tables

/-- The owner new metadata is recorded under: only legacy schemas have the column. -/
def legacyOwner (runId : Str) (hasLegacyRunId : Bool) : Str :=
  if hasLegacyRunId then runId else []

/-- The evidence tables of an accepted write. -/
def corpusEvidence (corpus : Corpus) (hasLegacyRunId : Bool) (tables : EvidenceTables) :
    EvidenceTables :=
  evidenceRowsWritten (legacyOwner corpus.runId hasLegacyRunId) corpus.runId
    (tables.1, tables.2.deleteWhere fun k _ => k.1 = corpus.runId) corpus.evidenceRecords

/-- The result, gap and evidence tables of a write, over those the earlier stages left. -/
def outcomesWritten (corpus : Corpus) (db : Db) : Db :=
  let evidence := corpusEvidence corpus (db.columnExists (.evidenceMetadata, .runId))
    (db.evidenceMetadata, db.runEvidenceLinks)
  { db with
    controlResults := resultsWritten corpus.runId corpus.results db.controlResults
    complianceGaps :=
      gapsWritten corpus.runId (corpusGaps corpus) db.complianceGaps
    evidenceMetadata := evidence.1
    runEvidenceLinks := evidence.2 }

/-- **The database an accepted write leaves.** -/
def written (corpus : Corpus) (db : Db) : Db :=
  outcomesWritten corpus <| scoresWritten corpus <| outcomesCleared corpus.runId <|
    catalogWritten corpus.runId corpus db

/-- The score table a write starts from, when no repair is due. -/
theorem scoreSummaries_written {corpus : Corpus} {db : Db}
    (h : scoreSummarySchemaIsCurrent db = true) :
    (written corpus db).scoreSummaries =
      Table.replaceAll (summaryRowId corpus.runId) (summaryRow corpus.runId)
        (db.scoreSummaries.deleteWhere fun _ row => row.runId = some corpus.runId)
        (scoreSummaryCounts corpus) := by
  have hrepaired : repaired (outcomesCleared corpus.runId (catalogWritten corpus.runId corpus db)) =
      outcomesCleared corpus.runId (catalogWritten corpus.runId corpus db) :=
    repaired_of_current h
  change Table.replaceAll _ _ ((repaired _).scoreSummaries.deleteWhere _) _ = _
  rw [hrepaired]
  rfl

/-! ### The statements have these effects -/

/-- Writing the catalog of a run. -/
theorem hasEffect_writeRunCatalog (runId : Str) (corpus : Corpus) :
    (writeRunCatalog runId corpus).HasEffect (catalogWritten runId corpus) := by
  have hframeworks : ∀ frameworks : List Framework,
      (frameworks.forM (writeFramework runId)).HasEffect fun db =>
      { db with
        frameworks := Table.insertAll Framework.id (fun f => ⟨f.version⟩) db.frameworks frameworks
        runFrameworkLinks := Table.overwriteAll (fun f => (runId, f.id)) frameworkLink
          db.runFrameworkLinks frameworks } :=
    hasEffect_forM (fun _ => hasEffect_seq (hasEffect_sql _ _) (hasEffect_sql _ _))
      (fun _ => rfl) fun _ _ _ => rfl
  have hcontrols : ∀ controls : List Control,
      (controls.forM (writeControl runId)).HasEffect fun db =>
      { db with
        controls := Table.insertAll Control.id (fun _ => ()) db.controls controls
        runControlLinks := Table.overwriteAll (fun c => (runId, c.frameworkId, c.id)) controlLink
          db.runControlLinks controls } :=
    hasEffect_forM (fun _ => hasEffect_seq (hasEffect_sql _ _) (hasEffect_sql _ _))
      (fun _ => rfl) fun _ _ _ => rfl
  exact (hasEffect_seq (hasEffect_sql _ _) <| hasEffect_seq (hasEffect_sql _ _) <|
    hasEffect_seq (hasEffect_sql _ _) <|
      hasEffect_seq (hframeworks _) (hcontrols _)).congr fun _ => rfl

/-- Deleting what a run had before. -/
theorem hasEffect_clearRunOutcomes (runId : Str) :
    (clearRunOutcomes runId).HasEffect (outcomesCleared runId) :=
  (hasEffect_seq (hasEffect_sql _ _) (hasEffect_sql _ _)).congr fun _ => rfl

/-- Writing the scores of a run. -/
theorem hasEffect_writeScoreSummaries (corpus : Corpus) :
    (writeScoreSummaries corpus).HasEffect (scoresWritten corpus) := by
  have hloop : ∀ summaries : List (Str × ScoreSummaryCounts), (summaries.forM fun summary =>
      insertScoreRow corpus.runId summary.1 summary.2.pass summary.2.fail
        summary.2.warning).HasEffect fun db =>
      { db with
        scoreSummaries := Table.replaceAll (summaryRowId corpus.runId) (summaryRow corpus.runId)
          db.scoreSummaries summaries } :=
    hasEffect_forM (fun _ => hasEffect_sql _ _) (fun _ => rfl) fun _ _ _ => rfl
  refine (hasEffect_seq hasEffect_addMissingScoreSummaryColumns <|
    hasEffect_seq (hasEffect_sql _ _) (hloop _)).congr fun db => ?_
  rw [scoresApart_repaired db]
  rfl

/-- Writing results, one by one. -/
theorem hasEffect_writeResults (runId : Str) (results : List ScopedResult) :
    (results.forM (writeResult runId)).HasEffect fun db =>
      { db with controlResults := resultsWritten runId results db.controlResults } := by
  revert results
  exact hasEffect_forM (fun _ => hasEffect_sql _ _) (fun _ => rfl) fun _ _ _ => rfl

/-- Writing the gaps of results, one by one. -/
theorem hasEffect_writeGapRows (runId : Str) (results : List ScopedResult) :
    (writeGapRows runId results).HasEffect fun db =>
      { db with
        complianceGaps :=
          gapsWritten runId (results.filterMap scopedGap) db.complianceGaps } := by
  have hloop : ∀ gaps : List ScopedGap, (gaps.forM (writeGap runId)).HasEffect fun db =>
      { db with complianceGaps := gapsWritten runId gaps db.complianceGaps } :=
    hasEffect_forM (fun _ => hasEffect_seq (hasEffect_sql _ _) (hasEffect_sql _ _))
      (fun _ => rfl) fun _ _ _ => rfl
  exact hloop _

/-- Writing a record of evidence, and its link. -/
theorem hasEffect_writeEvidence (runId : Str) (hasLegacyRunId : Bool)
    (evidence : EvidenceRecord) :
    (writeEvidence runId hasLegacyRunId evidence).HasEffect fun db =>
      let tables := evidenceWritten (legacyOwner runId hasLegacyRunId) runId
        (db.evidenceMetadata, db.runEvidenceLinks) evidence
      { db with evidenceMetadata := tables.1, runEvidenceLinks := tables.2 } := by
  have hmetadata : (writeEvidenceMetadata runId hasLegacyRunId evidence).HasEffect fun db =>
      { db with
        evidenceMetadata :=
          metadataWritten (legacyOwner runId hasLegacyRunId) db.evidenceMetadata evidence } := by
    rw [writeEvidenceMetadata]
    cases hasLegacyRunId
    · rw [if_neg Bool.false_ne_true]
      exact hasEffect_sql _ _
    · rw [if_pos rfl]
      exact hasEffect_sql _ _
  have hlink : (writeEvidenceLink runId evidence).HasEffect fun db =>
      { db with
        runEvidenceLinks :=
          linkWritten runId db.evidenceMetadata db.runEvidenceLinks evidence } := by
    refine (hasEffect_sql _ _).congr fun db => ?_
    rw [linkWritten]
    cases db.evidenceMetadata.get evidence.id <;> rfl
  exact hasEffect_seq hmetadata hlink

/-- Writing the evidence of a corpus. -/
theorem hasEffect_writeEvidenceRows (runId : Str) (corpus : Corpus) (hrun : corpus.runId = runId) :
    (writeEvidenceRows runId corpus).HasEffect fun db =>
      let tables := corpusEvidence corpus (db.columnExists (.evidenceMetadata, .runId))
        (db.evidenceMetadata, db.runEvidenceLinks)
      { db with evidenceMetadata := tables.1, runEvidenceLinks := tables.2 } := by
  subst hrun
  have hloop : ∀ (hasLegacyRunId : Bool) (records : List EvidenceRecord),
      (records.forM (writeEvidence corpus.runId hasLegacyRunId)).HasEffect fun db =>
      let tables := evidenceRowsWritten (legacyOwner corpus.runId hasLegacyRunId) corpus.runId
        (db.evidenceMetadata, db.runEvidenceLinks) records
      { db with evidenceMetadata := tables.1, runEvidenceLinks := tables.2 } :=
    fun hasLegacyRunId => hasEffect_forM (hasEffect_writeEvidence corpus.runId hasLegacyRunId)
      (fun _ => rfl) fun _ _ _ => rfl
  exact (hasEffect_seq (hasEffect_sql _ _) <| hasEffect_ask _ _ fun hasLegacyRunId =>
    hloop hasLegacyRunId corpus.evidenceRecords).congr fun _ => rfl

/-- **The effect of a write** that succeeds. -/
theorem hasEffect_writeTransaction (corpus : Corpus) :
    (writeTransaction corpus).HasEffect (written corpus) :=
  (hasEffect_seq (hasEffect_writeRunCatalog corpus.runId corpus) <|
    hasEffect_seq (hasEffect_clearRunOutcomes corpus.runId) <|
      hasEffect_seq (hasEffect_writeScoreSummaries corpus) <|
        hasEffect_seq (hasEffect_writeResults corpus.runId corpus.results) <|
          hasEffect_seq (hasEffect_writeGapRows corpus.runId corpus.results) <|
            hasEffect_writeEvidenceRows corpus.runId corpus rfl).congr fun _ => rfl

/-! ### Accepted and rejected writes -/

/-- Whether a validated corpus has a metadata record for exactly the frameworks it refers
to. -/
theorem validateCompletedCorpus_ok {corpus : Corpus} (h : validateCompletedCorpus corpus = .ok ())
    (frameworkId : Str) :
    frameworkId ∈ referencedFrameworks corpus ↔ frameworkId ∈ frameworkMetadata corpus := by
  have hempty : ∀ {items : List Str}, orderedSet items = [] → items = [] := by
    intro items hitems
    refine List.eq_nil_iff_forall_not_mem.mpr fun s hs => ?_
    have hs' := mem_orderedSet.mpr hs
    rw [hitems] at hs'
    cases hs'
  rw [validateCompletedCorpus] at h
  split_ifs at h with hmissing hunused
  rw [not_not] at hmissing hunused
  have hmissing := List.filter_eq_nil_iff.mp (hempty hmissing)
  have hunused := List.filter_eq_nil_iff.mp (hempty hunused)
  constructor
  · intro hmem
    simpa using hmissing frameworkId hmem
  · intro hmem
    simpa using hunused frameworkId hmem

/-- What an accepted write has checked, and what it leaves. -/
structure AcceptedWrite (corpus : Corpus) (db db' : Db) : Prop where
  runId_ne : trim corpus.runId ≠ []
  referenced_iff : ∀ frameworkId,
    frameworkId ∈ referencedFrameworks corpus ↔ frameworkId ∈ frameworkMetadata corpus
  eq_written : db' = written corpus db

/-- **An accepted write** has a run id, a catalog that is the referenced one, and leaves
`written corpus db`. -/
theorem writeCompletedCorpus_ok {corpus : Corpus} {faults : ℕ → Bool} {db db' : Db}
    (h : writeCompletedCorpus corpus faults db = (.ok (), db')) : AcceptedWrite corpus db db' := by
  rw [writeCompletedCorpus] at h
  split_ifs at h with hrun
  · cases (Prod.mk.inj h).1
  · rcases hvalidate : validateCompletedCorpus corpus with e | ⟨⟩
    · rw [hvalidate] at h
      cases (Prod.mk.inj h).1
    · rw [hvalidate] at h
      have heffect := hasEffect_writeTransaction corpus _ _ _ (transaction_ok h)
      exact ⟨hrun, validateCompletedCorpus_ok hvalidate, (Prod.mk.inj heffect).2⟩

/-- **A rejected write leaves the database as it was.** -/
theorem writeCompletedCorpus_error {corpus : Corpus} {faults : ℕ → Bool} {db db' : Db}
    {e : LocalDatabaseError} (h : writeCompletedCorpus corpus faults db = (.error e, db')) :
    db' = db := by
  rw [writeCompletedCorpus] at h
  split_ifs at h with hrun
  · exact (Prod.mk.inj h).2.symm
  · rcases hvalidate : validateCompletedCorpus corpus with e' | ⟨⟩
    · rw [hvalidate] at h
      exact (Prod.mk.inj h).2.symm
    · rw [hvalidate] at h
      exact transaction_error h

/-! ### The counts of the scores -/

/-- The frameworks a corpus is scored under. -/
def scoredFrameworks (results : List ScopedResult) : List Str :=
  results.filterMap scoredFramework

/-- The number of results of a framework with a status. -/
def resultCount (results : List ScopedResult) (frameworkId : Str) (status : Status) : ℕ :=
  results.countP fun item => scoredFramework item = some frameworkId ∧ item.result.status = status

/-- The three counts of a framework. -/
def resultCounts (results : List ScopedResult) (frameworkId : Str) : ScoreSummaryCounts :=
  ⟨resultCount results frameworkId .pass, resultCount results frameworkId .fail,
    resultCount results frameworkId .warning⟩

/-- One more result counts if it is of the framework and the status. -/
theorem resultCount_concat (results : List ScopedResult) (item : ScopedResult)
    (frameworkId : Str) (status : Status) :
    resultCount (results ++ [item]) frameworkId status = resultCount results frameworkId status +
      if scoredFramework item = some frameworkId ∧ item.result.status = status then 1 else 0 := by
  rw [resultCount, List.countP_append, List.countP_singleton]
  simp [resultCount]

/-- A result of another framework does not count. -/
theorem resultCounts_concat_of_ne {item : ScopedResult} {frameworkId : Str}
    (h : scoredFramework item ≠ some frameworkId) (results : List ScopedResult) :
    resultCounts (results ++ [item]) frameworkId = resultCounts results frameworkId := by
  simp [resultCounts, resultCount_concat, h]

/-- A result of the framework counts under its status. -/
theorem resultCounts_concat {item : ScopedResult} {frameworkId : Str}
    (h : scoredFramework item = some frameworkId) (results : List ScopedResult) :
    resultCounts (results ++ [item]) frameworkId =
      (resultCounts results frameworkId).add item.result.status := by
  cases hstatus : item.result.status <;>
    simp [resultCounts, resultCount_concat, h, hstatus, ScoreSummaryCounts.add]

/-- A framework that no result is scored under has no counts. -/
theorem resultCounts_of_notMem {results : List ScopedResult} {frameworkId : Str}
    (h : frameworkId ∉ scoredFrameworks results) : resultCounts results frameworkId = ⟨0, 0, 0⟩ := by
  have hcount : ∀ status, resultCount results frameworkId status = 0 := by
    intro status
    rw [resultCount, List.countP_eq_zero]
    intro item hitem hscored
    exact h (List.mem_filterMap.mpr ⟨item, hitem, (of_decide_eq_true hscored).1⟩)
  simp [resultCounts, hcount]

/-- **The counting loop** counts the results of each framework. -/
theorem get_countResults (results : List ScopedResult) (frameworkId : Str) :
    (results.foldl countResult Table.empty).get frameworkId =
      if frameworkId ∈ scoredFrameworks results then some (resultCounts results frameworkId)
      else none := by
  induction results using List.reverseRecOn with
  | nil => rfl
  | append_singleton results item ih =>
      have hmem : frameworkId ∈ scoredFrameworks (results ++ [item]) ↔
          frameworkId ∈ scoredFrameworks results ∨ scoredFramework item = some frameworkId := by
        simp [scoredFrameworks, List.mem_filterMap]
      rw [List.foldl_append, List.foldl_cons, List.foldl_nil, countResult]
      rcases hscored : scoredFramework item with _ | scored
      · simp only [ih, hmem, hscored, reduceCtorEq, or_false,
          resultCounts_concat_of_ne (by simp [hscored] : scoredFramework item ≠ some frameworkId)]
      · rw [Table.get_upsert]
        by_cases heq : frameworkId = scored
        · subst heq
          rw [if_pos rfl, ih, if_pos (hmem.mpr (.inr hscored)), resultCounts_concat hscored]
          split
          · rfl
          · next hnot => rw [resultCounts_of_notMem hnot, Option.elim_none]
        · have hne : scoredFramework item ≠ some frameworkId := by
            rw [hscored]
            exact fun h => heq (Option.some.inj h).symm
          simp only [if_neg heq, ih, hmem, hne, or_false, resultCounts_concat_of_ne hne]

/-- The entries of the score summaries. -/
theorem mem_scoreSummaryCounts {corpus : Corpus} {summary : Str × ScoreSummaryCounts} :
    summary ∈ scoreSummaryCounts corpus ↔ summary.1 ∈ scoredFrameworks corpus.results ∧
      summary.2 = resultCounts corpus.results summary.1 := by
  obtain ⟨frameworkId, counts⟩ := summary
  rw [scoreSummaryCounts, sortBy, (List.perm_insertionSort _ _).mem_iff, Table.mem_rows_iff,
    get_countResults]
  split <;> simp_all [eq_comm]

end SovriAgent
