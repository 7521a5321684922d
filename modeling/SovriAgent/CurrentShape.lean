import SovriAgent.OpenDatabase
import SovriAgent.WriteEffect

/-!
# Databases of the Current Shape

A database an open leaves has all the columns the write path names, and a score table
without gaps. From such a database no statement of a write fails by itself: a valid corpus
is accepted unless the environment interferes, and the shape is kept.

## Main results

* `writeCompletedCorpus_accepts`: a valid corpus is accepted.
* `CurrentShape.written`: a write keeps the shape.
-/

namespace SovriAgent

open Keyed Transaction Transaction.Tx

/-- The database has the columns of the current schema, and no `NULL` in the score table. -/
structure CurrentShape (db : Db) : Prop where
  schema : db.schema = initialColumns.toFinset
  scoreColumnsNotNull : db.scoreColumnsNotNull = true
  scoresComplete : Table.AllRows (fun _ row => row.isLegacy = false) db.scoreSummaries

/-- The fresh database has the current shape. -/
theorem currentShape_freshDb : CurrentShape freshDb :=
  ⟨rfl, rfl, Table.allRows_empty _⟩

/-- A database of the current shape has the columns of the first migration. -/
theorem CurrentShape.columnExists {db : Db} (h : CurrentShape db) {column : Column}
    (hcolumn : column ∈ initialColumns) : db.columnExists column = true := by
  rw [Db.columnExists, h.schema]
  exact decide_eq_true (List.mem_toFinset.mpr hcolumn)

/-- So a statement finds the columns it needs. -/
theorem CurrentShape.all_columnExists {db : Db} (h : CurrentShape db) {needs : List Column}
    (hneeds : needs ⊆ initialColumns) : needs.all db.columnExists = true :=
  List.all_eq_true.mpr fun _ hcolumn => h.columnExists (hneeds hcolumn)

/-- No score row of such a database is a legacy one. -/
theorem legacyScoreSummaryRowsExist_eq_false {db : Db} (h : CurrentShape db) :
    legacyScoreSummaryRowsExist db = false := by
  rw [legacyScoreSummaryRowsExist, List.any_eq_false]
  intro r hr
  rw [h.scoresComplete r.1 r.2 (Table.mem_rows_iff.mp hr)]
  exact Bool.false_ne_true

/-- The score table of such a database is not repaired. -/
theorem CurrentShape.scoreSchema {db : Db} (h : CurrentShape db) :
    scoreSummarySchemaIsCurrent db = true := by
  rw [scoreSummarySchemaIsCurrent, h.all_columnExists (by decide), h.scoreColumnsNotNull,
    legacyScoreSummaryRowsExist_eq_false h]
  rfl

/-! ### Statements that do not fail -/

/-- A statement that needs current columns succeeds, and keeps the shape if its effect does. -/
theorem safe_sql {needs : List Column} {effect : Db → Db}
    (heffect : ∀ db, CurrentShape db → CurrentShape (effect db))
    (hneeds : needs ⊆ initialColumns := by decide) : (sql needs effect).Safe CurrentShape :=
  safe_execute fun db hdb =>
    ⟨effect db, if_pos (hdb.all_columnExists hneeds), heffect db hdb⟩

/-- A query that needs current columns succeeds. -/
theorem safe_ask {α : Type} {needs : List Column} (read : Db → α)
    (hneeds : needs ⊆ initialColumns := by decide) : (ask needs read).Safe CurrentShape :=
  safe_query fun db hdb => ⟨read db, if_pos (hdb.all_columnExists hneeds)⟩

/-- A statement that leaves the schema and the score table alone. -/
theorem safe_write {needs : List Column} {effect : Db → Db}
    (hneeds : needs ⊆ initialColumns := by decide)
    (heffect : ∀ db, ((effect db).schema, (effect db).scoreColumnsNotNull,
      (effect db).scoreSummaries) = (db.schema, db.scoreColumnsNotNull, db.scoreSummaries) := by
        exact fun _ => rfl) :
    (sql needs effect).Safe CurrentShape := by
  refine safe_sql (fun db hdb => ?_) hneeds
  obtain ⟨hschema, hrest⟩ := Prod.mk.inj (heffect db)
  obtain ⟨hnotNull, hscores⟩ := Prod.mk.inj hrest
  exact ⟨hschema.trans hdb.schema, hnotNull.trans hdb.scoreColumnsNotNull,
    hscores ▸ hdb.scoresComplete⟩

/-- The frameworks and controls of a run can be written. -/
theorem safe_writeRunCatalog (runId : Str) (corpus : Corpus) :
    (writeRunCatalog runId corpus).Safe CurrentShape := by
  have hframework : ∀ framework, (writeFramework runId framework).Safe CurrentShape :=
    fun framework => safe_bind safe_write fun _ =>
      safe_write
  have hcontrol : ∀ control, (writeControl runId control).Safe CurrentShape :=
    fun control => safe_bind safe_write fun _ =>
      safe_write
  exact safe_bind safe_write fun _ =>
    safe_bind safe_write fun _ =>
      safe_bind safe_write fun _ =>
        safe_bind (safe_forM fun framework _ => hframework framework) fun _ =>
          safe_forM fun control _ => hcontrol control

/-- What a run had before can be deleted. -/
theorem safe_clearRunOutcomes (runId : Str) : (clearRunOutcomes runId).Safe CurrentShape :=
  safe_bind safe_write fun _ => safe_write

/-- A score row can be written. -/
theorem safe_insertScoreRow (runId frameworkId : Str) (pass fail warning : ℕ) :
    (insertScoreRow runId frameworkId pass fail warning).Safe CurrentShape := by
  refine safe_sql fun db hdb => ⟨hdb.schema, hdb.scoreColumnsNotNull, ?_⟩
  intro k row hget
  rw [Table.get_insertOrReplace] at hget
  split at hget
  · obtain rfl := Option.some.inj hget
    rfl
  · exact hdb.scoresComplete k row hget

/-- Nothing is missing in the score table, so its repair does nothing. -/
theorem safe_addMissingScoreSummaryColumns :
    addMissingScoreSummaryColumns.Safe CurrentShape := by
  have hpresent : ∀ name, (TableName.scoreSummaries, name) ∈ initialColumns → ∀ db db' a,
      CurrentShape db → (addScoreColumnIfMissing name).Runs db a db' → a = false ∧ db' = db := by
    intro name hname db db' a hdb hruns
    have hyields := yields_addScoreColumnIfMissing name db a db' hruns
    rw [columnAdded, if_pos (hdb.columnExists hname)] at hyields
    exact Prod.mk.inj hyields
  have hask : ∀ name, (TableName.scoreSummaries, name) ∈ initialColumns → ∀ db,
      CurrentShape db → (addScoreColumnIfMissing name).Succeeds db := by
    intro name hname db hdb
    refine succeeds_bind ((safe_ask _).succeeds db hdb) fun a db' hruns => ?_
    obtain ⟨rfl, rfl⟩ := runs_ask hruns
    rw [hdb.columnExists hname]
    exact succeeds_pure _ _
  have hfinish : ∀ db, CurrentShape db →
      (backfillIfRepaired false >>= fun _ => rebuildIfNullable).Succeeds db := by
    intro db hdb
    have hbackfill : (backfillIfRepaired false).Succeeds db := by
      refine succeeds_bind ((safe_ask _).succeeds db hdb) fun a db' hruns => ?_
      obtain ⟨rfl, rfl⟩ := runs_ask hruns
      rw [legacyScoreSummaryRowsExist_eq_false hdb]
      exact succeeds_pure _ _
    refine succeeds_bind hbackfill fun a db' hruns => ?_
    have heffect := (Prod.mk.inj (hasEffect_backfillIfRepaired false db a db' hruns)).2
    rw [backfilledIf, if_neg Bool.false_ne_true, legacyScoreSummaryRowsExist_eq_false hdb,
      if_neg Bool.false_ne_true] at heffect
    subst heffect
    refine succeeds_bind ((safe_ask _).succeeds db' hdb) fun a db'' hruns => ?_
    obtain ⟨rfl, rfl⟩ := runs_ask hruns
    rw [hdb.scoreColumnsNotNull]
    exact succeeds_pure _ _
  have hstep : ∀ name, (TableName.scoreSummaries, name) ∈ initialColumns →
      ∀ (k : Bool → DbTx Unit) db, CurrentShape db → (k false).Succeeds db →
        (addScoreColumnIfMissing name >>= k).Succeeds db := by
    intro name hname k db hdb hk
    refine succeeds_bind (hask name hname db hdb) fun a db' hruns => ?_
    obtain ⟨rfl, rfl⟩ := hpresent name hname db db' a hdb hruns
    exact hk
  refine ⟨fun db hdb => ?_, hasEffect_addMissingScoreSummaryColumns.moves fun db hdb => ?_⟩
  · refine hstep .runId (by decide) _ db hdb ?_
    refine hstep .frameworkId (by decide) _ db hdb ?_
    refine hstep .passCount (by decide) _ db hdb ?_
    refine hstep .failCount (by decide) _ db hdb ?_
    refine hstep .warningCount (by decide) _ db hdb ?_
    exact hfinish db hdb
  · rwa [repaired_of_current hdb.scoreSchema]

/-- The scores of a run can be written. -/
theorem safe_writeScoreSummaries (corpus : Corpus) :
    (writeScoreSummaries corpus).Safe CurrentShape := by
  refine safe_bind safe_addMissingScoreSummaryColumns fun _ => safe_bind ?_ fun _ =>
    safe_forM fun summary _ => safe_insertScoreRow _ _ _ _ _
  exact safe_sql fun db hdb =>
    ⟨hdb.schema, hdb.scoreColumnsNotNull, hdb.scoresComplete.deleteWhere _⟩

/-- A record of evidence can be written. -/
theorem safe_writeEvidence (runId : Str) (evidence : EvidenceRecord) :
    (writeEvidence runId false evidence).Safe CurrentShape := by
  refine safe_bind ?_ fun _ => safe_sql fun db hdb => ?_
  · rw [writeEvidenceMetadata, if_neg Bool.false_ne_true]
    exact safe_write
  · split
    · exact hdb
    · exact ⟨hdb.schema, hdb.scoreColumnsNotNull, hdb.scoresComplete⟩

/-- The current schema has no legacy owner of evidence. -/
theorem CurrentShape.no_legacyRunId {db : Db} (h : CurrentShape db) :
    db.columnExists (.evidenceMetadata, .runId) = false := by
  rw [Db.columnExists, h.schema]
  decide

/-- The evidence of a run can be written. -/
theorem safe_writeEvidenceRows (corpus : Corpus) :
    (writeEvidenceRows corpus.runId corpus).Safe CurrentShape := by
  refine ⟨fun db hdb => ?_, (hasEffect_writeEvidenceRows _ corpus rfl).moves fun db hdb => ?_⟩
  · have hclear : (sql (columnsOf .runEvidenceLinks [.runId]) fun db =>
        { db with runEvidenceLinks := db.runEvidenceLinks.deleteWhere fun k _ =>
            k.1 = corpus.runId }).Safe CurrentShape := safe_write
    refine succeeds_bind (hclear.succeeds db hdb) fun a db' hruns => ?_
    have hdb' : CurrentShape db' := hclear.keeps db a db' hruns hdb
    refine succeeds_bind ((safe_ask _).succeeds db' hdb') fun b db'' hruns => ?_
    obtain ⟨rfl, rfl⟩ := runs_ask hruns
    rw [hdb'.no_legacyRunId]
    have hloop : (corpus.evidenceRecords.forM
        (writeEvidence corpus.runId false)).Safe CurrentShape :=
      safe_forM fun evidence _ => safe_writeEvidence corpus.runId evidence
    exact hloop.succeeds db'' hdb'
  · exact ⟨hdb.schema, hdb.scoreColumnsNotNull, hdb.scoresComplete⟩

/-! ### Valid corpora are accepted -/

/-- The whole transaction of a write can be run. -/
theorem safe_writeTransaction (corpus : Corpus) : (writeTransaction corpus).Safe CurrentShape := by
  have hresults : (corpus.results.forM (writeResult corpus.runId)).Safe CurrentShape :=
    safe_forM fun item _ => safe_write
  have hgap : ∀ gap, (writeGap corpus.runId gap).Safe CurrentShape := fun gap =>
    safe_bind safe_write fun _ => safe_write
  exact safe_bind (safe_writeRunCatalog _ corpus) fun _ =>
    safe_bind (safe_clearRunOutcomes _) fun _ =>
      safe_bind (safe_writeScoreSummaries corpus) fun _ =>
        safe_bind hresults fun _ =>
          safe_bind (safe_forM fun gap _ => hgap gap) fun _ => safe_writeEvidenceRows corpus

/-- A write keeps the shape. -/
theorem CurrentShape.written {db : Db} (h : CurrentShape db) (corpus : Corpus) :
    CurrentShape (written corpus db) := by
  obtain ⟨⟨a, s⟩, hrun⟩ := (safe_writeTransaction corpus).succeeds db h 0
  have hruns : (writeTransaction corpus).Runs db a s.store := ⟨_, 0, s.clock, hrun⟩
  have heffect := hasEffect_writeTransaction corpus db a s.store hruns
  rw [← (Prod.mk.inj heffect).2]
  exact (safe_writeTransaction corpus).keeps db a s.store hruns h

/-- **A valid corpus is accepted** by a database of the current shape, unless the environment
interferes. -/
theorem writeCompletedCorpus_accepts {db : Db} (h : CurrentShape db) {corpus : Corpus}
    (hrun : trim corpus.runId ≠ []) (hvalid : validateCompletedCorpus corpus = .ok ()) :
    writeCompletedCorpus corpus (fun _ => false) db = (.ok (), SovriAgent.written corpus db) := by
  have haccepts : ∃ a db', (writeTransaction corpus).transaction .sqlite (fun _ => false) db =
      (.ok a, db') := transaction_succeeds ((safe_writeTransaction corpus).succeeds db h)
  obtain ⟨_, db', haccepts⟩ := haccepts
  have hwrite : writeCompletedCorpus corpus (fun _ => false) db = (.ok (), db') := by
    rw [writeCompletedCorpus, if_neg hrun, hvalid]
    exact haccepts
  rw [hwrite, (writeCompletedCorpus_ok hwrite).eq_written]

end SovriAgent
