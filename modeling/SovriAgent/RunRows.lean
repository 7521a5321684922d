import SovriAgent.CurrentShape

/-!
# The Rows of a Run

What a write leaves of its own run, and of the other runs, table by table, in databases
whose rows stand under the ids of their fields. Result, score and link rows of the written
run are exactly those of the corpus, the last of several with one key; the gap rows are
what its gaps leave when they are taken in turn.

## Main results

* `runRows_written`, `gapRows_written`: the rows of the written run.
* `RunRows.written_of_ne`: the rows of the other runs.
* `get_evidenceMetadata`, `get_runEvidenceLinks`: what the evidence loop leaves.
* `WellFormed.written`: writes keep rows under their ids.
-/

namespace SovriAgent

open Keyed

/-! ### Rows under the ids of their fields -/

/-- A result row under the id of its fields. -/
def ResultKeyed (rowId : Str) (row : ControlResultRow) : Prop :=
  rowId = controlResultRowId row.runId row.frameworkId row.controlId row.ruleId

/-- A gap row under the id of its fields and a framework. -/
def GapKeyed (rowId : Str) (row : GapRow) : Prop :=
  ∃ runId frameworkId controlId ruleId, row.runId = some runId ∧ row.controlId = some controlId ∧
    row.ruleId = some ruleId ∧ rowId = complianceGapRowId runId frameworkId controlId ruleId

/-- A score row under the id of its fields. -/
def ScoreKeyed (rowId : Str) (row : ScoreRow) : Prop :=
  ∃ runId frameworkId pass fail warning, row = scoreRow runId frameworkId pass fail warning ∧
    rowId = scoreSummaryRowId runId frameworkId

/-- A database of the current shape whose rows stand under the ids of their fields. -/
structure WellFormed (db : Db) : Prop extends CurrentShape db where
  results : Table.AllRows ResultKeyed db.controlResults
  gaps : Table.AllRows GapKeyed db.complianceGaps
  scores : Table.AllRows ScoreKeyed db.scoreSummaries

theorem wellFormed_freshDb : WellFormed freshDb :=
  ⟨currentShape_freshDb, Table.allRows_empty _, Table.allRows_empty _, Table.allRows_empty _⟩

theorem allRows_gapsWritten {runId : Str} {gaps : List ScopedGap} {table : Table Str GapRow}
    (h : table.AllRows GapKeyed) : (gapsWritten runId gaps table).AllRows GapKeyed := by
  induction gaps generalizing table with
  | nil => exact h
  | cons gap gaps ih =>
      exact ih ((h.deleteWhere _).insertOrIgnore ⟨runId, gap.frameworkId, gap.result.controlId,
        gap.result.ruleId, rfl, rfl, rfl, rfl⟩)

/-- **Writes keep rows under their ids.** -/
theorem WellFormed.written {db : Db} (h : WellFormed db) (corpus : Corpus) :
    WellFormed (written corpus db) where
  toCurrentShape := h.toCurrentShape.written corpus
  results := (h.results.deleteWhere _).of_get (Table.get_overwriteAll _ _ _ _) fun _ _ => rfl
  gaps := allRows_gapsWritten (h.gaps.deleteWhere _)
  scores := by
    rw [scoreSummaries_written h.scoreSchema]
    exact (h.scores.deleteWhere _).of_get (Table.get_replaceAll _ _ _ _) fun summary _ =>
      ⟨corpus.runId, summary.1, _, _, _, rfl, rfl⟩

/-! ### What a write leaves under a key -/

theorem get_scanRuns_written (corpus : Corpus) (db : Db) (runId : Str) :
    (written corpus db).scanRuns.get runId = if runId = corpus.runId then
      some ((db.scanRuns.get corpus.runId).elim ⟨corpus.executedAt⟩ (mergeRun corpus.executedAt))
      else db.scanRuns.get runId :=
  Table.get_upsert _ _ _ _ _

theorem get_controlResults_written (corpus : Corpus) (db : Db) (rowId : Str) :
    (written corpus db).controlResults.get rowId =
      (Table.lastOf (resultRowId corpus.runId) (resultRow corpus.runId) corpus.results rowId).or
        ((db.controlResults.deleteWhere fun _ row => row.runId = corpus.runId).get rowId) :=
  Table.get_overwriteAll _ _ _ _ _

theorem get_runFrameworkLinks_written (corpus : Corpus) (db : Db) (key : Str × Str) :
    (written corpus db).runFrameworkLinks.get key =
      (Table.lastOf (fun f => (corpus.runId, f.id)) frameworkLink corpus.frameworks key).or
        ((db.runFrameworkLinks.deleteWhere fun k _ => k.1 = corpus.runId).get key) :=
  Table.get_overwriteAll _ _ _ _ _

theorem get_runControlLinks_written (corpus : Corpus) (db : Db) (key : Str × Str × Str) :
    (written corpus db).runControlLinks.get key =
      (Table.lastOf (fun c => (corpus.runId, c.frameworkId, c.id)) controlLink corpus.controls
        key).or ((db.runControlLinks.deleteWhere fun k _ => k.1 = corpus.runId).get key) :=
  Table.get_overwriteAll _ _ _ _ _

theorem get_scoreSummaries_written {db : Db} (h : CurrentShape db) (corpus : Corpus)
    (rowId : Str) :
    (written corpus db).scoreSummaries.get rowId =
      (Table.lastOf (summaryRowId corpus.runId) (summaryRow corpus.runId)
        (scoreSummaryCounts corpus) rowId).or
        ((db.scoreSummaries.deleteWhere fun _ row => row.runId = some corpus.runId).get rowId) := by
  rw [scoreSummaries_written h.scoreSchema]
  exact Table.get_replaceAll _ _ _ _ _

/-! ### Gaps, taken in turn -/

/-- What a gap does to the row under an id. -/
def gapTurn (runId rowId : Str) (row : Option GapRow) (gap : ScopedGap) : Option GapRow :=
  let kept := if rowId = gap.legacyId then none else row
  if rowId = gap.rowId runId then some (kept.getD (gap.row runId)) else kept

/-- The row that gaps leave under an id that was free. -/
def gapImage (corpus : Corpus) (rowId : Str) : Option GapRow :=
  (corpusGaps corpus).foldl (gapTurn corpus.runId rowId) none

theorem get_gapsWritten (runId : Str) (gaps : List ScopedGap) (table : Table Str GapRow)
    (rowId : Str) :
    (gapsWritten runId gaps table).get rowId =
      gaps.foldl (gapTurn runId rowId) (table.get rowId) := by
  have hkept : ∀ (table : Table Str GapRow) (legacyId rowId : Str),
      (table.deleteWhere fun k _ => k = legacyId).get rowId =
        if rowId = legacyId then none else table.get rowId := by
    intro table legacyId rowId
    rw [Table.get_deleteWhere]
    by_cases hlegacy : rowId = legacyId
    · simp [hlegacy]
    · cases table.get rowId <;> simp [hlegacy]
  induction gaps generalizing table with
  | nil => rfl
  | cons gap gaps ih =>
      have hturn : (gapWritten runId table gap).get rowId =
          gapTurn runId rowId (table.get rowId) gap := by
        rw [gapWritten, Table.get_insertOrIgnore, hkept, hkept, gapTurn]
        by_cases hid : rowId = gap.rowId runId
        · rw [if_pos hid, if_pos hid, ← hid]
        · rw [if_neg hid, if_neg hid]
      exact (ih (gapWritten runId table gap)).trans (by rw [hturn, List.foldl_cons])

/-- Under an id no gap takes, rows can only be lost. -/
theorem foldl_gapTurn_of_ne {runId rowId : Str} {gaps : List ScopedGap}
    (h : ∀ gap ∈ gaps, rowId ≠ gap.rowId runId) (row : Option GapRow) :
    gaps.foldl (gapTurn runId rowId) row =
      if ∃ gap ∈ gaps, rowId = gap.legacyId then none else row := by
  induction gaps generalizing row with
  | nil => simp
  | cons gap gaps ih =>
      rw [List.foldl_cons, ih (fun g hg => h g (List.mem_cons_of_mem gap hg)), gapTurn,
        if_neg (h gap List.mem_cons_self)]
      by_cases hlegacy : rowId = gap.legacyId
      · simp [hlegacy]
      · simp [hlegacy]

/-- A row that was not there is the one of a gap. -/
theorem mem_of_foldl_gapTurn {runId rowId : Str} {gaps : List ScopedGap} {old : Option GapRow}
    {row : GapRow} (h : gaps.foldl (gapTurn runId rowId) old = some row) :
    old = some row ∨ ∃ gap ∈ gaps, rowId = gap.rowId runId ∧ row = gap.row runId := by
  induction gaps generalizing old with
  | nil => exact .inl h
  | cons gap gaps ih =>
      rcases ih h with hturn | ⟨g, hg, hid, hrow⟩
      · have hmem : gap ∈ gap :: gaps := List.mem_cons_self
        by_cases hid : rowId = gap.rowId runId
        · by_cases hlegacy : rowId = gap.legacyId
          · rw [gapTurn, if_pos hlegacy, if_pos hid] at hturn
            exact .inr ⟨gap, hmem, hid, (Option.some.inj hturn).symm⟩
          · rw [gapTurn, if_neg hlegacy, if_pos hid] at hturn
            rcases old with _ | row'
            · exact .inr ⟨gap, hmem, hid, (Option.some.inj hturn).symm⟩
            · exact .inl hturn
        · by_cases hlegacy : rowId = gap.legacyId
          · rw [gapTurn, if_pos hlegacy, if_neg hid] at hturn
            cases hturn
          · rw [gapTurn, if_neg hlegacy, if_neg hid] at hturn
            exact .inl hturn
      · exact .inr ⟨g, List.mem_cons_of_mem gap hg, hid, hrow⟩

theorem get_complianceGaps_written (corpus : Corpus) (db : Db) (rowId : Str) :
    (written corpus db).complianceGaps.get rowId =
      (corpusGaps corpus).foldl (gapTurn corpus.runId rowId)
        ((db.complianceGaps.deleteWhere fun _ row => row.runId = some corpus.runId).get rowId) :=
  get_gapsWritten _ _ _ _

/-- A row left after the gaps of a run are deleted stands under no gap id of the run. -/
theorem WellFormed.ne_gapRowId {db : Db} (h : WellFormed db) {runId rowId : Str} {row : GapRow}
    (hget : (db.complianceGaps.deleteWhere fun _ row => row.runId = some runId).get rowId =
      some row) (gap : ScopedGap) : rowId ≠ gap.rowId runId := by
  rintro rfl
  rw [Table.get_deleteWhere, Option.filter_eq_some_iff] at hget
  obtain ⟨runId', _, _, _, hrun, -, -, hid⟩ := h.gaps _ row hget.1
  obtain ⟨rfl, -, -, -⟩ := complianceGapRowId_inj hid
  simp [hrun] at hget

/-- A gap is a scoped result. -/
theorem scopedGap_eq_some {item : ScopedResult} {gap : ScopedGap} (h : scopedGap item = some gap) :
    item.frameworkId = some gap.frameworkId ∧ item.result = gap.result := by
  obtain ⟨frameworkId, hframework, hgap⟩ := Option.bind_eq_some_iff.mp h
  split at hgap
  · obtain rfl := Option.some.inj hgap
    exact ⟨hframework, rfl⟩
  · cases hgap

/-- A scored result has its framework as column. -/
theorem frameworkColumn_of_scored {item : ScopedResult} {frameworkId : Str}
    (h : scoredFramework item = some frameworkId) : frameworkColumn item = frameworkId := by
  rw [frameworkColumn, (Option.filter_eq_some_iff.mp h).1, Option.getD_some]

/-- A result whose column is not empty is scoped to that framework. -/
theorem frameworkId_of_column {item : ScopedResult} (h : frameworkColumn item ≠ []) :
    item.frameworkId = some (frameworkColumn item) := by
  rw [frameworkColumn] at h ⊢
  rcases hframework : item.frameworkId with _ | frameworkId
  · rw [hframework] at h
    exact absurd rfl h
  · rfl

/-! ### The written run -/

/-- The rows of a corpus's run are those of the corpus, in the tables that are refilled by
plain updates. -/
structure RunRows (corpus : Corpus) (db : Db) : Prop where
  frameworkLinks : db.runFrameworkLinks.Agrees (fun key _ => key.1 = corpus.runId)
    (Table.lastOf (fun f => (corpus.runId, f.id)) frameworkLink corpus.frameworks)
  controlLinks : db.runControlLinks.Agrees (fun key _ => key.1 = corpus.runId)
    (Table.lastOf (fun c => (corpus.runId, c.frameworkId, c.id)) controlLink corpus.controls)
  results : db.controlResults.Agrees (fun _ row => row.runId = corpus.runId)
    (Table.lastOf (resultRowId corpus.runId) (resultRow corpus.runId) corpus.results)
  scores : db.scoreSummaries.Agrees (fun _ row => row.runId = some corpus.runId)
    (Table.lastOf (summaryRowId corpus.runId) (summaryRow corpus.runId)
      (scoreSummaryCounts corpus))

/-- **The rows of the written run.** -/
theorem runRows_written {db : Db} (h : CurrentShape db) (corpus : Corpus) :
    RunRows corpus (written corpus db) where
  frameworkLinks := Table.agrees_refill (fun _ _ hp => decide_eq_true hp)
    (get_runFrameworkLinks_written corpus db)
  controlLinks := Table.agrees_refill (fun _ _ hp => decide_eq_true hp)
    (get_runControlLinks_written corpus db)
  results := Table.agrees_refill (fun _ _ hp => decide_eq_true hp)
    (get_controlResults_written corpus db)
  scores := Table.agrees_refill (fun _ _ hp => decide_eq_true hp)
    (get_scoreSummaries_written h corpus)

/-- A result of the corpus has a row with its identity; a repeated one, the last. -/
theorem RunRows.exists_result {corpus : Corpus} {db : Db} (h : RunRows corpus db)
    {item : ScopedResult} (hitem : item ∈ corpus.results) :
    ∃ row, db.controlResults.get (resultRowId corpus.runId item) = some row ∧
      row.runId = corpus.runId ∧ row.frameworkId = frameworkColumn item ∧
      row.controlId = item.result.controlId ∧ row.ruleId = item.result.ruleId := by
  obtain ⟨row, hlast⟩ := Table.exists_lastOf (resultRowId corpus.runId) (resultRow corpus.runId)
    hitem
  obtain ⟨last, -, hid, rfl⟩ := Table.mem_of_lastOf hlast
  obtain ⟨-, hframework, hcontrol, hrule⟩ := controlResultRowId_inj hid
  exact ⟨_, (h.results _ _ rfl).mpr hlast, rfl, hframework, hcontrol, hrule⟩

/-- **The gaps of the written run.** -/
theorem gapRows_written {db : Db} (h : WellFormed db) (corpus : Corpus) :
    (written corpus db).complianceGaps.Agrees (fun _ row => row.runId = some corpus.runId)
      (gapImage corpus) := by
  intro rowId row hrun
  rw [get_complianceGaps_written, gapImage]
  rcases hold : (db.complianceGaps.deleteWhere fun _ row =>
      row.runId = some corpus.runId).get rowId with _ | old
  · exact Iff.rfl
  · have hne := h.ne_gapRowId hold
    rw [foldl_gapTurn_of_ne (fun gap _ => hne gap), foldl_gapTurn_of_ne fun gap _ => hne gap]
    rw [Table.get_deleteWhere, Option.filter_eq_some_iff] at hold
    have hother : old ≠ row := by
      rintro rfl
      simp [hrun] at hold
    split <;> simp [hother]

/-! ### The other runs -/

/-- **The rows of the other runs** are not touched. -/
theorem RunRows.written_of_ne {db : Db} {corpus other : Corpus} (hrows : RunRows corpus db)
    (h : WellFormed db) (hne : corpus.runId ≠ other.runId) :
    RunRows corpus (written other db) := by
  have hwritten := h.written other
  refine ⟨Table.SameWhere.agrees ?_ hrows.frameworkLinks,
    Table.SameWhere.agrees ?_ hrows.controlLinks, Table.SameWhere.agrees ?_ hrows.results,
    Table.SameWhere.agrees ?_ hrows.scores⟩
  · refine Table.sameWhere_refill (fun key _ hp => ?_) (fun _ _ _ => hne.symm)
      (get_runFrameworkLinks_written other db)
    exact decide_eq_false fun hkey => hne (hp.symm.trans hkey)
  · refine Table.sameWhere_refill (fun key _ hp => ?_) (fun _ _ _ => hne.symm)
      (get_runControlLinks_written other db)
    exact decide_eq_false fun hkey => hne (hp.symm.trans hkey)
  · refine Table.SameWhere.of_allRows ?_ hwritten.results h.results
    refine Table.sameWhere_refill (fun _ row hp => ?_) (fun item _ row hp => ?_)
      (get_controlResults_written other db)
    · exact decide_eq_false fun hrun => hne (hp.1.symm.trans hrun)
    · have hid : controlResultRowId other.runId _ _ _ = _ := hp.2
      exact hne (hp.1.symm.trans (controlResultRowId_inj hid).1.symm)
  · refine Table.SameWhere.of_allRows ?_ hwritten.scores h.scores
    refine Table.sameWhere_refill (fun _ row hp => ?_) (fun summary _ row hp => ?_)
      (get_scoreSummaries_written h.toCurrentShape other)
    · exact decide_eq_false fun hrun => hne (Option.some.inj (hp.1.symm.trans hrun))
    · obtain ⟨runId, frameworkId, _, _, _, rfl, hid⟩ := hp.2
      have hrun := (scoreSummaryRowId_inj hid).1
      exact hne (Option.some.inj (hp.1.symm.trans (congrArg some hrun.symm)))

/-- Gaps of the other runs are only ever lost. -/
theorem gaps_of_other_run {db : Db} {other : Corpus} {runId rowId : Str} {row : GapRow}
    (hrun : row.runId = some runId) (hne : runId ≠ other.runId)
    (hget : (written other db).complianceGaps.get rowId = some row) :
    db.complianceGaps.get rowId = some row := by
  rw [get_complianceGaps_written] at hget
  rcases mem_of_foldl_gapTurn hget with hold | ⟨gap, -, -, rfl⟩
  · rw [Table.get_deleteWhere, Option.filter_eq_some_iff] at hold
    exact hold.1
  · exact absurd (Option.some.inj hrun).symm hne

/-! ### Evidence -/

/-- The records of an evidence id, in order. -/
def recordsOf (evidenceId : Str) (records : List EvidenceRecord) : List EvidenceRecord :=
  records.filter (·.id = evidenceId)

/-- A row with the metadata of records merged into it. -/
def mergedEvidence (records : List EvidenceRecord) (row : EvidenceRow) : EvidenceRow :=
  records.foldl (fun row evidence => mergeEvidence evidence row) row

/-- The row a first record of an evidence id is merged into. -/
def blankEvidence (owner : Str) (evidence : EvidenceRecord) : EvidenceRow :=
  ⟨owner, [], [], evidence.classification⟩

theorem mergeEvidence_blank (owner : Str) (evidence : EvidenceRecord) :
    mergeEvidence evidence (blankEvidence owner evidence) = evidenceRow owner evidence := by
  rw [mergeEvidence, blankEvidence, evidenceRow]
  by_cases hdigest : evidence.integrity = []
  · simp [hdigest]
  · simp [hdigest]

/-- **The metadata of an evidence id**: its records merged into the stored row. -/
theorem get_evidenceMetadata (owner runId : Str) (records : List EvidenceRecord)
    (tables : EvidenceTables) (evidenceId : Str) :
    (evidenceRowsWritten owner runId tables records).1.get evidenceId =
      ((tables.1.get evidenceId).or
        ((recordsOf evidenceId records).head?.map (blankEvidence owner))).map
        (mergedEvidence (recordsOf evidenceId records)) := by
  induction records generalizing tables with
  | nil => cases h : tables.1.get evidenceId <;> simp [evidenceRowsWritten, recordsOf, h, mergedEvidence]
  | cons evidence records ih =>
      have hstep : evidenceRowsWritten owner runId tables (evidence :: records) =
        evidenceRowsWritten owner runId (evidenceWritten owner runId tables evidence) records := rfl
      rw [hstep, ih]
      change (((metadataWritten owner tables.1 evidence).get evidenceId).or _).map _ = _
      rw [metadataWritten, Table.get_upsert, recordsOf, recordsOf]
      by_cases hid : evidence.id = evidenceId
      · subst hid
        rw [if_pos rfl, List.filter_cons_of_pos (by simp)]
        rcases tables.1.get evidence.id with _ | row
        · simp [mergedEvidence, mergeEvidence_blank]
        · simp [mergedEvidence]
      · rw [if_neg (Ne.symm hid), List.filter_cons_of_neg (by simpa using hid)]

/-- Every written record has metadata. -/
theorem exists_evidenceMetadata (owner runId : Str) {records : List EvidenceRecord}
    {evidence : EvidenceRecord} (h : evidence ∈ records) (tables : EvidenceTables) :
    ∃ row, (evidenceRowsWritten owner runId tables records).1.get evidence.id = some row := by
  have hmem : evidence ∈ recordsOf evidence.id records :=
    List.mem_filter.mpr ⟨h, decide_eq_true rfl⟩
  obtain ⟨first, rest, hrecords⟩ := List.exists_cons_of_ne_nil (List.ne_nil_of_mem hmem)
  rw [get_evidenceMetadata, hrecords, List.head?_cons, Option.map_some]
  rcases tables.1.get evidence.id with _ | row
  · exact ⟨_, rfl⟩
  · exact ⟨_, rfl⟩

/-- The link of a record, given the metadata the loop leaves. -/
def finalLink (owner : Str) (metadata : Table Str EvidenceRow) (evidence : EvidenceRecord) :
    EvidenceLinkRow :=
  evidenceLink evidence ((metadata.get evidence.id).getD (evidenceRow owner evidence))

/-- **The links of a run**: of each evidence id, the last record with the final metadata. -/
theorem get_runEvidenceLinks (owner runId : Str) (records : List EvidenceRecord)
    (tables : EvidenceTables) (key : Str × Str) :
    (evidenceRowsWritten owner runId tables records).2.get key =
      (Table.lastOf (fun e => (runId, e.id))
        (finalLink owner (evidenceRowsWritten owner runId tables records).1) records key).or
        (tables.2.get key) := by
  induction records using List.reverseRecOn generalizing key with
  | nil => rfl
  | append_singleton records evidence ih =>
      let before := evidenceRowsWritten owner runId tables records
      let metadata := metadataWritten owner before.1 evidence
      have hstep : evidenceRowsWritten owner runId tables (records ++ [evidence]) =
          (metadata, linkWritten runId metadata before.2 evidence) := by
        rw [evidenceRowsWritten, List.foldl_append]
        rfl
      have hmetadata : ∀ id, metadata.get id = if id = evidence.id then
          some ((before.1.get evidence.id).elim (evidenceRow owner evidence)
            (mergeEvidence evidence)) else before.1.get id :=
        Table.get_upsert _ _ _ _
      have hstored := hmetadata evidence.id
      rw [if_pos rfl] at hstored
      rw [hstep, Table.lastOf_concat]
      change (linkWritten runId metadata before.2 evidence).get key =
        (if key = (runId, evidence.id) then some (finalLink owner metadata evidence) else
          Table.lastOf _ (finalLink owner metadata) records key).or _
      rw [linkWritten, hstored]
      change (Table.upsert _ _ _ _).get key = _
      rw [Table.get_upsert]
      by_cases hkey : key = (runId, evidence.id)
      · rw [if_pos hkey, if_pos hkey, finalLink, hstored, Option.some_or, Option.getD_some]
        cases before.2.get (runId, evidence.id) <;> rfl
      · rw [if_neg hkey, if_neg hkey, ih key]
        refine congrArg (Option.or · _) (Table.lastOf_congr fun e _ he => ?_)
        have hid : e.id ≠ evidence.id := fun heq => hkey (he ▸ congrArg (runId, ·) heq)
        rw [finalLink, finalLink, hmetadata, if_neg hid]

end SovriAgent
