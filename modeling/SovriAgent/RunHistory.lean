import SovriAgent.Journal
import SovriAgent.StoreQueries

/-!
# Runs as Histories

The local database seen from outside: a journal of the corpora it accepted, each under the id
of its run. What a query says of a run is fixed by the history of that run alone, and but for
the timestamp by its newest corpus. `RunView.of` says this without tables; the database refines
it.

Gaps are left to a module of their own, for writes of other runs may remove them.

## Main results

* `showsHistories`: the tables show the history of every run.
* `answered_of_shown`: what is shown is what the queries answer.
-/

namespace SovriAgent

open Keyed Transaction Transaction.Tx Journal

/-! ### What the queries are to say -/

/-- The corpus a run stands for: its newest one, and an empty one before the first. -/
def shownCorpus (runId : Str) (entries : List Corpus) : Corpus :=
  entries.head?.getD ((Corpus.new []).withRunId runId)

/-- The newest timestamp that is not empty. -/
def shownTimestamp (entries : List Corpus) : Str :=
  ((entries.map Corpus.executedAt).find? (· ≠ [])).getD []

/-- The framework, control and rule of a result. -/
def resultColumnKey (item : ScopedResult) : Str × Str × Str :=
  (frameworkColumn item, item.result.controlId, item.result.ruleId)

/-- The results of a corpus that no later one replaces. -/
def finalResults (corpus : Corpus) : List ScopedResult :=
  Table.finals resultColumnKey corpus.results

/-- The listed result of a run. -/
def listedResult (runId : Str) (item : ScopedResult) : LocalDatabaseResult :=
  ⟨item.result.controlId, item.result.ruleId, runId, item.result.status.label⟩

/-- The record of a result. -/
def ScopedResult.record (item : ScopedResult) : Str :=
  recordText (frameworkColumn item) item.result.controlId item.result.ruleId

/-- The score summary of a counted framework. -/
def summaryRecord (summary : Str × ScoreSummaryCounts) : ScoreSummaryRecord :=
  ⟨summary.1, summary.2.pass, summary.2.fail, summary.2.warning⟩

/-- What the queries say of a run, its gaps aside. -/
structure RunView where
  executedAt : Option Str
  frameworks : List Str
  controls : List Str
  results : List LocalDatabaseResult
  resultRecords : List Str
  evidence : List Str
  scores : List ScoreSummaryRecord

/-- What the queries are to say of a run with a history. -/
def RunView.of (runId : Str) (entries : List Corpus) : RunView :=
  let corpus := shownCorpus runId entries
  { executedAt := entries.head?.map fun _ => shownTimestamp entries
    frameworks := orderedSet (corpus.frameworks.map Framework.id)
    controls := orderBy [id]
      ((Table.finals (fun c => (c.frameworkId, c.id)) corpus.controls).map Control.id)
    results := (orderBy [fun item => item.result.controlId, fun item => item.result.ruleId,
      frameworkColumn] (finalResults corpus)).map (listedResult runId)
    resultRecords := (orderBy [frameworkColumn, fun item => item.result.controlId,
      fun item => item.result.ruleId] (finalResults corpus)).map ScopedResult.record
    evidence := orderedSet (corpus.evidence.map Evidence.id)
    scores := (scoreSummaryCounts corpus).map summaryRecord }

/-- The queries about a run answer as a view says; reading the scores repairs nothing. -/
structure Answered (db : Db) (runId : Str) (view : RunView) : Prop where
  executedAt : (completedRunExecutedAt runId).Answers db view.executedAt
  frameworks : (frameworkRecordsForRun runId).Answers db view.frameworks
  controls : (controlRecordsForRun runId).Answers db view.controls
  results : (queryResultsForRun runId).Answers db view.results
  resultRecords : (controlResultRecordsForRun runId).Answers db view.resultRecords
  evidence : (evidenceMetadataRecordsForRun runId).Answers db view.evidence
  scoreRecords : scoreSummaryRecordsForRun runId (fun _ => false) (fun _ => false)
    (fun _ => false) db = (.ok (view.scores.map ScoreSummaryRecord.frameworkId), db)
  scores : scoreSummariesForRun runId (fun _ => false) (fun _ => false) (fun _ => false) db =
    (.ok view.scores, db)

/-! ### What the tables show of a run -/

/-- A run stands in the tables as its history says. -/
structure RunShown (db : Db) (runId : Str) (entries : List Corpus) : Prop where
  runId_eq : (shownCorpus runId entries).runId = runId
  named : entries ≠ [] → runId ≠ []
  run : db.scanRuns.get runId = entries.head?.map fun _ => ⟨shownTimestamp entries⟩
  rows : RunRows (shownCorpus runId entries) db
  links : ∀ evidenceId, (∃ link, db.runEvidenceLinks.get (runId, evidenceId) = some link) ↔
    ∃ record ∈ (shownCorpus runId entries).evidenceRecords, record.id = evidenceId
  metadata : ∀ record ∈ (shownCorpus runId entries).evidenceRecords,
    ∃ row, db.evidenceMetadata.get record.id = some row
  gaps : ∀ rowId row, row.runId = some runId → db.complianceGaps.get rowId = some row →
    ∃ gap ∈ corpusGaps (shownCorpus runId entries), rowId = gap.rowId runId ∧ row = gap.row runId

/-- One accepted write. -/
def Accepts (corpus : Corpus) (db db' : Db) : Prop :=
  ∃ faults, writeCompletedCorpus corpus faults db = (.ok (), db')

/-- A run that was never written. -/
theorem runShown_freshDb (runId : Str) : RunShown freshDb runId [] where
  runId_eq := rfl
  named := fun h => absurd rfl h
  run := rfl
  rows := (storedRun_freshDb runId).toRunRows
  links := by
    intro evidenceId
    constructor
    · rintro ⟨link, hget⟩
      cases hget
    · rintro ⟨record, hrecord, -⟩
      cases hrecord
  metadata := fun _ h => by cases h
  gaps := fun _ _ _ h => by cases h

/-- The links a write leaves of its run are those of its evidence. -/
theorem exists_link_written_iff {db : Db} (h : CurrentShape db) (corpus : Corpus)
    (evidenceId : Str) :
    (∃ link, (written corpus db).runEvidenceLinks.get (corpus.runId, evidenceId) = some link) ↔
      ∃ record ∈ corpus.evidenceRecords, record.id = evidenceId := by
  rw [get_runEvidenceLinks_written h]
  constructor
  · rintro ⟨link, hget⟩
    rcases Option.or_eq_some_iff.mp hget with hlast | ⟨-, hold⟩
    · obtain ⟨record, hrecord, hkey, -⟩ := Table.mem_of_lastOf hlast
      exact ⟨record, hrecord, (Prod.mk.inj hkey).2⟩
    · rw [Table.get_deleteWhere, Option.filter_eq_some_iff] at hold
      simp at hold
  · rintro ⟨record, hrecord, rfl⟩
    obtain ⟨link, hlast⟩ := Table.exists_lastOf (fun e : EvidenceRecord => (corpus.runId, e.id))
      (finalLink [] (written corpus db).evidenceMetadata) hrecord
    exact ⟨link, by rw [hlast, Option.some_or]⟩

/-- The links of other runs are left alone. -/
theorem get_link_written_of_ne {db : Db} (h : CurrentShape db) {corpus : Corpus} {runId : Str}
    (hne : runId ≠ corpus.runId) (evidenceId : Str) :
    (written corpus db).runEvidenceLinks.get (runId, evidenceId) =
      db.runEvidenceLinks.get (runId, evidenceId) := by
  have hnone : Table.lastOf (fun e : EvidenceRecord => (corpus.runId, e.id))
      (finalLink [] (written corpus db).evidenceMetadata) corpus.evidenceRecords
      (runId, evidenceId) = none := by
    rw [Option.eq_none_iff_forall_ne_some]
    intro link hlast
    obtain ⟨record, -, hkey, -⟩ := Table.mem_of_lastOf hlast
    exact hne (Prod.mk.inj hkey).1.symm
  rw [get_runEvidenceLinks_written h, hnone, Option.none_or, Table.get_deleteWhere]
  cases db.runEvidenceLinks.get (runId, evidenceId) <;> simp [hne]

/-- A write is shown on top of the history of its run. -/
theorem RunShown.own {db db' : Db} {corpus : Corpus} {entries : List Corpus}
    (hwf : WellFormed db) (h : Accepts corpus db db') (hshown : RunShown db corpus.runId entries) :
    RunShown db' corpus.runId (corpus :: entries) := by
  obtain ⟨faults, hwrite⟩ := h
  obtain ⟨hrunId, hvalid, rfl⟩ := writeCompletedCorpus_ok hwrite
  have hstored := storedRun_written hwf hvalid
  have hnamed : corpus.runId ≠ [] := fun hempty => hrunId (by rw [hempty]; rfl)
  refine ⟨rfl, fun _ => hnamed, ?_, hstored.toRunRows,
    exists_link_written_iff hwf.toCurrentShape corpus, hstored.evidenceMetadata, hstored.gaps⟩
  rw [get_scanRuns_written, if_pos rfl, hshown.run, List.head?_cons, Option.map_some]
  -- the stored timestamp is that of the earlier entries, which an empty one keeps
  rcases entries with _ | ⟨earlier, entries⟩
  · by_cases hempty : corpus.executedAt = []
    · simp [shownTimestamp, hempty]
    · simp [shownTimestamp, hempty]
  · by_cases hempty : corpus.executedAt = []
    · simp [shownTimestamp, mergeRun, hempty]
    · simp [shownTimestamp, mergeRun, hempty]

/-- A write is not seen in another run. -/
theorem RunShown.other {db db' : Db} {corpus : Corpus} {runId : Str} {entries : List Corpus}
    (hwf : WellFormed db) (h : Accepts corpus db db') (hne : runId ≠ corpus.runId)
    (hshown : RunShown db runId entries) : RunShown db' runId entries := by
  obtain ⟨faults, hwrite⟩ := h
  obtain ⟨-, -, rfl⟩ := writeCompletedCorpus_ok hwrite
  have hapart : (shownCorpus runId entries).runId ≠ corpus.runId := by
    rw [hshown.runId_eq]
    exact hne
  refine ⟨hshown.runId_eq, hshown.named, ?_, hshown.rows.written_of_ne hwf hapart,
    fun evidenceId => ?_, fun record hrecord => evidenceMetadata_stays hwf.toCurrentShape corpus
      (hshown.metadata record hrecord), fun rowId row hrun hget =>
      hshown.gaps rowId row hrun (gaps_of_other_run hrun hne hget)⟩
  · rw [get_scanRuns_written, if_neg hne]
    exact hshown.run
  · rw [get_link_written_of_ne hwf.toCurrentShape hne]
    exact hshown.links evidenceId

/-- **The tables show the history of every run.** -/
theorem showsHistories : ShowsHistories freshDb Accepts Corpus.runId WellFormed RunShown where
  inv_init := wellFormed_freshDb
  inv_step := fun hwf haccepts => by
    obtain ⟨faults, hwrite⟩ := haccepts
    rw [(writeCompletedCorpus_ok hwrite).eq_written]
    exact hwf.written _
  init := runShown_freshDb
  own := RunShown.own
  other := RunShown.other

/-! ### Ordered lists -/

/-- A list in the order of its texts is an ordered set, where no text repeats. -/
theorem orderBy_id_eq {rows items : List Str} (hnodup : rows.Nodup)
    (hmem : ∀ s, s ∈ rows ↔ s ∈ items) : orderBy [id] rows = orderedSet items := by
  have hle : lexLe [id] = strLe := by
    funext s t
    change (if s = t then true else strLe s t) = strLe s t
    split
    · next heq => rw [heq, strLe_refl]
    · rfl
  have hperm : rows.Perm items.dedup :=
    (List.perm_ext_iff_of_nodup hnodup (List.nodup_dedup _)).mpr fun s => by
      rw [hmem, List.mem_dedup]
  have hsorted : orderedSet items = orderBy [id] items.dedup := by
    rw [orderBy, hle]
    rfl
  rw [hsorted]
  exact orderBy_congr hperm fun _ _ _ _ hagree => hagree id (List.mem_singleton_self _)

/-- Texts that are ordered in different ways are the same list once they are ordered. -/
theorem orderBy_id_congr {rows rows' : List Str} (h : rows.Perm rows') :
    orderBy [id] rows = orderBy [id] rows' :=
  orderBy_congr h fun _ _ _ _ hagree => hagree id (List.mem_singleton_self _)

/-- The rows of a run under the keys of a loop that sets them. -/
theorem exists_key_iff {κ ν α : Type} [DecidableEq κ] {p : κ → ν → Prop} {t : Table κ ν}
    {key : α → κ} {val : α → ν} {items : List α} (h : t.Agrees p (Table.lastOf key val items))
    {k : κ} (hp : ∀ v, p k v) : (∃ v, t.get k = some v) ↔ ∃ a ∈ items, key a = k := by
  constructor
  · rintro ⟨v, hget⟩
    obtain ⟨a, ha, hkey, -⟩ := Table.mem_of_lastOf ((h k v (hp v)).mp hget)
    exact ⟨a, ha, hkey⟩
  · rintro ⟨a, ha, rfl⟩
    obtain ⟨v, hlast⟩ := Table.exists_lastOf key val ha
    exact ⟨v, (h _ v (hp v)).mpr hlast⟩

/-! ### Tables keyed by run -/

section Keys

variable {κ ν : Type} [DecidableEq κ]

theorem mem_keys_of_run {t : Table (Str × κ) ν} {runId : Str} {k : κ} :
    k ∈ (t.rows.filter fun r => r.1.1 = runId).map (fun r => r.1.2) ↔
      ∃ v, t.get (runId, k) = some v := by
  rw [List.mem_map]
  constructor
  · rintro ⟨⟨⟨run, k⟩, v⟩, hr, rfl⟩
    obtain ⟨hmem, hrun⟩ := List.mem_filter.mp hr
    obtain rfl : run = runId := of_decide_eq_true hrun
    exact ⟨v, Table.mem_rows_iff.mp hmem⟩
  · rintro ⟨v, hget⟩
    exact ⟨((runId, k), v), List.mem_filter.mpr
      ⟨Table.mem_rows_iff.mpr hget, decide_eq_true rfl⟩, rfl⟩

omit [DecidableEq κ] in
theorem nodup_keys_of_run (t : Table (Str × κ) ν) (runId : Str) :
    ((t.rows.filter fun r => r.1.1 = runId).map fun r => r.1.2).Nodup := by
  have hkeys : ((t.rows.filter fun r => r.1.1 = runId).map Prod.fst).Nodup :=
    t.nodup.sublist (List.filter_sublist.map _)
  have hsecond := hkeys.map_on (f := Prod.snd) fun a ha b hb heq => by
    obtain ⟨r, hr, rfl⟩ := List.mem_map.mp ha
    obtain ⟨r', hr', rfl⟩ := List.mem_map.mp hb
    have hrun : r.1.1 = runId := of_decide_eq_true (List.mem_filter.mp hr).2
    have hrun' : r'.1.1 = runId := of_decide_eq_true (List.mem_filter.mp hr').2
    exact Prod.ext (hrun.trans hrun'.symm) heq
  rwa [List.map_map] at hsecond

end Keys

/-! ### What is shown is what the queries answer -/

namespace RunShown

variable {db : Db} {runId : Str} {entries : List Corpus}

theorem frameworks_eq (h : RunShown db runId entries) :
    orderBy [id] ((db.runFrameworkLinks.rows.filter fun r => r.1.1 = runId).map fun r => r.1.2) =
      (RunView.of runId entries).frameworks := by
  refine orderBy_id_eq (nodup_keys_of_run _ _) fun frameworkId => ?_
  rw [mem_keys_of_run, exists_key_iff h.rows.frameworkLinks fun _ => h.runId_eq.symm, h.runId_eq,
    List.mem_map]
  exact exists_congr fun framework => and_congr_right fun _ => by simp

theorem controls_eq (h : RunShown db runId entries) :
    orderBy [id] ((db.runControlLinks.rows.filter fun r => r.1.1 = runId).map fun r => r.1.2.2) =
      (RunView.of runId entries).controls := by
  have hkeys : ((db.runControlLinks.rows.filter fun r => r.1.1 = runId).map fun r => r.1.2).Perm
      ((Table.finals (fun c => (c.frameworkId, c.id)) (shownCorpus runId entries).controls).map
        fun c => (c.frameworkId, c.id)) := by
    refine (List.perm_ext_iff_of_nodup (nodup_keys_of_run _ _) (Table.nodup_finals _ _)).mpr
      fun key => ?_
    rw [mem_keys_of_run, Table.mem_map_finals,
      exists_key_iff h.rows.controlLinks fun _ => h.runId_eq.symm, h.runId_eq, List.mem_map]
    exact exists_congr fun control => and_congr_right fun _ => by simp
  have hsecond := hkeys.map Prod.snd
  rw [List.map_map, List.map_map] at hsecond
  exact orderBy_id_congr hsecond

/-- The result rows of the run are those of the final results. -/
theorem results_perm (h : RunShown db runId entries) :
    (db.controlResults.rows.filter fun r => r.2.runId = runId).Perm
      ((finalResults (shownCorpus runId entries)).map fun item =>
        (resultRowId runId item, resultRow runId item)) := by
  have hfinals : Table.finals (resultRowId runId) (shownCorpus runId entries).results =
      finalResults (shownCorpus runId entries) := by
    refine Table.finals_congr (fun item item' => ?_) _
    constructor
    · intro heq
      obtain ⟨-, hframework, hcontrol, hrule⟩ := controlResultRowId_inj heq
      exact Prod.ext hframework (Prod.ext hcontrol hrule)
    · intro heq
      obtain ⟨hframework, hrest⟩ := Prod.mk.inj heq
      obtain ⟨hcontrol, hrule⟩ := Prod.mk.inj hrest
      rw [resultRowId, resultRowId, hframework, hcontrol, hrule]
  have hperm := h.rows.results.perm_finals fun _ _ => rfl
  rw [h.runId_eq, hfinals] at hperm
  exact hperm

/-- Final results differ in framework, control or rule. -/
theorem finalResults_inj {corpus : Corpus} {item item' : ScopedResult}
    (h : item ∈ finalResults corpus) (h' : item' ∈ finalResults corpus)
    (hkey : resultColumnKey item = resultColumnKey item') : item = item' :=
  List.inj_on_of_nodup_map (Table.nodup_finals _ _) h h' hkey

theorem results_eq (h : RunShown db runId entries) :
    (orderBy resultOrder (db.controlResults.rows.filter fun r => r.2.runId = runId)).map
        (fun r => r.2.listed) =
      (RunView.of runId entries).results := by
  have happart : ∀ a ∈ db.controlResults.rows.filter (fun r => r.2.runId = runId),
      ∀ b ∈ db.controlResults.rows.filter (fun r => r.2.runId = runId),
      (∀ column ∈ resultOrder, column a = column b) → a = b := by
    intro a ha b hb hagree
    refine List.inj_on_of_nodup_map db.controlResults.nodup (List.mem_filter.mp ha).1
      (List.mem_filter.mp hb).1 (hagree Prod.fst ?_)
    simp [resultOrder]
  rw [orderBy_congr h.results_perm happart, orderBy_map, List.map_map]
  have hcolumns : lexLe (resultOrder.map (· ∘ fun item =>
      (resultRowId runId item, resultRow runId item))) =
      lexLe [fun item => item.result.controlId, fun item => item.result.ruleId,
        frameworkColumn] := by
    refine @lexLe_concat _ [fun item => item.result.controlId, fun item => item.result.ruleId,
      frameworkColumn] _ fun item item' hagree => ?_
    change resultRowId runId item = resultRowId runId item'
    rw [resultRowId, resultRowId, hagree frameworkColumn (by simp),
      hagree (fun item => item.result.controlId) (by simp),
      hagree (fun item => item.result.ruleId) (by simp)]
  rw [orderBy, hcolumns]
  rfl

theorem resultRecords_eq (h : RunShown db runId entries) :
    (orderBy [ControlResultRow.frameworkId, ControlResultRow.controlId, ControlResultRow.ruleId]
      ((db.controlResults.rows.filter fun r => r.2.runId = runId).map Prod.snd)).map
      ControlResultRow.record = (RunView.of runId entries).resultRecords := by
  have hrows := (h.results_perm.map Prod.snd).symm
  rw [List.map_map] at hrows
  have happart : ∀ a ∈ (finalResults (shownCorpus runId entries)).map
      (Prod.snd ∘ fun item => (resultRowId runId item, resultRow runId item)),
      ∀ b ∈ (finalResults (shownCorpus runId entries)).map
        (Prod.snd ∘ fun item => (resultRowId runId item, resultRow runId item)),
      (∀ column ∈ [ControlResultRow.frameworkId, ControlResultRow.controlId,
        ControlResultRow.ruleId], column a = column b) → a = b := by
    intro a ha b hb hagree
    obtain ⟨item, hitem, rfl⟩ := List.mem_map.mp ha
    obtain ⟨item', hitem', rfl⟩ := List.mem_map.mp hb
    have hkey : resultColumnKey item = resultColumnKey item' :=
      Prod.ext (hagree ControlResultRow.frameworkId (by simp))
        (Prod.ext (hagree ControlResultRow.controlId (by simp))
          (hagree ControlResultRow.ruleId (by simp)))
    rw [finalResults_inj hitem hitem' hkey]
  rw [← orderBy_congr hrows happart, orderBy_map, List.map_map]
  rfl

/-- At most one link of the run joins an evidence id. -/
theorem evidence_eq (h : RunShown db runId entries) :
    orderBy [id] (db.evidenceMetadata.rows.flatMap fun r =>
      (db.runEvidenceLinks.rows.filter fun l => l.1.2 = r.1 ∧ l.1.1 = runId).map fun _ => r.1) =
      (RunView.of runId entries).evidence := by
  refine orderBy_id_eq ?_ fun evidenceId => ?_
  · rw [List.nodup_flatMap]
    constructor
    · intro r _
      have hlinks : (db.runEvidenceLinks.rows.filter fun l =>
          l.1.2 = r.1 ∧ l.1.1 = runId).map Prod.fst = (db.runEvidenceLinks.rows.filter fun l =>
          l.1.2 = r.1 ∧ l.1.1 = runId).map fun _ => (runId, r.1) :=
        List.map_congr_left fun l hl => by
          obtain ⟨hid, hrun⟩ := of_decide_eq_true (List.mem_filter.mp hl).2
          exact Prod.ext hrun hid
      have hnodup := db.runEvidenceLinks.nodup.sublist
        ((List.filter_sublist (p := fun l => l.1.2 = r.1 ∧ l.1.1 = runId)).map Prod.fst)
      rw [hlinks] at hnodup
      have hsecond : ((db.runEvidenceLinks.rows.filter fun l =>
          l.1.2 = r.1 ∧ l.1.1 = runId).map fun _ => (runId, r.1)).map Prod.snd =
          (db.runEvidenceLinks.rows.filter fun l => l.1.2 = r.1 ∧ l.1.1 = runId).map fun _ => r.1 :=
        List.map_map
      rw [← hsecond]
      refine hnodup.map_on fun a ha b hb _ => ?_
      obtain ⟨_, _, rfl⟩ := List.mem_map.mp ha
      obtain ⟨_, _, rfl⟩ := List.mem_map.mp hb
      rfl
    · refine (List.pairwise_map.mp db.evidenceMetadata.nodup).imp fun hne => ?_
      intro evidenceId hleft hright
      obtain ⟨_, _, rfl⟩ := List.mem_map.mp hleft
      obtain ⟨_, _, heq⟩ := List.mem_map.mp hright
      exact hne heq.symm
  · rw [List.mem_flatMap, List.mem_map]
    constructor
    · rintro ⟨r, -, hr⟩
      obtain ⟨⟨⟨run, linked⟩, link⟩, hl, rfl⟩ := List.mem_map.mp hr
      obtain ⟨hmem, hjoined⟩ := List.mem_filter.mp hl
      obtain ⟨hid, hrun⟩ := of_decide_eq_true hjoined
      obtain rfl : linked = r.1 := hid
      obtain rfl : run = runId := hrun
      obtain ⟨record, hrecord, hkey⟩ := (h.links r.1).mp ⟨link, Table.mem_rows_iff.mp hmem⟩
      obtain ⟨evidence, hevidence, rfl⟩ := List.mem_map.mp hrecord
      exact ⟨evidence, hevidence, hkey⟩
    · rintro ⟨evidence, hevidence, rfl⟩
      have hrecord : evidence.record ∈ (shownCorpus runId entries).evidenceRecords :=
        List.mem_map.mpr ⟨evidence, hevidence, rfl⟩
      obtain ⟨row, hrow⟩ := h.metadata _ hrecord
      obtain ⟨link, hlink⟩ := (h.links evidence.id).mpr ⟨_, hrecord, rfl⟩
      refine ⟨(evidence.id, row), Table.mem_rows_iff.mpr hrow, List.mem_map.mpr
        ⟨((runId, evidence.id), link), List.mem_filter.mpr
          ⟨Table.mem_rows_iff.mpr hlink, decide_eq_true ⟨rfl, rfl⟩⟩, rfl⟩⟩

end RunShown

/-! ### Scores -/

/-- The counted frameworks do not repeat, and are in order. -/
theorem nodup_scoreSummaryCounts (corpus : Corpus) :
    ((scoreSummaryCounts corpus).map Prod.fst).Nodup :=
  ((List.perm_insertionSort _ _).map Prod.fst).nodup_iff.mpr (Table.nodup _)

theorem orderBy_scoreSummaryCounts (corpus : Corpus) :
    orderBy [Prod.fst] (scoreSummaryCounts corpus) = scoreSummaryCounts corpus := by
  have hle : (fun a b : Str × ScoreSummaryCounts => strLe a.1 b.1) = lexLe [Prod.fst] := by
    funext a b
    change strLe a.1 b.1 = if a.1 = b.1 then true else strLe a.1 b.1
    split
    · next heq => rw [heq, strLe_refl]
    · rfl
  have hsorted : scoreSummaryCounts corpus =
      orderBy [Prod.fst] (corpus.results.foldl countResult Table.empty).rows := by
    rw [scoreSummaryCounts, hle]
    rfl
  rw [hsorted]
  exact eq_of_perm_of_sorted [Prod.fst] (orderBy_perm _ _) (orderBy_pairwise _ _)
    (orderBy_pairwise _ _) fun a ha b hb hagree => by
      have hkeys : ((orderBy [Prod.fst]
          (corpus.results.foldl countResult Table.empty).rows).map Prod.fst).Nodup := by
        rw [← hsorted]
        exact nodup_scoreSummaryCounts corpus
      exact List.inj_on_of_nodup_map hkeys ((orderBy_perm _ _).mem_iff.mp ha) hb
        (hagree _ (List.mem_singleton_self _))

theorem mapM_some {α β : Type} {f : α → Option β} {g : α → β} {items : List α}
    (h : ∀ a ∈ items, f a = some (g a)) : items.mapM f = some (items.map g) := by
  induction items with
  | nil => rfl
  | cons a items ih =>
      rw [List.mapM_cons, h a List.mem_cons_self, ih fun b hb => h b (List.mem_cons_of_mem a hb)]
      rfl

namespace RunShown

variable {db : Db} {runId : Str} {entries : List Corpus}

theorem scoreRows_eq (h : RunShown db runId entries) :
    scoreRowsForRun runId db =
      (scoreSummaryCounts (shownCorpus runId entries)).map (summaryRow runId) := by
  have hnodup : ((scoreSummaryCounts (shownCorpus runId entries)).map
      (summaryRowId runId)).Nodup := by
    rw [show summaryRowId runId = scoreSummaryRowId runId ∘ Prod.fst from rfl, ← List.map_map]
    exact (nodup_scoreSummaryCounts _).map fun _ _ heq => (scoreSummaryRowId_inj heq).2
  have hrows := h.rows.scores
  rw [h.runId_eq] at hrows
  have hperm := ((hrows.perm hnodup fun _ _ => rfl).map Prod.snd).symm
  rw [List.map_map] at hperm
  have happart : ∀ a ∈ (scoreSummaryCounts (shownCorpus runId entries)).map
      (Prod.snd ∘ fun summary => (summaryRowId runId summary, summaryRow runId summary)),
      ∀ b ∈ (scoreSummaryCounts (shownCorpus runId entries)).map
        (Prod.snd ∘ fun summary => (summaryRowId runId summary, summaryRow runId summary)),
      (∀ column ∈ [scoreFramework], column a = column b) → a = b := by
    intro a ha b hb hagree
    obtain ⟨summary, hmem, rfl⟩ := List.mem_map.mp ha
    obtain ⟨summary', hmem', rfl⟩ := List.mem_map.mp hb
    rw [List.inj_on_of_nodup_map (nodup_scoreSummaryCounts _) hmem hmem'
      (hagree _ (List.mem_singleton_self _))]
  rw [scoreRowsForRun, ← orderBy_congr hperm happart, orderBy_map]
  exact congrArg _ (orderBy_scoreSummaryCounts _)

end RunShown

/-- The queries of the score table. -/
theorem answers_scores {db : Db} {runId : Str} {entries : List Corpus} (hdb : CurrentShape db)
    (h : RunShown db runId entries) :
    (selectScoreFrameworks runId).Answers db
        ((RunView.of runId entries).scores.map ScoreSummaryRecord.frameworkId) ∧
      (selectScoreSummaries runId).Answers db (RunView.of runId entries).scores := by
  refine ⟨answers_fetch hdb ?_, answers_fetch hdb ?_⟩
  · have hframeworks : (RunView.of runId entries).scores.map ScoreSummaryRecord.frameworkId =
        (scoreSummaryCounts (shownCorpus runId entries)).map Prod.fst :=
      List.map_map
    rw [h.scoreRows_eq, List.mapM_map, hframeworks]
    exact mapM_some fun _ _ => rfl
  · rw [h.scoreRows_eq, List.mapM_map]
    exact mapM_some fun _ _ => rfl

/-- A table that needs no repair is only read. -/
theorem readScores_of_current {α : Type} {select : DbTx α} {db : Db} {a : α}
    (h : CurrentShape db) (hselect : select.Answers db a) :
    readScores select (fun _ => false) (fun _ => false) (fun _ => false) db = (.ok a, db) := by
  rw [readScores, ensureScoreSummarySchema_of_current h.scoreSchema]
  exact congrArg (·, db) hselect.answer_eq

/-- **What is shown is what the queries answer.** -/
theorem answered_of_shown {db : Db} {runId : Str} {entries : List Corpus} (hdb : CurrentShape db)
    (h : RunShown db runId entries) : Answered db runId (RunView.of runId entries) where
  executedAt := by
    have hrun : (db.scanRuns.get runId).map ScanRunRow.executedAt =
        (RunView.of runId entries).executedAt := by
      rw [h.run, Option.map_map]
      rfl
    exact hrun ▸ answers_ask hdb _
  frameworks := h.frameworks_eq ▸ answers_ask hdb _
  controls := h.controls_eq ▸ answers_ask hdb _
  results := by
    rw [queryResultsForRun]
    split
    · next hempty =>
        have hnone : entries = [] := by
          by_contra hne
          exact h.named hne hempty
        subst hnone
        exact answers_pure [] db
    · exact h.results_eq ▸ answers_ask hdb _
  resultRecords := h.resultRecords_eq ▸ answers_ask hdb _
  evidence := h.evidence_eq ▸ answers_ask hdb _
  scoreRecords := readScores_of_current hdb (answers_scores hdb h).1
  scores := readScores_of_current hdb (answers_scores hdb h).2

end SovriAgent
