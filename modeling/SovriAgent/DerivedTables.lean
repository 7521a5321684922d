import SovriAgent.Integrity

/-!
# Gaps and Scores Agree with the Results

The gap and score tables are derived from the results, but by loops of their own: gaps are
inserted unless there is one, results are updated, and the scores are counted in memory.
The three agree as long as no counted result of a framework is repeated later in its corpus,
and no gap stands in the place another gap is deleted from.

## Main results

* `gapImage_eq_some_iff`: without such collisions every gap leaves its row.
* `statusCount_eq`: the stored results are counted as the corpus's are.
* `derived_tables_agree`: over every run of writes without collisions, the gap and score
  rows of each run are those its stored results give.
* `repeated_result_disagrees`: a result that is repeated under another status.
-/

namespace SovriAgent

open Keyed

/-! ### What agreement means -/

/-- The gap row of a stored result. -/
def ControlResultRow.gap (row : ControlResultRow) : GapRow :=
  ⟨some row.runId, some row.status, some row.severity, some row.controlId, some row.ruleId⟩

/-- The entry of the gap table for an entry of the result table. -/
def gapEntry (entry : Str × ControlResultRow) : Str × GapRow :=
  (complianceGapRowId entry.2.runId entry.2.frameworkId entry.2.controlId entry.2.ruleId,
    entry.2.gap)

/-- The stored results of a run that are gaps of a framework. -/
def gapResults (db : Db) (runId : Str) : Set (Str × ControlResultRow) :=
  {entry | db.controlResults.get entry.1 = some entry.2 ∧ entry.2.runId = runId ∧
    entry.2.frameworkId ≠ [] ∧
    (entry.2.status = Status.fail.label ∨ entry.2.status = Status.warning.label)}

/-- The stored gaps of a run. -/
def storedGaps (db : Db) (runId : Str) : Set (Str × GapRow) :=
  {entry | db.complianceGaps.get entry.1 = some entry.2 ∧ entry.2.runId = some runId}

/-- The stored scores of a run. -/
def storedScores (db : Db) (runId : Str) : Set (Str × ScoreRow) :=
  {entry | db.scoreSummaries.get entry.1 = some entry.2 ∧ entry.2.runId = some runId}

/-- The scores the back-fill would compute for a run from its stored results. -/
def recomputedScores (db : Db) (runId : Str) : Set (Str × ScoreRow) :=
  {entry | ∃ group ∈ scoreGroups db.controlResults, group.runId = runId ∧
    entry = (group.rowId, group.row)}

/-- The gaps and scores of a run are those of its stored results. -/
structure DerivedAgree (db : Db) (runId : Str) : Prop where
  gaps : Set.BijOn gapEntry (gapResults db runId) (storedGaps db runId)
  scores : storedScores db runId = recomputedScores db runId

/-! ### Writes without collisions -/

/-- A result that is counted in the score of its framework. -/
def IsCounted (item : ScopedResult) : Prop :=
  (scoredFramework item).isSome = true ∧
    (item.result.status = .pass ∨ item.result.status = .fail ∨ item.result.status = .warning)

instance (item : ScopedResult) : Decidable (IsCounted item) :=
  inferInstanceAs (Decidable (_ ∧ _))

/-- A corpus without collisions among its own results and gaps. -/
structure CleanCorpus (corpus : Corpus) : Prop where
  named : ∀ item ∈ corpus.results, item.frameworkId ≠ some []
  unrepeated : corpus.results.Pairwise fun item later => IsCounted item →
    resultRowId corpus.runId later ≠ resultRowId corpus.runId item
  gapsApart : (corpusGaps corpus).Pairwise fun gap later =>
    later.legacyId ≠ gap.rowId corpus.runId

/-- A write without collisions: neither in the corpus, nor with the gaps of another run. -/
structure CleanWrite (corpus : Corpus) (db : Db) : Prop extends CleanCorpus corpus where
  otherGaps : ∀ gap ∈ corpusGaps corpus, ∀ row,
    db.complianceGaps.get gap.legacyId = some row → row.runId = some corpus.runId

/-- An accepted write without collisions. -/
def CleanStep (db db' : Db) : Prop :=
  ∃ corpus faults, CleanWrite corpus db ∧ writeCompletedCorpus corpus faults db = (.ok (), db')

/-! ### Gaps -/

/-- A gap status is counted. -/
theorem counted_of_isGapStatus {status : Status} (h : isGapStatus status = true) :
    status = .fail ∨ status = .warning := by
  cases status
  case fail => exact .inl rfl
  case warning => exact .inr rfl
  all_goals cases h

namespace CleanCorpus

variable {corpus : Corpus}

/-- A result with a framework is scored. -/
theorem scoredFramework_eq (h : CleanCorpus corpus) {item : ScopedResult}
    (hitem : item ∈ corpus.results) {frameworkId : Str}
    (hframework : item.frameworkId = some frameworkId) :
    scoredFramework item = some frameworkId := by
  rw [scoredFramework, Option.filter_eq_some_iff]
  refine ⟨hframework, decide_eq_true fun hempty => ?_⟩
  exact h.named item hitem (hframework.trans (congrArg some hempty))

/-- The result of a gap is counted. -/
theorem isCounted_of_gap (h : CleanCorpus corpus) {item : ScopedResult}
    (hitem : item ∈ corpus.results) {gap : ScopedGap} (hgap : scopedGap item = some gap) :
    IsCounted item := by
  obtain ⟨hframework, hresult⟩ := scopedGap_eq_some hgap
  rw [IsCounted, h.scoredFramework_eq hitem hframework, hresult]
  exact ⟨rfl, .inr (counted_of_isGapStatus gap.isGap)⟩

/-- The row id of a gap is composed as the one of its result. -/
theorem gapRowId_ne {item item' : ScopedResult} {gap gap' : ScopedGap}
    (hgap : scopedGap item = some gap) (hgap' : scopedGap item' = some gap') {runId : Str}
    (hne : resultRowId runId item ≠ resultRowId runId item') :
    gap.rowId runId ≠ gap'.rowId runId := by
  intro heq
  obtain ⟨hframework, hresult⟩ := scopedGap_eq_some hgap
  obtain ⟨hframework', hresult'⟩ := scopedGap_eq_some hgap'
  obtain ⟨-, h₁, h₂, h₃⟩ := complianceGapRowId_inj heq
  apply hne
  rw [resultRowId, resultRowId, frameworkColumn, frameworkColumn, hframework, hframework', hresult,
    hresult', h₁, h₂, h₃]

/-- No later gap takes the place of a gap, or deletes it. -/
theorem gaps_pairwise (h : CleanCorpus corpus) : (corpusGaps corpus).Pairwise fun gap later =>
    gap.rowId corpus.runId ≠ later.rowId corpus.runId ∧
      gap.rowId corpus.runId ≠ later.legacyId := by
  have hrows : (corpusGaps corpus).Pairwise fun gap later =>
      gap.rowId corpus.runId ≠ later.rowId corpus.runId := by
    rw [corpusGaps, List.pairwise_filterMap]
    refine h.unrepeated.imp_of_mem fun hitem _ hne gap hgap gap' hgap' => ?_
    exact gapRowId_ne hgap hgap' (hne (h.isCounted_of_gap hitem hgap)).symm
  exact hrows.and (h.gapsApart.imp fun hne => hne.symm)

end CleanCorpus

/-- Every gap of a list without collisions leaves its row. -/
theorem foldl_gapTurn_of_mem {runId : Str} {gaps : List ScopedGap}
    (hpairwise : gaps.Pairwise fun gap later =>
      gap.rowId runId ≠ later.rowId runId ∧ gap.rowId runId ≠ later.legacyId)
    {gap : ScopedGap} (hgap : gap ∈ gaps) :
    gaps.foldl (gapTurn runId (gap.rowId runId)) none = some (gap.row runId) := by
  induction gaps with
  | nil => cases hgap
  | cons first gaps ih =>
      obtain ⟨hfirst, hrest⟩ := List.pairwise_cons.mp hpairwise
      rw [List.foldl_cons]
      rcases List.mem_cons.mp hgap with rfl | hmem
      · have hturn : gapTurn runId (gap.rowId runId) none gap = some (gap.row runId) := by
          simp [gapTurn]
        have hkept : ¬ ∃ later ∈ gaps, gap.rowId runId = later.legacyId := by
          rintro ⟨later, hlater, heq⟩
          exact (hfirst later hlater).2 heq
        rw [hturn, foldl_gapTurn_of_ne (fun later hlater => (hfirst later hlater).1), if_neg hkept]
      · have hturn : gapTurn runId (gap.rowId runId) none first = none := by
          simp [gapTurn, (hfirst gap hmem).1.symm]
        rw [hturn]
        exact ih hrest hmem

/-- **Every gap leaves its row**, and nothing else does. -/
theorem gapImage_eq_some_iff {corpus : Corpus} (h : CleanCorpus corpus) {rowId : Str}
    {row : GapRow} : gapImage corpus rowId = some row ↔
      ∃ gap ∈ corpusGaps corpus, rowId = gap.rowId corpus.runId ∧ row = gap.row corpus.runId := by
  constructor
  · intro himage
    rcases mem_of_foldl_gapTurn himage with hnone | hgap
    · cases hnone
    · exact hgap
  · rintro ⟨gap, hgap, rfl, rfl⟩
    exact foldl_gapTurn_of_mem h.gaps_pairwise hgap

/-! ### Counts -/

/-- The entries of the recomputed scores. -/
theorem mem_scoreGroups {results : Table Str ControlResultRow} {group : ScoreGroup} :
    group ∈ scoreGroups results ↔
      (∃ rowId row, results.get rowId = some row ∧ row.runId = group.runId ∧
        row.frameworkId = group.frameworkId ∧ group.runId ≠ [] ∧ group.frameworkId ≠ []) ∧
      group.passCount = statusCount results group.runId group.frameworkId .pass ∧
      group.failCount = statusCount results group.runId group.frameworkId .fail ∧
      group.warningCount = statusCount results group.runId group.frameworkId .warning := by
  obtain ⟨runId, frameworkId, pass, fail, warning⟩ := group
  have hkeys : ∀ k : Str × Str, (k ∈ ((results.rows.filter fun r =>
        r.2.runId ≠ [] ∧ r.2.frameworkId ≠ []).map fun r => (r.2.runId, r.2.frameworkId)).dedup) ↔
      ∃ rowId row, results.get rowId = some row ∧ row.runId = k.1 ∧ row.frameworkId = k.2 ∧
        k.1 ≠ [] ∧ k.2 ≠ [] := by
    rintro ⟨runId, frameworkId⟩
    rw [List.mem_dedup, List.mem_map]
    constructor
    · rintro ⟨⟨rowId, row⟩, hmem, heq⟩
      obtain ⟨rfl, rfl⟩ := Prod.mk.inj heq
      obtain ⟨hrow, hne⟩ := List.mem_filter.mp hmem
      have hne := of_decide_eq_true hne
      exact ⟨rowId, row, Table.mem_rows_iff.mp hrow, rfl, rfl, hne.1, hne.2⟩
    · rintro ⟨rowId, row, hget, rfl, rfl, hrun, hframework⟩
      exact ⟨(rowId, row), List.mem_filter.mpr
        ⟨Table.mem_rows_iff.mpr hget, decide_eq_true ⟨hrun, hframework⟩⟩, rfl⟩
  rw [scoreGroups, List.mem_map]
  constructor
  · rintro ⟨key, hmem, heq⟩
    rw [sortBy, (List.perm_insertionSort _ _).mem_iff, hkeys] at hmem
    obtain ⟨rfl, rfl, rfl, rfl, rfl⟩ := ScoreGroup.mk.inj heq
    exact ⟨hmem, rfl, rfl, rfl⟩
  · rintro ⟨hkey, hpass, hfail, hwarning⟩
    refine ⟨(runId, frameworkId), ?_, ScoreGroup.mk.injEq .. ▸
      ⟨rfl, rfl, hpass.symm, hfail.symm, hwarning.symm⟩⟩
    rw [sortBy, (List.perm_insertionSort _ _).mem_iff, hkeys]
    exact hkey

/-! ### Stored runs without collisions -/

/-- A run as it stands after writes without collisions. -/
structure CleanRun (corpus : Corpus) (db : Db) : Prop extends CleanCorpus corpus,
    RunRows corpus db where
  gaps : db.complianceGaps.Agrees (fun _ row => row.runId = some corpus.runId) (gapImage corpus)
  runId_ne : corpus.results ≠ [] → corpus.runId ≠ []

namespace CleanRun

variable {corpus : Corpus} {db : Db}

/-- A stored result is the one of a result of the corpus. -/
theorem mem_of_row (h : CleanRun corpus db) {rowId : Str} {row : ControlResultRow}
    (hget : db.controlResults.get rowId = some row) (hrun : row.runId = corpus.runId) :
    ∃ item ∈ corpus.results, resultRowId corpus.runId item = rowId ∧
      resultRow corpus.runId item = row :=
  Table.mem_of_lastOf ((h.results rowId row hrun).mp hget)

/-- A counted result of the corpus is stored. -/
theorem get_of_counted (h : CleanRun corpus db) {item : ScopedResult}
    (hitem : item ∈ corpus.results) (hcounted : IsCounted item) :
    db.controlResults.get (resultRowId corpus.runId item) =
      some (resultRow corpus.runId item) :=
  (h.results _ _ rfl).mpr (Table.lastOf_of_pairwise h.unrepeated hitem hcounted)

/-- A stored result with a framework is scored under it. -/
theorem scored_of_column (h : CleanRun corpus db) {item : ScopedResult}
    (hitem : item ∈ corpus.results) {frameworkId : Str}
    (hcolumn : frameworkColumn item = frameworkId) (hne : frameworkId ≠ []) :
    scoredFramework item = some frameworkId := by
  subst hcolumn
  exact h.scoredFramework_eq hitem (frameworkId_of_column hne)

/-- The gap of a result is the entry of its row. -/
theorem gapEntry_resultRow {item : ScopedResult} {gap : ScopedGap}
    (hgap : scopedGap item = some gap) (runId : Str) :
    gapEntry (resultRowId runId item, resultRow runId item) = (gap.rowId runId, gap.row runId) := by
  obtain ⟨hframework, hresult⟩ := scopedGap_eq_some hgap
  rw [gapEntry, ControlResultRow.gap, ScopedGap.rowId, ScopedGap.row, resultRow, frameworkColumn,
    hframework, hresult]
  rfl

/-- **The gaps of the run** are those of its stored results. -/
theorem bijOn_gaps (h : CleanRun corpus db) (hwf : WellFormed db) :
    Set.BijOn gapEntry (gapResults db corpus.runId) (storedGaps db corpus.runId) := by
  refine ⟨?_, ?_, ?_⟩
  · rintro ⟨rowId, row⟩ ⟨hget, hrun, hframework, hstatus⟩
    obtain ⟨item, hitem, rfl, rfl⟩ := h.mem_of_row hget hrun
    have hisGap : isGapStatus item.result.status = true := by
      rcases hstatus with hstatus | hstatus
      · rw [Status.label_injective hstatus]
        rfl
      · rw [Status.label_injective hstatus]
        rfl
    have hgap : scopedGap item = some ⟨frameworkColumn item, item.result, hisGap⟩ := by
      rw [scopedGap, frameworkId_of_column hframework, Option.bind_some, dif_pos hisGap]
    rw [gapEntry_resultRow hgap]
    refine ⟨(h.gaps _ _ rfl).mpr ((gapImage_eq_some_iff h.toCleanCorpus).mpr ?_), rfl⟩
    exact ⟨_, List.mem_filterMap.mpr ⟨item, hitem, hgap⟩, rfl, rfl⟩
  · rintro ⟨rowId, row⟩ ⟨hget, -⟩ ⟨rowId', row'⟩ ⟨hget', -⟩ heq
    obtain ⟨hr, hf, hc, hu⟩ := complianceGapRowId_inj (Prod.mk.inj heq).1
    obtain rfl : rowId = rowId' :=
      (hwf.results rowId row hget).trans
        ((by rw [hr, hf, hc, hu] : controlResultRowId _ _ _ _ = _).trans
          (hwf.results rowId' row' hget').symm)
    exact Prod.ext rfl (Option.some.inj (hget.symm.trans hget'))
  · rintro ⟨rowId, row⟩ ⟨hget, hrun⟩
    obtain ⟨gap, hgap, rfl, rfl⟩ := (gapImage_eq_some_iff h.toCleanCorpus).mp
      ((h.gaps _ _ hrun).mp hget)
    obtain ⟨item, hitem, hscoped⟩ := List.mem_filterMap.mp hgap
    obtain ⟨hframework, hresult⟩ := scopedGap_eq_some hscoped
    refine ⟨_, ⟨h.get_of_counted hitem (h.isCounted_of_gap hitem hscoped), rfl, ?_, ?_⟩,
      gapEntry_resultRow hscoped _⟩
    · intro hempty
      have hcolumn : frameworkColumn item = [] := hempty
      rw [frameworkColumn, hframework, Option.getD_some] at hcolumn
      exact h.named item hitem (hframework.trans (congrArg some hcolumn))
    · have hstatus := counted_of_isGapStatus gap.isGap
      rw [← hresult] at hstatus
      exact hstatus.imp (congrArg Status.label) (congrArg Status.label)

/-- **The stored results of a framework are counted as those of the corpus.** -/
theorem statusCount_eq (h : CleanRun corpus db) {frameworkId : Str} (hne : frameworkId ≠ [])
    {status : Status} (hstatus : status = .pass ∨ status = .fail ∨ status = .warning) :
    statusCount db.controlResults corpus.runId frameworkId status =
      resultCount corpus.results frameworkId status := by
  let rows := db.controlResults.rows.filter fun r => decide
    (r.2.runId = corpus.runId ∧ r.2.frameworkId = frameworkId ∧ r.2.status = status.label)
  let items := corpus.results.filter fun item => decide
    (scoredFramework item = some frameworkId ∧ item.result.status = status)
  have hrows : (rows.map Prod.fst).Nodup :=
    db.controlResults.nodup.sublist (List.filter_sublist.map _)
  have hcounted : ∀ item ∈ items, IsCounted item := by
    intro item hitem
    obtain ⟨hscored, hresult⟩ := of_decide_eq_true (List.mem_filter.mp hitem).2
    rw [IsCounted, hscored, hresult]
    exact ⟨rfl, hstatus⟩
  have hitems : (items.map (resultRowId corpus.runId)).Nodup := by
    rw [List.Nodup, List.pairwise_map]
    refine (h.unrepeated.filter _).imp_of_mem fun hitem _ hne' => ?_
    exact (hne' (hcounted _ hitem)).symm
  have hsame : ∀ rowId, rowId ∈ rows.map Prod.fst ↔
      rowId ∈ items.map (resultRowId corpus.runId) := by
    intro rowId
    rw [List.mem_map, List.mem_map]
    constructor
    · rintro ⟨⟨rowId, row⟩, hmem, rfl⟩
      obtain ⟨hrow, hcond⟩ := List.mem_filter.mp hmem
      obtain ⟨hrun, hframework, hlabel⟩ := of_decide_eq_true hcond
      obtain ⟨item, hitem, rfl, rfl⟩ := h.mem_of_row (Table.mem_rows_iff.mp hrow) hrun
      exact ⟨item, List.mem_filter.mpr ⟨hitem, decide_eq_true
        ⟨h.scored_of_column hitem hframework hne, Status.label_injective hlabel⟩⟩, rfl⟩
    · rintro ⟨item, hmem, rfl⟩
      obtain ⟨hitem, hcond⟩ := List.mem_filter.mp hmem
      obtain ⟨hscored, hresult⟩ := of_decide_eq_true hcond
      have hget := h.get_of_counted hitem (hcounted item hmem)
      exact ⟨(_, resultRow corpus.runId item), List.mem_filter.mpr ⟨Table.mem_rows_iff.mpr hget,
        decide_eq_true ⟨rfl, frameworkColumn_of_scored hscored, congrArg Status.label hresult⟩⟩,
        rfl⟩
  have hperm := (List.perm_ext_iff_of_nodup hrows hitems).mpr hsame
  have hlength := hperm.length_eq
  rw [List.length_map, List.length_map] at hlength
  rw [statusCount, resultCount, List.countP_eq_length_filter, List.countP_eq_length_filter]
  exact hlength

/-- The score group of a scored framework. -/
def scoreGroup (corpus : Corpus) (frameworkId : Str) : ScoreGroup :=
  ⟨corpus.runId, frameworkId, resultCount corpus.results frameworkId .pass,
    resultCount corpus.results frameworkId .fail, resultCount corpus.results frameworkId .warning⟩

/-- The back-fill groups the stored results of the run by its scored frameworks. -/
theorem mem_scoreGroups_iff (h : CleanRun corpus db) {group : ScoreGroup} :
    group ∈ scoreGroups db.controlResults ∧ group.runId = corpus.runId ↔
      ∃ frameworkId ∈ scoredFrameworks corpus.results, group = scoreGroup corpus frameworkId := by
  constructor
  · obtain ⟨runId, frameworkId, pass, fail, warning⟩ := group
    rintro ⟨hgroup, hrunId⟩
    obtain rfl : runId = corpus.runId := hrunId
    obtain ⟨⟨rowId, row, hget, hrun, hframework, -, hne⟩, hpass, hfail, hwarning⟩ :=
      mem_scoreGroups.mp hgroup
    obtain ⟨item, hitem, -, rfl⟩ := h.mem_of_row hget hrun
    refine ⟨frameworkId, List.mem_filterMap.mpr
      ⟨item, hitem, h.scored_of_column hitem hframework hne⟩, ?_⟩
    exact ScoreGroup.mk.injEq .. ▸ ⟨rfl, rfl, hpass.trans (h.statusCount_eq hne (.inl rfl)),
      hfail.trans (h.statusCount_eq hne (.inr (.inl rfl))),
      hwarning.trans (h.statusCount_eq hne (.inr (.inr rfl)))⟩
  · rintro ⟨frameworkId, hframework, rfl⟩
    obtain ⟨item, hitem, hscored⟩ := List.mem_filterMap.mp hframework
    have hne : frameworkId ≠ [] := of_decide_eq_true (Option.filter_eq_some_iff.mp hscored).2
    obtain ⟨row, hget, hrun, hcolumn, -, -⟩ := h.exists_result hitem
    rw [frameworkColumn_of_scored hscored] at hcolumn
    refine ⟨mem_scoreGroups.mpr ⟨⟨_, row, hget, hrun, hcolumn, ?_, hne⟩, ?_, ?_, ?_⟩, rfl⟩
    · exact h.runId_ne (List.ne_nil_of_mem hitem)
    · exact (h.statusCount_eq hne (.inl rfl)).symm
    · exact (h.statusCount_eq hne (.inr (.inl rfl))).symm
    · exact (h.statusCount_eq hne (.inr (.inr rfl))).symm

/-- **The scores of the run** are those the back-fill recomputes from its stored results. -/
theorem storedScores_eq (h : CleanRun corpus db) :
    storedScores db corpus.runId = recomputedScores db corpus.runId := by
  have hsummary : ∀ {frameworkId}, frameworkId ∈ scoredFrameworks corpus.results →
      (frameworkId, resultCounts corpus.results frameworkId) ∈ scoreSummaryCounts corpus :=
    fun hscored => mem_scoreSummaryCounts.mpr ⟨hscored, rfl⟩
  ext ⟨rowId, row⟩
  constructor
  · rintro ⟨hget, hrun⟩
    obtain ⟨⟨frameworkId, counts⟩, hmem, rfl, rfl⟩ :=
      Table.mem_of_lastOf ((h.scores rowId row hrun).mp hget)
    obtain ⟨hscored, hcounts⟩ := mem_scoreSummaryCounts.mp hmem
    obtain rfl : counts = resultCounts corpus.results frameworkId := hcounts
    obtain ⟨hgroup, hrunId⟩ := h.mem_scoreGroups_iff.mpr ⟨frameworkId, hscored, rfl⟩
    exact ⟨scoreGroup corpus frameworkId, hgroup, hrunId, rfl⟩
  · rintro ⟨group, hgroup, hrunId, heq⟩
    obtain ⟨frameworkId, hscored, rfl⟩ := h.mem_scoreGroups_iff.mp ⟨hgroup, hrunId⟩
    obtain ⟨rfl, rfl⟩ := Prod.mk.inj heq
    obtain ⟨row, hlast⟩ := Table.exists_lastOf (summaryRowId corpus.runId)
      (summaryRow corpus.runId) (hsummary hscored)
    obtain ⟨⟨frameworkId', counts⟩, hmem, hid, rfl⟩ := Table.mem_of_lastOf hlast
    obtain ⟨-, hcounts⟩ := mem_scoreSummaryCounts.mp hmem
    obtain rfl : frameworkId' = frameworkId := (scoreSummaryRowId_inj hid).2
    obtain rfl : counts = resultCounts corpus.results frameworkId' := hcounts
    exact ⟨(h.scores _ _ rfl).mpr hlast, rfl⟩

/-- What a write without collisions leaves of its run. -/
theorem of_written (hwf : WellFormed db) (hclean : CleanCorpus corpus)
    (hrunId : trim corpus.runId ≠ []) : CleanRun corpus (written corpus db) where
  toCleanCorpus := hclean
  toRunRows := runRows_written hwf.toCurrentShape corpus
  gaps := gapRows_written hwf corpus
  runId_ne := by
    rintro - hempty
    rw [hempty] at hrunId
    exact hrunId rfl

/-- What a write without collisions leaves of the other runs. -/
theorem written_of_ne (h : CleanRun corpus db) (hwf : WellFormed db) {other : Corpus}
    (hclean : CleanWrite other db) (hne : corpus.runId ≠ other.runId) :
    CleanRun corpus (written other db) where
  toCleanCorpus := h.toCleanCorpus
  toRunRows := h.toRunRows.written_of_ne hwf hne
  runId_ne := h.runId_ne
  gaps := by
    refine Table.SameWhere.agrees (fun rowId row hrun => ?_) h.gaps
    constructor
    · exact gaps_of_other_run hrun hne
    · intro hget
      have hkept : (db.complianceGaps.deleteWhere fun _ row =>
          row.runId = some other.runId).get rowId = some row := by
        rw [Table.get_deleteWhere, hget, Option.filter_some_pos]
        simp [hrun, hne]
      have hlegacy : ¬ ∃ gap ∈ corpusGaps other, rowId = gap.legacyId := by
        rintro ⟨gap, hgap, rfl⟩
        have howner := hclean.otherGaps gap hgap row hget
        exact hne (Option.some.inj (hrun.symm.trans howner))
      rw [get_complianceGaps_written, hkept,
        foldl_gapTurn_of_ne fun gap _ => hwf.ne_gapRowId hkept gap, if_neg hlegacy]

end CleanRun

/-! ### Runs of writes -/

theorem accepted_of_clean {db db' : Db} (h : Relation.ReflTransGen CleanStep db db') :
    Relation.ReflTransGen AcceptedStep db db' := by
  induction h with
  | refl => exact .refl
  | tail _ hstep ih =>
      obtain ⟨corpus, faults, -, hwrite⟩ := hstep
      exact ih.tail ⟨corpus, faults, hwrite⟩

/-- Every run stands in the database as some corpus without collisions. -/
theorem cleanRun_of_reachable {db : Db} (h : Relation.ReflTransGen CleanStep freshDb db)
    (runId : Str) : ∃ corpus : Corpus, corpus.runId = runId ∧ CleanRun corpus db := by
  induction h with
  | refl =>
      have hrows : RunRows ((Corpus.new []).withRunId runId) freshDb :=
        (storedRun_freshDb runId).toRunRows
      refine ⟨(Corpus.new []).withRunId runId, rfl, ⟨⟨?_, .nil, .nil⟩, hrows, ?_, ?_⟩⟩
      · exact fun _ h => by cases h
      · exact fun _ _ _ => Iff.rfl
      · exact fun h => absurd rfl h
  | @tail db db' hreach hstep ih =>
      obtain ⟨other, faults, hclean, hwrite⟩ := hstep
      have hwf := wellFormed_of_reachable (accepted_of_clean hreach)
      have haccepted := writeCompletedCorpus_ok hwrite
      rw [haccepted.eq_written]
      by_cases hrun : other.runId = runId
      · exact ⟨other, hrun, .of_written hwf hclean.toCleanCorpus haccepted.runId_ne⟩
      · obtain ⟨corpus, rfl, hrows⟩ := ih
        exact ⟨corpus, rfl, hrows.written_of_ne hwf hclean (Ne.symm hrun)⟩

/-- **The derived tables agree with the stored results**: in every database that writes without
collisions reach, the gap rows of each run are one for each of its stored results that is a
gap of a framework, and its score rows are those the back-fill would recompute. -/
theorem derived_tables_agree {db : Db} (hreach : Relation.ReflTransGen CleanStep freshDb db)
    (runId : Str) : DerivedAgree db runId := by
  obtain ⟨corpus, rfl, h⟩ := cleanRun_of_reachable hreach runId
  exact ⟨h.bijOn_gaps (wellFormed_of_reachable (accepted_of_clean hreach)), h.storedScores_eq⟩

theorem cleanWrite_failedCorpus : CleanWrite (failedCorpus "a".toList) freshDb where
  named := by decide
  unrepeated := by decide
  gapsApart := List.pairwise_singleton _ _
  otherGaps := fun _ _ _ h => by cases h

theorem derived_tables_agree_failed :
    DerivedAgree (written (failedCorpus "a".toList) freshDb) "a".toList := by
  have haccepted : writeCompletedCorpus (failedCorpus "a".toList) (fun _ => false) freshDb =
      (.ok (), written (failedCorpus "a".toList) freshDb) :=
    writeCompletedCorpus_accepts currentShape_freshDb (by decide) (by decide)
  exact derived_tables_agree (.single ⟨_, _, cleanWrite_failedCorpus, haccepted⟩) _

/-- A corpus in which a failed result is repeated as passed. -/
def repeatedCorpus : Corpus :=
  { failedCorpus "a".toList with
    results := [
      ⟨some "gdpr".toList, ⟨"c1".toList, "r1".toList, .fail, "major".toList, 1, [],
        some "open".toList, "now".toList, []⟩⟩,
      ⟨some "gdpr".toList, ⟨"c1".toList, "r1".toList, .pass, "major".toList, 1, [], none,
        "now".toList, []⟩⟩] }

/-- **A result that is repeated under another status** leaves a gap that no stored result
gives. -/
theorem repeated_result_disagrees :
    (writeCompletedCorpus repeatedCorpus (fun _ => false) freshDb).1 = .ok () ∧
      ¬ DerivedAgree (afterWrite repeatedCorpus freshDb) "a".toList := by
  refine ⟨by decide +kernel, fun h => ?_⟩
  have hgap : (complianceGapRowId "a".toList "gdpr".toList "c1".toList "r1".toList,
      ⟨some "a".toList, some "FAIL".toList, some "major".toList, some "c1".toList,
        some "r1".toList⟩) ∈ storedGaps (afterWrite repeatedCorpus freshDb) "a".toList :=
    ⟨by decide +kernel, rfl⟩
  obtain ⟨⟨rowId, row⟩, ⟨hget, -, -, -⟩, hentry⟩ := h.gaps.surjOn hgap
  have hstatus : row.status = "FAIL".toList := Option.some.inj (congrArg (·.2.status) hentry)
  have hpassed : ∀ r ∈ (afterWrite repeatedCorpus freshDb).controlResults.rows,
      r.2.status ≠ "FAIL".toList := by decide +kernel
  exact hpassed _ (Table.mem_rows_iff.mpr hget) hstatus

end SovriAgent
