import SovriAgent.Scores
import SovriAgent.WriteEffect
import SovriAgent.Workbook

/-!
# The Summary and the Stored Counts

The summary sheet and the stored score summaries both count the results of a framework by
status. The stored counts are over the results evaluated under the framework; the SDK, from
which the sheet has its counts, is only given results without their frameworks, and counts
those whose control has a result under the framework.

## Main results

* `tallied_eq`, `stored_eq`: both counts, as counts over the results of the corpus.
* `countsAgree_iff`: the corpora for which they agree.
* `summaries_agree_iff`: agreement, and independence of the results of other frameworks.
-/

namespace SovriAgent

/-! ### The two counts -/

/-- The rows of the tally, which come first below the header of the summary. -/
def tallyRows (sdk : Scoring) (corpus : Corpus) : List (List Str) :=
  (environmentScore sdk corpus.results).frameworks.flatMap statusCountRows

/-- The count a tally shows for a framework and a status; no row is a count of zero. -/
def shownCount (rows : List (List Str)) (frameworkId : Str) (status : Status) : Str :=
  match rows.find? fun row => row.take 2 = [frameworkId, status.label] with
  | some row => (row.drop 2).flatten
  | none => decimal 0

/-- The stored counts of a framework; no entry is counts of zero. -/
def storedCounts (corpus : Corpus) (frameworkId : Str) : ScoreSummaryCounts :=
  match (scoreSummaryCounts corpus).find? fun summary => summary.1 = frameworkId with
  | some summary => summary.2
  | none => ⟨0, 0, 0⟩

/-- The counts shown and stored for a framework agree. -/
structure CountsAgree (sdk : Scoring) (corpus : Corpus) (frameworkId : Str) : Prop where
  pass : shownCount (tallyRows sdk corpus) frameworkId .pass =
    decimal (storedCounts corpus frameworkId).pass
  fail : shownCount (tallyRows sdk corpus) frameworkId .fail =
    decimal (storedCounts corpus frameworkId).fail
  warning : shownCount (tallyRows sdk corpus) frameworkId .warning =
    decimal (storedCounts corpus frameworkId).warning

/-- A status that is counted on both sides. -/
def Status.isScored (status : Status) : Prop :=
  status = .pass ∨ status = .fail ∨ status = .warning

/-- **No shared controls**: no result that passed, failed or warned, of another framework or of
none, is on a control that has a result under the framework. -/
def Separate (frameworkId : Str) (results : List ScopedResult) : Prop :=
  ∀ item ∈ results, item.frameworkId ≠ some frameworkId → item.result.status.isScored →
    ∀ own ∈ results, own.frameworkId = some frameworkId →
      own.result.controlId ≠ item.result.controlId

/-- The tally is part of the summary sheet. -/
theorem tallyRows_prefix (sdk : Scoring) (corpus : Corpus) :
    tallyRows sdk corpus <+: summaryRowCells sdk corpus := by
  rw [tallyRows, summaryRowCells]
  split_ifs with hempty
  · rw [List.isEmpty_iff.mp hempty]
    exact List.nil_prefix
  · exact ⟨_, by rw [summaryRows, List.append_assoc, List.append_assoc]⟩

/-! ### Counting -/

/-- A count under a weaker condition is the same where no item makes the difference. -/
theorem countP_eq_iff_of_imp {α : Type} {p q : α → Bool} {items : List α}
    (h : ∀ a ∈ items, p a = true → q a = true) :
    items.countP q = items.countP p ↔ ∀ a ∈ items, q a = true → p a = true := by
  induction items with
  | nil => simp
  | cons a items ih =>
      rw [List.forall_mem_cons] at h
      have hle : items.countP p ≤ items.countP q := List.countP_mono_left h.2
      rw [List.countP_cons, List.countP_cons, List.forall_mem_cons, ← ih h.2]
      rcases hp : p a with _ | _
      · rcases hq : q a with _ | _
        · simp
        · simp only [Bool.false_eq_true, if_true, if_false, imp_false, not_true_eq_false,
            false_and, iff_false]
          omega
      · simp [h.1 hp]

/-- The results the summary counts for a framework and a status: their control has a result
under the framework. -/
def talliedCount (results : List ScopedResult) (frameworkId : Str) (status : Status) : ℕ :=
  results.countP fun item => item.result.status = status ∧
    ∃ own ∈ results, own.frameworkId = some frameworkId ∧
      own.result.controlId = item.result.controlId

theorem mem_summaryStatusOrder (status : Status) : status ∈ summaryStatusOrder := by
  cases status <;> decide

/-- The row of a framework and a status, if it counts any results. -/
theorem mem_statusCountRows {sdk : Scoring} {framework : FrameworkScore sdk.Ratio}
    {row : List Str} : row ∈ statusCountRows framework ↔
      ∃ status, 0 < framework.counts.statusCount status ∧
        row = [framework.frameworkId, status.label,
          decimal (framework.counts.statusCount status)] := by
  simp only [statusCountRows, List.mem_filterMap, mem_summaryStatusOrder, true_and,
    Option.ite_none_right_eq_some, Option.some.injEq]
  exact exists_congr fun status => and_congr_right fun _ => eq_comm

section Tally

variable {sdk : Scoring} {corpus : Corpus} {frameworkId : Str}

/-- What is shown for a framework that is listed. -/
theorem shownCount_of_listed (hsdk : AttributesByCatalog sdk) {framework : FrameworkScore sdk.Ratio}
    (h : framework ∈ (environmentScore sdk corpus.results).frameworks) (status : Status) :
    shownCount (tallyRows sdk corpus) framework.frameworkId status =
      decimal (framework.counts.statusCount status) := by
  have honly : ∀ other ∈ (environmentScore sdk corpus.results).frameworks,
      other.frameworkId = framework.frameworkId → other = framework := by
    have hnodup := hsdk.nodup _ (corpus.results.map (·.result))
      (nodup_scoringCatalog_frameworks corpus.results)
    exact fun other hother heq => List.inj_on_of_nodup_map hnodup hother h heq
  have hrow : ∀ row ∈ tallyRows sdk corpus, row.take 2 = [framework.frameworkId, status.label] →
      row = [framework.frameworkId, status.label,
        decimal (framework.counts.statusCount status)] := by
    intro row hrow hkey
    obtain ⟨other, hother, hmem⟩ := List.mem_flatMap.mp hrow
    obtain ⟨status', -, rfl⟩ := mem_statusCountRows.mp hmem
    simp only [List.take_succ_cons, List.take_zero, List.cons.injEq, and_true] at hkey
    rw [honly other hother hkey.1, Status.label_injective hkey.2]
  rw [shownCount]
  split
  · next row hfound =>
      have hkey : row.take 2 = [framework.frameworkId, status.label] := by
        simpa using List.find?_some hfound
      rw [hrow row (List.mem_of_find?_eq_some hfound) hkey]
      simp
  · next hnone =>
      by_contra hne
      have hpos : 0 < framework.counts.statusCount status :=
        Nat.pos_of_ne_zero fun hzero => hne (by rw [hzero])
      have hmem := List.mem_flatMap.mpr ⟨framework, h, mem_statusCountRows.mpr ⟨status, hpos, rfl⟩⟩
      exact List.find?_eq_none.mp hnone _ hmem (by simp)

/-- What is shown for a framework that is not listed. -/
theorem shownCount_of_not_listed
    (h : ∀ framework ∈ (environmentScore sdk corpus.results).frameworks,
      framework.frameworkId ≠ frameworkId) (status : Status) :
    shownCount (tallyRows sdk corpus) frameworkId status = decimal 0 := by
  rw [shownCount]
  split
  · next row hfound =>
      obtain ⟨framework, hframework, hmem⟩ :=
        List.mem_flatMap.mp (List.mem_of_find?_eq_some hfound)
      obtain ⟨status', -, rfl⟩ := mem_statusCountRows.mp hmem
      have hkey : framework.frameworkId = frameworkId ∧ status'.label = status.label := by
        simpa using List.find?_some hfound
      exact absurd hkey.1 (h framework hframework)
  · rfl

theorem countStatuses_attributed (results : List ScopedResult) (frameworkId : Str)
    (status : Status) :
    (countStatuses ((scoringCatalog results).attributed (results.map (·.result))
      frameworkId)).statusCount status = talliedCount results frameworkId status := by
  have hcount : ∀ {items : List ControlResult} {status : Status},
      (countStatuses items).statusCount status = items.countP (·.status = status) := by
    intro items status
    cases status <;> rfl
  rw [hcount, Catalog.attributed, List.countP_filter, List.countP_map, talliedCount]
  refine List.countP_congr fun item _ => ?_
  simp [mem_scoringCatalog_mappings]

/-- **What the summary shows** is the number of results on the controls of the framework. -/
theorem tallied_eq (hsdk : AttributesByCatalog sdk) (corpus : Corpus) (frameworkId : Str)
    (status : Status) : shownCount (tallyRows sdk corpus) frameworkId status =
      decimal (talliedCount corpus.results frameworkId status) := by
  by_cases hlisted : ∃ framework ∈ (environmentScore sdk corpus.results).frameworks,
      framework.frameworkId = frameworkId
  · obtain ⟨framework, hframework, rfl⟩ := hlisted
    rw [shownCount_of_listed hsdk hframework, hsdk.counts _ _ _ hframework,
      countStatuses_attributed]
  · -- A framework with results on its controls would be listed.
    have hnone : talliedCount corpus.results frameworkId status = 0 := by
      rw [talliedCount, List.countP_eq_zero]
      intro item hitem hcounted
      obtain ⟨-, own, hown, hframework, hcontrol⟩ := of_decide_eq_true hcounted
      have hattributed : own.result ∈ (scoringCatalog corpus.results).attributed
          (corpus.results.map (·.result)) frameworkId :=
        List.mem_filter.mpr ⟨List.mem_map_of_mem hown,
          decide_eq_true (mem_scoringCatalog_mappings.mpr ⟨own, hown, hframework, rfl⟩)⟩
      exact hlisted (hsdk.listed _ _ frameworkId
        (mem_scoringCatalog_frameworks.mpr ⟨own, hown, hframework⟩) (List.ne_nil_of_mem hattributed))
    push Not at hlisted
    rw [shownCount_of_not_listed hlisted, hnone]

end Tally

/-- **What is stored** is the number of results under the framework. -/
theorem stored_eq (corpus : Corpus) (frameworkId : Str) :
    storedCounts corpus frameworkId = resultCounts corpus.results frameworkId := by
  rw [storedCounts]
  split
  · next summary hfound =>
      obtain ⟨-, hcounts⟩ := mem_scoreSummaryCounts.mp (List.mem_of_find?_eq_some hfound)
      have hid : summary.1 = frameworkId := by
        simpa using List.find?_some hfound
      rw [hcounts, hid]
  · next hnone =>
      refine (resultCounts_of_notMem fun hmem => ?_).symm
      exact List.find?_eq_none.mp hnone (frameworkId, resultCounts corpus.results frameworkId)
        (mem_scoreSummaryCounts.mpr ⟨hmem, rfl⟩) (decide_eq_true rfl)

/-! ### Agreement -/

theorem scoredFramework_eq_some_iff {frameworkId : Str} (h : frameworkId ≠ [])
    {item : ScopedResult} :
    scoredFramework item = some frameworkId ↔ item.frameworkId = some frameworkId := by
  rw [scoredFramework, Option.filter_eq_some_iff]
  simp [h]

/-- The two counts of a status are the same if no result of another framework is counted. -/
theorem talliedCount_eq_iff {frameworkId : Str} (h : frameworkId ≠ [])
    (results : List ScopedResult) (status : Status) :
    talliedCount results frameworkId status = resultCount results frameworkId status ↔
      ∀ item ∈ results, item.frameworkId ≠ some frameworkId → item.result.status = status →
        ∀ own ∈ results, own.frameworkId = some frameworkId →
          own.result.controlId ≠ item.result.controlId := by
  have himp : ∀ item ∈ results,
      decide (scoredFramework item = some frameworkId ∧ item.result.status = status) = true →
      decide (item.result.status = status ∧ ∃ own ∈ results, own.frameworkId = some frameworkId ∧
        own.result.controlId = item.result.controlId) = true := by
    intro item hitem hown
    obtain ⟨hscored, hstatus⟩ := of_decide_eq_true hown
    exact decide_eq_true ⟨hstatus, item, hitem, (scoredFramework_eq_some_iff h).mp hscored, rfl⟩
  rw [talliedCount, resultCount, countP_eq_iff_of_imp himp]
  simp only [decide_eq_true_eq, scoredFramework_eq_some_iff h]
  constructor
  · intro hcounted item hitem hother hstatus own hown hframework hcontrol
    exact hother (hcounted item hitem ⟨hstatus, own, hown, hframework, hcontrol⟩).1
  · rintro hseparate item hitem ⟨hstatus, own, hown, hframework, hcontrol⟩
    by_contra hnot
    exact hseparate item hitem (fun hsome => hnot ⟨hsome, hstatus⟩) hstatus own hown hframework
      hcontrol

/-- **The counts of a framework agree** where it shares no counted control. -/
theorem countsAgree_iff {sdk : Scoring} (hsdk : AttributesByCatalog sdk) {corpus : Corpus}
    {frameworkId : Str} (h : frameworkId ≠ []) :
    CountsAgree sdk corpus frameworkId ↔ Separate frameworkId corpus.results := by
  have hstatus : ∀ status, shownCount (tallyRows sdk corpus) frameworkId status =
      decimal (resultCount corpus.results frameworkId status) ↔
        ∀ item ∈ corpus.results, item.frameworkId ≠ some frameworkId →
          item.result.status = status → ∀ own ∈ corpus.results,
            own.frameworkId = some frameworkId →
              own.result.controlId ≠ item.result.controlId := by
    intro status
    rw [tallied_eq hsdk, ← talliedCount_eq_iff h]
    exact ⟨decimal_injective, congrArg decimal⟩
  constructor
  · rintro ⟨hpass, hfail, hwarning⟩ item hitem hother hscored
    rw [stored_eq] at hpass hfail hwarning
    rcases hscored with hs | hs | hs
    · exact (hstatus .pass).mp hpass item hitem hother hs
    · exact (hstatus .fail).mp hfail item hitem hother hs
    · exact (hstatus .warning).mp hwarning item hitem hother hs
  · intro hseparate
    refine ⟨?_, ?_, ?_⟩ <;> rw [stored_eq]
    · exact (hstatus .pass).mpr fun item hitem hother hs => hseparate item hitem hother (.inl hs)
    · exact (hstatus .fail).mpr fun item hitem hother hs =>
        hseparate item hitem hother (.inr (.inl hs))
    · exact (hstatus .warning).mpr fun item hitem hother hs =>
        hseparate item hitem hother (.inr (.inr hs))

/-- The stored counts are over the results of the framework. -/
theorem resultCount_eq_of_filter_eq {results results' : List ScopedResult} {frameworkId : Str}
    (h : frameworkId ≠ [])
    (hsame : results.filter (fun item => item.frameworkId = some frameworkId) =
      results'.filter fun item => item.frameworkId = some frameworkId) (status : Status) :
    resultCount results frameworkId status = resultCount results' frameworkId status := by
  have hfilter : ∀ items : List ScopedResult, resultCount items frameworkId status =
      (items.filter fun item => item.frameworkId = some frameworkId).countP
        fun item => item.result.status = status := by
    intro items
    rw [resultCount, List.countP_filter]
    refine List.countP_congr fun item _ => ?_
    simp [scoredFramework_eq_some_iff h, and_comm]
  rw [hfilter, hfilter, hsame]

/-- **The summary and the stored counts of a framework** agree, and do not change with the
results of other frameworks, where neither corpus shares a counted control. -/
theorem summaries_agree_iff {sdk : Scoring} (hsdk : AttributesByCatalog sdk)
    {corpus corpus' : Corpus} {frameworkId : Str} (h : frameworkId ≠ [])
    (hsame : corpus.results.filter (fun item => item.frameworkId = some frameworkId) =
      corpus'.results.filter fun item => item.frameworkId = some frameworkId) :
    ((CountsAgree sdk corpus frameworkId ∧ CountsAgree sdk corpus' frameworkId) ∧
        (∀ status, status.isScored → shownCount (tallyRows sdk corpus) frameworkId status =
          shownCount (tallyRows sdk corpus') frameworkId status) ∧
        storedCounts corpus frameworkId = storedCounts corpus' frameworkId) ↔
      Separate frameworkId corpus.results ∧ Separate frameworkId corpus'.results := by
  have hstored : storedCounts corpus frameworkId = storedCounts corpus' frameworkId := by
    simp only [stored_eq, resultCounts, resultCount_eq_of_filter_eq h hsame]
  rw [← countsAgree_iff hsdk h, ← countsAgree_iff hsdk h]
  constructor
  · exact fun hagree => hagree.1
  · rintro ⟨hagree, hagree'⟩
    refine ⟨⟨hagree, hagree'⟩, fun status hscored => ?_, hstored⟩
    rcases hscored with rfl | rfl | rfl
    · rw [hagree.pass, hagree'.pass, hstored]
    · rw [hagree.fail, hagree'.fail, hstored]
    · rw [hagree.warning, hagree'.warning, hstored]

/-! ### Shared controls -/

/-- A control that passed under a framework, and another that failed under a second one; then
the second one failed twice. -/
theorem summaries_agree_iff_separate :
    CountsAgree catalogScoring (resultsCorpus [plainResult (some "gdpr".toList) "a".toList .pass,
      plainResult (some "soc2".toList) "b".toList .fail]) "gdpr".toList := by
  have hsame : (resultsCorpus [plainResult (some "gdpr".toList) "a".toList .pass,
        plainResult (some "soc2".toList) "b".toList .fail]).results.filter
          (fun item => item.frameworkId = some "gdpr".toList) =
      (resultsCorpus [plainResult (some "gdpr".toList) "a".toList .pass,
        plainResult (some "soc2".toList) "b".toList .fail,
        plainResult (some "soc2".toList) "b".toList .fail]).results.filter
          fun item => item.frameworkId = some "gdpr".toList := by
    decide
  have hseparate : ∀ others : List ScopedResult, (∀ item ∈ others,
      item = plainResult (some "soc2".toList) "b".toList .fail) →
      Separate "gdpr".toList (plainResult (some "gdpr".toList) "a".toList .pass :: others) := by
    intro others hothers item hitem hother _ own hown hframework
    rcases List.mem_cons.mp hitem with rfl | hitem
    · exact absurd rfl hother
    · rcases List.mem_cons.mp hown with rfl | hown
      · rw [hothers item hitem]
        decide
      · rw [hothers own hown] at hframework
        exact absurd hframework (by decide)
  exact ((summaries_agree_iff catalogScoring_attributes (by decide) hsame).mpr
    ⟨hseparate _ (by simp), hseparate _ (by simp)⟩).1.1

/-- A control that passed under a framework, and failed where no framework was given: the
failure is counted for the framework. -/
theorem unscoped_result_counted :
    ¬ CountsAgree catalogScoring (resultsCorpus [plainResult (some "gdpr".toList) "a".toList .pass,
      plainResult none "a".toList .fail]) "gdpr".toList := by
  intro hagree
  have hshown : shownCount (tallyRows catalogScoring (resultsCorpus
      [plainResult (some "gdpr".toList) "a".toList .pass, plainResult none "a".toList .fail]))
      "gdpr".toList .fail = decimal 1 := by
    decide +kernel
  have hstored : (storedCounts (resultsCorpus [plainResult (some "gdpr".toList) "a".toList .pass,
      plainResult none "a".toList .fail]) "gdpr".toList).fail = 0 := by
    rw [stored_eq]
    decide +kernel
  have hfail := hagree.fail
  rw [hshown, hstored] at hfail
  exact absurd (decimal_injective hfail) (by decide)

end SovriAgent
