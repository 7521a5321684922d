import SovriAgent.Report
import SovriAgent.Workbook

/-!
# Exports and the Order of Collection

The exports sort the results of a corpus. The signed export and the report sort by control,
rule and framework, which leaves no ties; the spreadsheet sorts by control and rule, and
results of one control and rule under several frameworks stay in the order they were
collected.

## Main results

* `pushRow_flatMap_injective`: the text of a table determines its rows.
* `exports_order_independent_iff`: the corpora whose exports are the same in every order.
-/

namespace SovriAgent

open Xml

/-! ### What is exported of the results -/

/-- The exports of two lists of results, with the same catalog, are the same. -/
structure SameExports (controls : List Control) (frameworks : List Framework)
    (results results' : List ScopedResult) : Prop where
  resultsSheet : pushResultsTable results = pushResultsTable results'
  gapsSheet : pushGapsTable results controls frameworks =
    pushGapsTable results' controls frameworks
  resultsArray : writeValue (resultsArray results) = writeValue (resultsArray results')
  gapsArray : writeValue (gapsArray results controls frameworks) =
    writeValue (gapsArray results' controls frameworks)
  resultLines : resultSection results = resultSection results'
  gapLines : gapSection results = gapSection results'

/-- Two results have the same row up to their control and rule: the framework as it is shown,
the status, the severity, and the evidence ids. -/
structure ShownAlike (a b : ScopedResult) : Prop where
  framework : a.frameworkId.getD [] = b.frameworkId.getD []
  status : a.result.status = b.result.status
  severity : a.result.severity = b.result.severity
  evidence : joinEvidenceRefs a.result.evidenceRefs = joinEvidenceRefs b.result.evidenceRefs

/-- Results of one control and rule are shown alike. -/
def TiesAlike (results : List ScopedResult) : Prop :=
  ∀ a ∈ results, ∀ b ∈ results, a.result.controlId = b.result.controlId →
    a.result.ruleId = b.result.ruleId → ShownAlike a b

theorem ShownAlike.resultCells_eq {a b : ScopedResult} (h : ShownAlike a b)
    (hcontrol : a.result.controlId = b.result.controlId)
    (hrule : a.result.ruleId = b.result.ruleId) : resultCells a = resultCells b := by
  rw [resultCells, resultCells, h.framework, h.status, h.severity, h.evidence, hcontrol, hrule]

theorem shownAlike_of_resultCells_eq {a b : ScopedResult} (h : resultCells a = resultCells b) :
    ShownAlike a b := by
  simp only [resultCells, List.cons.injEq] at h
  obtain ⟨hframework, -, -, hstatus, hseverity, -, hevidence, -⟩ := h
  exact ⟨hframework, Status.label_injective hstatus, hseverity, hevidence⟩

/-! ### Tables -/

/-- **The text of a table determines its rows.** -/
theorem pushRow_flatMap_injective {rows rows' : List (List Str)}
    (h : rows.flatMap pushRow = rows'.flatMap pushRow) : rows = rows' := by
  have hreads : ∀ rows : List (List Str), Reads (rows.flatMap pushRow) (rows.flatMap rowNodes) :=
    fun rows => Reads.flatMap fun cells _ => reads_pushRow cells
  have hnodes := (hreads rows).unique (h ▸ hreads rows')
  rw [← elements_rowNodes rows, hnodes, elements_rowNodes]

theorem pushTable_append_injective {header : List Str} {rows rows' : List (List Str)} {rest : Str}
    (h : pushTable header rows ++ rest = pushTable header rows' ++ rest) : rows = rows' := by
  have htable := List.append_cancel_right h
  rw [pushTable, pushTable, List.append_cancel_right_eq, List.append_cancel_left_eq] at htable
  exact pushRow_flatMap_injective htable

/-! ### The order of the spreadsheet -/

/-- The columns the spreadsheet sorts by. -/
def reportingColumns : List (ScopedResult → Str) :=
  [(·.result.controlId), (·.result.ruleId)]

theorem resultsInReportingOrder_eq (results : List ScopedResult) :
    resultsInReportingOrder results = orderBy reportingColumns results := by
  rw [resultsInReportingOrder, leThen_eq]
  rfl

/-- The columns of a row that have its control and its rule, in the sheet of the results. -/
def resultRowColumns : List (List Str → Str) :=
  [(·.getD 1 []), (·.getD 2 [])]

/-- The columns of a row that have its control and its rule, in the sheet of the gaps. -/
def gapRowColumns : List (List Str → Str) :=
  [(·.getD 2 []), (·.getD 3 [])]

section Permuted

variable {results results' : List ScopedResult}

/-- Results shown alike have the same sheet in every order. -/
theorem TiesAlike.resultRows_eq (hties : TiesAlike results) (h : results.Perm results') :
    (resultsInReportingOrder results).map resultCells =
      (resultsInReportingOrder results').map resultCells := by
  have hle : ∀ a b r s, (some ∘ resultCells) a = some r → (some ∘ resultCells) b = some s →
      lexLe reportingColumns a b = lexLe resultRowColumns r s := by
    rintro a b r s hr hs
    obtain rfl := Option.some.inj hr
    obtain rfl := Option.some.inj hs
    exact (lexLe_map resultCells resultRowColumns a b).symm
  rw [resultsInReportingOrder_eq, resultsInReportingOrder_eq, ← List.filterMap_eq_map]
  refine filterMap_orderBy_congr hle h fun r hr s hs hagree => ?_
  rw [List.filterMap_eq_map] at hr hs
  obtain ⟨a, ha, rfl⟩ := List.mem_map.mp hr
  obtain ⟨b, hb, rfl⟩ := List.mem_map.mp hs
  simp only [resultRowColumns, List.forall_mem_cons] at hagree
  exact (hties a ha b hb hagree.1 hagree.2.1).resultCells_eq hagree.1 hagree.2.1

/-- Gaps with distinct keys, of results shown alike, have the same sheet in every order: gaps
have frameworks, and no two of one framework, control and rule. -/
theorem TiesAlike.gapRows_eq (hties : TiesAlike results) (hkeys : (results.map resultKey).Nodup)
    (h : results.Perm results') (controls : List Control) (frameworks : List Framework) :
    ((resultsInReportingOrder results).filterMap gapOf).map (gapCells controls frameworks) =
      ((resultsInReportingOrder results').filterMap gapOf).map (gapCells controls frameworks) := by
  have hle : ∀ a b r s, (gapOf a).map (gapCells controls frameworks) = some r →
      (gapOf b).map (gapCells controls frameworks) = some s →
      lexLe reportingColumns a b = lexLe gapRowColumns r s := by
    intro a b r s hr hs
    obtain ⟨gap, hgap, rfl⟩ := Option.map_eq_some_iff.mp hr
    obtain ⟨gap', hgap', rfl⟩ := Option.map_eq_some_iff.mp hs
    rw [lexLe_map (gapCells controls frameworks)]
    simp only [reportingColumns, (gapOf_eq_some hgap).2, (gapOf_eq_some hgap').2, lexLe]
    rfl
  rw [List.map_filterMap, List.map_filterMap, resultsInReportingOrder_eq,
    resultsInReportingOrder_eq]
  refine filterMap_orderBy_congr hle h fun r hr s hs hagree => ?_
  obtain ⟨a, ha, hr⟩ := List.mem_filterMap.mp hr
  obtain ⟨b, hb, hs⟩ := List.mem_filterMap.mp hs
  obtain ⟨gap, hgap, rfl⟩ := Option.map_eq_some_iff.mp hr
  obtain ⟨gap', hgap', rfl⟩ := Option.map_eq_some_iff.mp hs
  obtain ⟨hframework, hresult⟩ := gapOf_eq_some hgap
  obtain ⟨hframework', hresult'⟩ := gapOf_eq_some hgap'
  simp only [gapRowColumns, List.forall_mem_cons] at hagree
  have hcontrol : a.result.controlId = b.result.controlId := by
    rw [hresult, hresult']
    exact hagree.1
  have hrule : a.result.ruleId = b.result.ruleId := by
    rw [hresult, hresult']
    exact hagree.2.1
  have hshown := (hties a ha b hb hcontrol hrule).framework
  rw [hframework, hframework', Option.getD_some, Option.getD_some] at hshown
  have hsame : a = b := List.inj_on_of_nodup_map hkeys ha hb (Prod.ext
    (hframework.trans ((congrArg some hshown).trans hframework'.symm)) (Prod.ext hcontrol hrule))
  rw [hsame, hgap'] at hgap
  rw [Option.some.inj hgap]

/-- **Exports of results shown alike** are the same in every order. -/
theorem TiesAlike.sameExports (hties : TiesAlike results) (hkeys : (results.map resultKey).Nodup)
    (h : results.Perm results') (controls : List Control) (frameworks : List Framework) :
    SameExports controls frameworks results results' := by
  have hordered := orderedScopedResults_congr hkeys h
  have hempty : results = [] ↔ results' = [] := by
    rw [← List.length_eq_zero_iff, h.length_eq, List.length_eq_zero_iff]
  have hrows := hties.gapRows_eq hkeys h controls frameworks
  refine ⟨?_, ?_, ?_, ?_, ?_, ?_⟩
  · rw [pushResultsTable_eq, pushResultsTable_eq, hties.resultRows_eq h]
  · have hgaps := pushGapsTable_eq ⟨[], [], controls, results, [], frameworks⟩
    have hgaps' := pushGapsTable_eq ⟨[], [], controls, results', [], frameworks⟩
    rw [hgaps, hgaps', gapRowCells, gapRowCells, hrows]
  · rw [resultsArray, resultsArray, hordered]
  · rw [gapsArray, gapsArray, hordered]
  · rw [resultSection, resultSection, hordered]
  · rw [gapSection, gapSection, reportedGaps, reportedGaps, hordered]

/-- **A tie that shows**: of results in two orders with the same sheet, the first of a control
and rule are shown alike. -/
theorem shownAlike_of_resultRows_eq {a b : ScopedResult} {rest rest' : List ScopedResult}
    (hcontrol : a.result.controlId = b.result.controlId)
    (hrule : a.result.ruleId = b.result.ruleId)
    (h : (resultsInReportingOrder (a :: rest)).map resultCells =
      (resultsInReportingOrder (b :: rest')).map resultCells) : ShownAlike a b := by
  let tied : ScopedResult → Bool := fun item =>
    item.result.controlId = a.result.controlId ∧ item.result.ruleId = a.result.ruleId
  let tiedRow : List Str → Bool := fun row =>
    row.getD 1 [] = a.result.controlId ∧ row.getD 2 [] = a.result.ruleId
  have hstable : ∀ results, (resultsInReportingOrder results).filter tied =
      results.filter tied := by
    intro results
    rw [resultsInReportingOrder_eq]
    refine filter_orderBy (fun x y hx hy => ?_) results
    obtain ⟨hxc, hxr⟩ := of_decide_eq_true hx
    obtain ⟨hyc, hyr⟩ := of_decide_eq_true hy
    simp only [reportingColumns, List.forall_mem_cons]
    exact ⟨hxc.trans hyc.symm, hxr.trans hyr.symm, fun _ hc => absurd hc List.not_mem_nil⟩
  have hrows : ∀ results, ((resultsInReportingOrder results).map resultCells).filter tiedRow =
      (results.filter tied).map resultCells := by
    intro results
    rw [List.filter_map, ← hstable]
    rfl
  have hfirst := congrArg (List.filter tiedRow) h
  rw [hrows, hrows, List.filter_cons_of_pos (by simp [tied]),
    List.filter_cons_of_pos (by simp [tied, hcontrol, hrule]), List.map_cons,
    List.map_cons] at hfirst
  exact shownAlike_of_resultCells_eq (List.cons.inj hfirst).1

end Permuted

/-- **The exports of a corpus do not depend on the order of its results** if no two results of
one control and rule are shown differently. -/
theorem exports_order_independent_iff (controls : List Control) (frameworks : List Framework)
    {results : List ScopedResult} (hkeys : (results.map resultKey).Nodup) :
    (∀ results', results.Perm results' → SameExports controls frameworks results results') ↔
      TiesAlike results := by
  constructor
  · intro hsame a ha b hb hcontrol hrule
    have hrows : ∀ {results'}, results.Perm results' →
        (resultsInReportingOrder results).map resultCells =
          (resultsInReportingOrder results').map resultCells := by
      intro results' hperm
      have hsheet := (hsame results' hperm).resultsSheet
      have hne : results ≠ [] := List.ne_nil_of_mem ha
      have hne' : results' ≠ [] := by
        rintro rfl
        exact hne hperm.eq_nil
      rw [pushResultsTable, pushResultsTable, if_neg hne, if_neg hne', hperm.length_eq] at hsheet
      exact pushTable_append_injective hsheet
    have hfirst := hrows (List.perm_cons_erase ha)
    have hsecond := hrows (List.perm_cons_erase hb)
    exact shownAlike_of_resultRows_eq hcontrol hrule (hfirst.symm.trans hsecond)
  · exact fun hties results' hperm => hties.sameExports hkeys hperm controls frameworks

/-- A control that failed under one framework, and another under the same. -/
def untiedResults : List ScopedResult :=
  [plainResult (some "gdpr".toList) "a".toList .fail,
    plainResult (some "gdpr".toList) "b".toList .pass]

theorem exports_order_independent_iff_untied :
    SameExports [] [] untiedResults untiedResults.reverse := by
  have hties : TiesAlike untiedResults := by
    intro a ha b hb hcontrol _
    rcases List.mem_pair.mp ha with rfl | rfl <;> rcases List.mem_pair.mp hb with rfl | rfl
    · exact ⟨rfl, rfl, rfl, rfl⟩
    · exact absurd hcontrol (by decide)
    · exact absurd hcontrol (by decide)
    · exact ⟨rfl, rfl, rfl, rfl⟩
  exact (exports_order_independent_iff [] [] (by decide)).mpr hties _
    (List.reverse_perm untiedResults).symm

/-- A control that passed under one framework and failed under another. -/
def tiedResults : List ScopedResult :=
  [plainResult (some "gdpr".toList) "a".toList .pass,
    plainResult (some "soc2".toList) "a".toList .fail]

/-- **The order of collection shows** in the sheet of the results. -/
theorem tied_results_sheet : (tiedResults.map resultKey).Nodup ∧
    tiedResults.Perm tiedResults.reverse ∧
      pushResultsTable tiedResults ≠ pushResultsTable tiedResults.reverse := by
  refine ⟨by decide, (List.reverse_perm tiedResults).symm, fun hsheet => ?_⟩
  rw [pushResultsTable, pushResultsTable, if_neg (by simp [tiedResults]),
    if_neg (by simp [tiedResults]), List.length_reverse] at hsheet
  have hrows := pushTable_append_injective hsheet
  have hshown := shownAlike_of_resultRows_eq (by decide) (by decide) hrows
  exact absurd hshown.status (by decide)

end SovriAgent
