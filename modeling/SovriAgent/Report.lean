import SovriAgent.OrderBy
import SovriAgent.PdfWriter
import SovriAgent.SignedJson

/-!
# The PDF Report of a Corpus

The lines of the report a corpus is exported as, in the order they are written. The results
are sorted by the comparison of the signed export.

## Main results

* `scopedResultLe_eq`: the comparison is one by control id, rule id and framework id.
* `orderedScopedResults_congr`: results with distinct keys have one order.
-/

namespace SovriAgent

/-! ### Lines -/

/-- The framework a line names. -/
def reportedFramework (item : ScopedResult) : Str :=
  item.frameworkId.getD "unscoped".toList

/-- A line of a result or a gap. -/
def resultLine (kind : Str) (item : ScopedResult) : Str :=
  kind ++ ": framework=".toList ++ reportedFramework item ++ " control=".toList ++
    item.result.controlId ++ " rule=".toList ++ item.result.ruleId ++ " status=".toList ++
      item.result.status.label

/-- The lines of a result: the result, and its reason. -/
def resultLines (item : ScopedResult) : List Str :=
  resultLine "Result".toList item ::
    (item.result.reason.map ("Reason: ".toList ++ ·)).toList

/-- The results a report lists as gaps. -/
def reportedGaps (results : List ScopedResult) : List ScopedResult :=
  (orderedScopedResults results).filter fun item =>
    item.result.status = .fail ∨ item.result.status = .warning

/-- The lines of the results. -/
def resultSection (results : List ScopedResult) : List Str :=
  (orderedScopedResults results).flatMap resultLines

/-- The lines of the gaps. -/
def gapSection (results : List ScopedResult) : List Str :=
  (reportedGaps results).map (resultLine "Gap".toList)

/-- The lines of a report. -/
def reportLines (corpus : Corpus) : List Str :=
  ["Sovri PDF compliance report".toList, "Run: ".toList ++ corpus.runId] ++
    corpus.frameworks.map (fun framework =>
      "Framework: ".toList ++ framework.id ++ " version ".toList ++ framework.version) ++
    corpus.controlIds.map ("Control: ".toList ++ ·) ++
    corpus.evidence.map (fun record => "Evidence id: ".toList ++ record.id) ++
    "Results".toList :: resultSection corpus.results ++
    "Gaps".toList :: gapSection corpus.results

/-- Exports a corpus as a PDF (`export`). -/
def reportExport (corpus : Corpus) : Except PdfError (List UInt8) :=
  writePdf (reportLines corpus)

/-! ### The order of the results -/

/-- An optional framework id as a text: absent before all others. -/
def frameworkKey (frameworkId : Option Str) : Str :=
  frameworkId.elim [] (' ' :: ·)

theorem frameworkKey_injective {f g : Option Str} (h : frameworkKey f = frameworkKey g) :
    f = g := by
  rcases f with _ | f <;> rcases g with _ | g
  · rfl
  · cases h
  · cases h
  · exact congrArg some (List.cons.inj h).2

/-- The columns results are sorted by. -/
def resultOrderColumns : List (ScopedResult → Str) :=
  [(·.result.controlId), (·.result.ruleId), fun item => frameworkKey item.frameworkId]

theorem optionLe_eq (f g : Option Str) :
    optionLe f g = if frameworkKey f = frameworkKey g then true
      else strLe (frameworkKey f) (frameworkKey g) := by
  rcases f with _ | f <;> rcases g with _ | g
  · rfl
  · rfl
  · rfl
  · have hstrLe : strLe (frameworkKey (some f)) (frameworkKey (some g)) = strLe f g :=
      if_pos rfl
    rw [optionLe, hstrLe]
    split_ifs with heq
    · rw [Option.some.inj (frameworkKey_injective heq), strLe_refl]
    · rfl

/-- **The comparison of the exports** is one by columns. -/
theorem scopedResultLe_eq : scopedResultLe = lexLe resultOrderColumns := by
  funext a b
  rw [scopedResultLe, resultOrderColumns, lexLe, lexLe, lexLe, lexLe, optionLe_eq]

/-- The framework, control and rule of a result. -/
def resultKey (item : ScopedResult) : Option Str × Str × Str :=
  (item.frameworkId, item.result.controlId, item.result.ruleId)

/-- **Results with distinct keys have one order.** -/
theorem orderedScopedResults_congr {results results' : List ScopedResult}
    (hkeys : (results.map resultKey).Nodup) (h : results.Perm results') :
    orderedScopedResults results = orderedScopedResults results' := by
  rw [orderedScopedResults, orderedScopedResults, scopedResultLe_eq]
  refine orderBy_congr h fun a ha b hb hagree => List.inj_on_of_nodup_map hkeys ha hb ?_
  simp only [resultOrderColumns, List.forall_mem_cons] at hagree
  exact Prod.ext (frameworkKey_injective hagree.2.2.1) (Prod.ext hagree.1 hagree.2.1)

end SovriAgent
