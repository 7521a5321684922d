import SovriAgent.Written
import SovriAgent.Corpus

/-!
# The Scores of the SDK

What the exporters rely on about the score computation of the SDK: its texts come from the
catalog and the results it is given, a ratio is rendered as a percentage or a fixed phrase,
and a framework is given the results whose control the catalog maps to it. `catalogScoring`
is a computation that does this.

## Main results

* `mem_scoringCatalog_frameworks`, `mem_scoringCatalog_mappings`: the catalog of some results.
* `catalogScoring_fromInputs`, `catalogScoring_attributes`: the computation does what is
  relied on.
-/

namespace SovriAgent

/-! ### What is relied on -/

/-- A printable ASCII text. -/
def Printable (text : Str) : Prop :=
  (text.all fun c => 0x20 ≤ c.toNat && c.toNat ≤ 0x7e) = true

/-- The results whose control the catalog maps to a framework. -/
def Catalog.attributed (catalog : Catalog) (results : List ControlResult) (frameworkId : Str) :
    List ControlResult :=
  results.filter fun result => (result.controlId, frameworkId) ∈ catalog.mappings

/-- How many results have each status. -/
def countStatuses (results : List ControlResult) : StatusCounts where
  pass := results.countP (·.status = .pass)
  fail := results.countP (·.status = .fail)
  warning := results.countP (·.status = .warning)
  skipped := results.countP (·.status = .skipped)
  error := results.countP (·.status = .error)

/-- The texts of the scores come from what is scored, and ratios are printable. -/
structure ScoresFromInputs (sdk : Scoring) : Prop where
  framework : ∀ catalog results, ∀ framework ∈ (sdk.compute catalog results).frameworks,
    framework.frameworkId ∈ catalog.frameworks
  control : ∀ catalog results, ∀ framework ∈ (sdk.compute catalog results).frameworks,
    ∀ control ∈ framework.controls, ∃ result ∈ results,
      result.controlId = control.controlId ∧ result.ruleId = control.ruleId
  printable : ∀ ratio, Printable (sdk.render ratio)

/-- The scores of a framework are over the results whose control the catalog maps to it. A
framework is listed once, and it is listed if there are such results. -/
structure AttributesByCatalog (sdk : Scoring) : Prop where
  nodup : ∀ catalog results, catalog.frameworks.Nodup →
    ((sdk.compute catalog results).frameworks.map (·.frameworkId)).Nodup
  listed : ∀ catalog results, ∀ frameworkId ∈ catalog.frameworks,
    catalog.attributed results frameworkId ≠ [] →
    ∃ framework ∈ (sdk.compute catalog results).frameworks, framework.frameworkId = frameworkId
  counts : ∀ catalog results, ∀ framework ∈ (sdk.compute catalog results).frameworks,
    framework.counts = countStatuses (catalog.attributed results framework.frameworkId)

/-! ### The catalog of some results -/

theorem scoringCatalog_concat (results : List ScopedResult) (item : ScopedResult) :
    scoringCatalog (results ++ [item]) = (scoringCatalog results).record item :=
  List.foldl_append

/-- What a list has after an item is added that it may have already. -/
theorem mem_added {α : Type} {added a : α} {items : List α} [Decidable (added ∈ items)] :
    a ∈ (if added ∈ items then items else items ++ [added]) ↔ a ∈ items ∨ a = added := by
  split_ifs with hmem
  · exact ⟨.inl, fun h => h.elim id fun heq => heq ▸ hmem⟩
  · rw [List.mem_append, List.mem_singleton]

/-- The frameworks of the catalog are those of the results. -/
theorem mem_scoringCatalog_frameworks {results : List ScopedResult} {frameworkId : Str} :
    frameworkId ∈ (scoringCatalog results).frameworks ↔
      ∃ item ∈ results, item.frameworkId = some frameworkId := by
  induction results using List.reverseRecOn with
  | nil => simp [scoringCatalog]
  | append_singleton results item ih =>
      rw [scoringCatalog_concat, Catalog.record]
      rcases hframework : item.frameworkId with _ | own
      · simp [ih, hframework]
      · simp only [List.mem_append, List.mem_singleton, or_and_right, exists_or, exists_eq_left,
          hframework, Option.some.injEq, ← ih]
        rw [mem_added, eq_comm (a := frameworkId)]

theorem nodup_scoringCatalog_frameworks (results : List ScopedResult) :
    (scoringCatalog results).frameworks.Nodup := by
  induction results using List.reverseRecOn with
  | nil => exact List.nodup_nil
  | append_singleton results item ih =>
      rw [scoringCatalog_concat, Catalog.record]
      rcases item.frameworkId with _ | own
      · exact ih
      · dsimp only
        split_ifs with hmem
        · exact ih
        · exact ih.append (List.nodup_singleton own) (by simpa using hmem)

/-- A control is mapped to the frameworks its results are under. -/
theorem mem_scoringCatalog_mappings {results : List ScopedResult} {controlId frameworkId : Str} :
    (controlId, frameworkId) ∈ (scoringCatalog results).mappings ↔
      ∃ item ∈ results, item.frameworkId = some frameworkId ∧
        item.result.controlId = controlId := by
  induction results using List.reverseRecOn with
  | nil => simp [scoringCatalog]
  | append_singleton results item ih =>
      rw [scoringCatalog_concat, Catalog.record]
      rcases hframework : item.frameworkId with _ | own
      · simp [ih, hframework]
      · simp only [List.mem_append, List.mem_singleton, or_and_right, exists_or, exists_eq_left,
          hframework, Option.some.injEq, ← ih]
        rw [mem_added, Prod.mk.injEq, eq_comm (a := controlId), eq_comm (a := frameworkId),
          and_comm (a := item.result.controlId = controlId)]

/-! ### A score computation -/

/-- The score of one control: a pass earns its weight. -/
def scoreControl (result : ControlResult) : ControlScore where
  controlId := result.controlId
  ruleId := result.ruleId
  status := result.status
  isApplicable := result.status = .pass ∨ result.status = .fail ∨ result.status = .warning
  weight := result.weight
  earned := if result.status = .pass then result.weight else 0

/-- The weight earned by some controls, and the weight that could be. -/
def earnedAndApplicable (controls : List ControlScore) : ℕ × ℕ :=
  ((controls.map (·.earned.toNat)).sum,
    (controls.map fun control => if control.isApplicable then control.weight.toNat else 0).sum)

/-- A percentage with one decimal, rounded half up. -/
def renderRatio (ratio : ℕ × ℕ) : Str :=
  if ratio.2 = 0 then "no applicable controls".toList
  else
    let tenths := (ratio.1 * 2000 + ratio.2) / (2 * ratio.2)
    decimal (tenths / 10) ++ ".".toList ++ decimal (tenths % 10) ++ "%".toList

/-- Scores by the mappings of the catalog. -/
def catalogScoring : Scoring where
  Ratio := ℕ × ℕ
  compute catalog results :=
    let frameworks := catalog.frameworks.map fun frameworkId =>
      let attributed := catalog.attributed results frameworkId
      (⟨frameworkId, countStatuses attributed, earnedAndApplicable (attributed.map scoreControl),
        attributed.map scoreControl⟩ : FrameworkScore (ℕ × ℕ))
    { ratio := earnedAndApplicable (frameworks.flatMap (·.controls))
      frameworks := frameworks
      incomplete := frameworks.any fun framework => 0 < framework.counts.error }
  fromWeights earned applicable := (earned.toNat, applicable.toNat)
  render := renderRatio

theorem printable_decimal (n : ℕ) : Printable (decimal n) := by
  refine List.all_eq_true.mpr fun c hc => ?_
  have hdigit := isDigit_of_mem_decimal hc
  simp only [Char.isDigit, Bool.and_eq_true, decide_eq_true_eq, ge_iff_le, UInt32.le_iff_toNat_le]
    at hdigit ⊢
  have hzero : '0'.val.toNat = 48 := rfl
  have hnine : '9'.val.toNat = 57 := rfl
  have hnat : c.toNat = c.val.toNat := rfl
  omega

theorem printable_append {s t : Str} (hs : Printable s) (ht : Printable t) :
    Printable (s ++ t) := by
  rw [Printable, List.all_append, Bool.and_eq_true]
  exact ⟨hs, ht⟩

theorem catalogScoring_fromInputs : ScoresFromInputs catalogScoring := by
  refine ⟨?_, ?_, ?_⟩
  · intro catalog results framework hframework
    obtain ⟨frameworkId, hlisted, rfl⟩ := List.mem_map.mp hframework
    exact hlisted
  · intro catalog results framework hframework control hcontrol
    obtain ⟨frameworkId, -, rfl⟩ := List.mem_map.mp hframework
    obtain ⟨result, hresult, rfl⟩ := List.mem_map.mp hcontrol
    exact ⟨result, (List.mem_filter.mp hresult).1, rfl, rfl⟩
  · intro ratio
    have hphrase : Printable "no applicable controls".toList := rfl
    have hpoint : Printable ".".toList := rfl
    have hsign : Printable "%".toList := rfl
    change Printable (renderRatio ratio)
    unfold renderRatio
    split_ifs
    · exact hphrase
    · exact printable_append (printable_append (printable_append (printable_decimal _) hpoint)
        (printable_decimal _)) hsign

theorem catalogScoring_attributes : AttributesByCatalog catalogScoring := by
  refine ⟨?_, ?_, ?_⟩
  · intro catalog results hnodup
    have hids : ((catalogScoring.compute catalog results).frameworks.map (·.frameworkId)) =
        catalog.frameworks := by
      simp [catalogScoring, Function.comp_def]
    exact hids.symm ▸ hnodup
  · intro catalog results frameworkId hlisted _
    exact ⟨_, List.mem_map.mpr ⟨frameworkId, hlisted, rfl⟩, rfl⟩
  · intro catalog results framework hframework
    obtain ⟨frameworkId, -, rfl⟩ := List.mem_map.mp hframework
    rfl

end SovriAgent
