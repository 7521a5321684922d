import SovriAgent.Decimal
import SovriAgent.RowId

/-!
# Reading Row Ids Back

The migrations read the fields of a result or a gap back from the id of its row. Ids
written by earlier versions lie in the same columns, and an id is taken for a current one
when its fields can be read: this module says when that is right.

Lengths are bounded by the largest `usize`, which the language promises of every string.

## Main results

* `row_ids_round_trip`: the fields of a row are read back from its id, and different
  keys have different ids.
* `legacy_ids_told_apart_iff`: a legacy gap id is told apart from current ids exactly
  when its framework is empty or its rule does not look like a length-prefixed control
  followed by a rule.
-/

namespace SovriAgent

/-- Decodes the id of a compliance gap row; the framework may be empty. -/
def complianceGapIdentity (rowId : Str) : Option RowIdentity :=
  (takeLengthPrefixedField rowId).bind fun run =>
    (takeLengthPrefixedField run.2).bind fun framework =>
      (takeLengthPrefixedField framework.2).bind fun control =>
        (splitFirst [':'] control.2).bind fun rule =>
          (parseUnsigned 10 usizeMax rule.1).bind fun length =>
            if run.1 ≠ [] ∧ control.1 ≠ [] ∧ rule.2 ≠ [] ∧ byteLen rule.2 = length then
              some ⟨run.1, framework.1, control.1, rule.2⟩
            else none

/-! ### Current ids are read back -/

/-- A length-prefixed field is taken off the front of what was written. -/
theorem takeLengthPrefixedField_lengthPrefixed {field : Str} (h : byteLen field ≤ usizeMax)
    (rest : Str) : takeLengthPrefixedField (lengthPrefixed field rest) = some (field, rest) := by
  rw [takeLengthPrefixedField, lengthPrefixed, splitFirst_char (colon_not_mem_decimal _),
    Option.bind_some, parseUnsigned_decimal h]
  simp [stripPrefix]

/-- The result id decoder on a text whose first two fields are known. -/
theorem controlResultIdentity_lengthPrefixed {run framework : Str}
    (hrun : byteLen run ≤ usizeMax) (hframework : byteLen framework ≤ usizeMax) (rest : Str) :
    controlResultIdentity (lengthPrefixed run (lengthPrefixed framework rest)) =
      (takeLengthPrefixedField rest).bind fun control =>
        if run ≠ [] ∧ control.1 ≠ [] ∧ control.2 ≠ [] then
          some ⟨run, framework, control.1, control.2⟩
        else none := by
  rw [controlResultIdentity, takeLengthPrefixedField_lengthPrefixed hrun, Option.bind_some,
    takeLengthPrefixedField_lengthPrefixed hframework, Option.bind_some]

theorem controlResultIdentity_controlResultRowId {run framework control rule : Str}
    (hrun : byteLen run ≤ usizeMax) (hframework : byteLen framework ≤ usizeMax)
    (hcontrol : byteLen control ≤ usizeMax) (hne : run ≠ [] ∧ control ≠ [] ∧ rule ≠ []) :
    controlResultIdentity (controlResultRowId run framework control rule) =
      some ⟨run, framework, control, rule⟩ := by
  rw [controlResultRowId, controlResultIdentity_lengthPrefixed hrun hframework,
    takeLengthPrefixedField_lengthPrefixed hcontrol, Option.bind_some, if_pos hne]

theorem complianceGapIdentity_complianceGapRowId {run framework control rule : Str}
    (hrun : byteLen run ≤ usizeMax) (hframework : byteLen framework ≤ usizeMax)
    (hcontrol : byteLen control ≤ usizeMax) (hrule : byteLen rule ≤ usizeMax)
    (hne : run ≠ [] ∧ control ≠ [] ∧ rule ≠ []) :
    complianceGapIdentity (complianceGapRowId run framework control rule) =
      some ⟨run, framework, control, rule⟩ := by
  obtain ⟨hr, hc, hu⟩ := hne
  rw [complianceGapIdentity, complianceGapRowId, takeLengthPrefixedField_lengthPrefixed hrun,
    Option.bind_some, takeLengthPrefixedField_lengthPrefixed hframework, Option.bind_some,
    takeLengthPrefixedField_lengthPrefixed hcontrol, Option.bind_some, lastField,
    splitFirst_char (colon_not_mem_decimal _), Option.bind_some, parseUnsigned_decimal hrule,
    Option.bind_some, if_pos ⟨hr, hc, hu, rfl⟩]

/-- **The fields of a row are read back from its id, and different keys never share a
row.** The lengths are those a string of the language can have. -/
theorem row_ids_round_trip :
    (∀ run framework control rule : Str, run ≠ [] → control ≠ [] → rule ≠ [] →
      byteLen run ≤ usizeMax → byteLen framework ≤ usizeMax → byteLen control ≤ usizeMax →
      byteLen rule ≤ usizeMax →
      controlResultIdentity (controlResultRowId run framework control rule) =
          some ⟨run, framework, control, rule⟩ ∧
        complianceGapIdentity (complianceGapRowId run framework control rule) =
          some ⟨run, framework, control, rule⟩) ∧
    (Function.Injective fun key : RowIdentity =>
      controlResultRowId key.runId key.frameworkId key.controlId key.ruleId) ∧
    (Function.Injective fun key : RowIdentity =>
      complianceGapRowId key.runId key.frameworkId key.controlId key.ruleId) ∧
    Function.Injective fun key : Str × Str => scoreSummaryRowId key.1 key.2 := by
  refine ⟨?_, ?_, ?_, ?_⟩
  · intro run framework control rule hr hc hu hrun hframework hcontrol hrule
    exact ⟨controlResultIdentity_controlResultRowId hrun hframework hcontrol ⟨hr, hc, hu⟩,
      complianceGapIdentity_complianceGapRowId hrun hframework hcontrol hrule ⟨hr, hc, hu⟩⟩
  · rintro ⟨r, f, c, u⟩ ⟨r', f', c', u'⟩ h
    obtain ⟨rfl, rfl, rfl, rfl⟩ := controlResultRowId_inj h
    rfl
  · rintro ⟨r, f, c, u⟩ ⟨r', f', c', u'⟩ h
    obtain ⟨rfl, rfl, rfl, rfl⟩ := complianceGapRowId_inj h
    rfl
  · rintro ⟨r, f⟩ ⟨r', f'⟩ h
    obtain ⟨rfl, rfl⟩ := scoreSummaryRowId_inj h
    rfl

/-- Fields with colons, digits and wide characters, and an empty framework. -/
theorem row_ids_round_trip_colons :
    controlResultIdentity (controlResultRowId "1:x".toList [] "é:2".toList ":".toList) =
        some ⟨"1:x".toList, [], "é:2".toList, ":".toList⟩ ∧
      complianceGapIdentity (complianceGapRowId "1:x".toList [] "é:2".toList ":".toList) =
        some ⟨"1:x".toList, [], "é:2".toList, ":".toList⟩ :=
  row_ids_round_trip.1 _ _ _ _ (by simp) (by simp) (by simp) (by decide) (by decide) (by decide)
    (by decide)

/-! ### Legacy ids -/

/-- A rule that looks like the end of a current result id: a length, a colon, a control
of that many bytes, a colon and a rule. -/
def Imitates (rule : Str) : Prop :=
  ∃ length control rest : Str, rule = length ++ ':' :: (control ++ ':' :: rest) ∧
    ':' ∉ length ∧ parseUnsigned 10 usizeMax length = some (byteLen control) ∧
    control ≠ [] ∧ rest ≠ []

/-- A legacy gap id is told apart from current ids: neither decoder reads it, and it is
the id of no current result and no current gap. -/
structure ToldApart (framework control rule : Str) : Prop where
  result : controlResultIdentity (legacyComplianceGapRowId framework control rule) = none
  gap : complianceGapIdentity (legacyComplianceGapRowId framework control rule) = none
  differs : ∀ run framework' control' rule' : Str, run ≠ [] → control' ≠ [] → rule' ≠ [] →
    legacyComplianceGapRowId framework control rule ≠
        controlResultRowId run framework' control' rule' ∧
      legacyComplianceGapRowId framework control rule ≠
        complianceGapRowId run framework' control' rule'

/-- The two parts of a text cut at a byte offset. -/
theorem eq_append_of_takeBytes {n : ℕ} {s value rest : Str} (hvalue : takeBytes n s = some value)
    (hrest : dropBytes n s = some rest) : value ++ rest = s ∧ byteLen value = n := by
  obtain ⟨tail, rfl, rfl⟩ := eq_prefix_of_takeBytes hvalue
  rw [dropBytes_append] at hrest
  obtain rfl := Option.some.inj hrest
  exact ⟨rfl, rfl⟩

/-- A length-prefixed field can be taken off exactly when the text is a length, a colon,
a field of that many bytes, a colon and what is left. -/
theorem takeLengthPrefixedField_eq_some_iff {input field rest : Str} :
    takeLengthPrefixedField input = some (field, rest) ↔
      ∃ length, input = length ++ ':' :: (field ++ ':' :: rest) ∧ ':' ∉ length ∧
        parseUnsigned 10 usizeMax length = some (byteLen field) := by
  constructor
  · intro h
    rw [takeLengthPrefixedField, Option.bind_eq_some_iff] at h
    obtain ⟨⟨length, after⟩, hsplit, h⟩ := h
    obtain ⟨n, hn, h⟩ := Option.bind_eq_some_iff.mp h
    obtain ⟨value, hvalue, h⟩ := Option.bind_eq_some_iff.mp h
    obtain ⟨remainder, hremainder, h⟩ := Option.bind_eq_some_iff.mp h
    obtain ⟨left, hleft, heq⟩ := Option.map_eq_some_iff.mp h
    obtain ⟨rfl, rfl⟩ := Prod.mk.inj heq
    obtain rfl : remainder = ':' :: left := stripPrefix_eq_some_iff.mp hleft
    obtain ⟨hafter, hlen⟩ : value ++ ':' :: left = after ∧ byteLen value = n :=
      eq_append_of_takeBytes hvalue hremainder
    refine ⟨length, ?_, not_mem_of_splitFirst_char hsplit, ?_⟩
    · rw [eq_of_splitFirst hsplit, ← hafter]
      rfl
    · rw [hlen]
      exact hn
  · rintro ⟨length, rfl, hcolon, hlength⟩
    rw [takeLengthPrefixedField, splitFirst_char hcolon, Option.bind_some, hlength]
    simp [stripPrefix]

/-- Some length-prefixed control and a rule can be read off exactly the imitating rules. -/
theorem imitates_iff {rule : Str} :
    Imitates rule ↔ ∃ control rest, takeLengthPrefixedField rule = some (control, rest) ∧
      control ≠ [] ∧ rest ≠ [] := by
  constructor
  · rintro ⟨length, control, rest, heq, hcolon, hlength, hc, hr⟩
    exact ⟨control, rest, takeLengthPrefixedField_eq_some_iff.mpr ⟨length, heq, hcolon, hlength⟩,
      hc, hr⟩
  · rintro ⟨control, rest, htake, hc, hr⟩
    obtain ⟨length, heq, hcolon, hlength⟩ := takeLengthPrefixedField_eq_some_iff.mp htake
    exact ⟨length, control, rest, heq, hcolon, hlength, hc, hr⟩

/-- The result decoder refuses a legacy id unless its rule imitates a current one. -/
theorem controlResultIdentity_legacy_eq_none_iff {framework control rule : Str}
    (hframework : byteLen framework ≤ usizeMax) (hcontrol : byteLen control ≤ usizeMax) :
    controlResultIdentity (legacyComplianceGapRowId framework control rule) = none ↔
      framework = [] ∨ ¬ Imitates rule := by
  rw [legacyComplianceGapRowId, controlResultIdentity_lengthPrefixed hframework hcontrol,
    imitates_iff]
  rcases htake : takeLengthPrefixedField rule with _ | ⟨field, rest⟩
  · simp
  · simp only [Option.bind_some, ite_eq_right_iff, reduceCtorEq, imp_false, not_and_or, not_not,
      Option.some.injEq, Prod.mk.injEq, ne_eq]
    grind

/-- What the gap decoder reads, the result decoder reads too. -/
theorem controlResultIdentity_ne_none_of_gap {rowId : Str}
    (h : complianceGapIdentity rowId ≠ none) : controlResultIdentity rowId ≠ none := by
  obtain ⟨identity, hidentity⟩ := Option.ne_none_iff_exists'.mp h
  rw [complianceGapIdentity, Option.bind_eq_some_iff] at hidentity
  obtain ⟨run, hrun, hidentity⟩ := hidentity
  obtain ⟨framework, hframework, hidentity⟩ := Option.bind_eq_some_iff.mp hidentity
  obtain ⟨control, hcontrol, hidentity⟩ := Option.bind_eq_some_iff.mp hidentity
  obtain ⟨rule, hrule, hidentity⟩ := Option.bind_eq_some_iff.mp hidentity
  obtain ⟨length, -, hidentity⟩ := Option.bind_eq_some_iff.mp hidentity
  split at hidentity
  · next hne =>
      have hrest : control.2 ≠ [] := by
        obtain ⟨before, after⟩ := rule
        rw [eq_of_splitFirst hrule]
        simp
      rw [controlResultIdentity, hrun, Option.bind_some, hframework, Option.bind_some, hcontrol,
        Option.bind_some, if_pos ⟨hne.1, hne.2.1, hrest⟩]
      simp
  · exact absurd hidentity (by simp)

/-- **A legacy gap id is told apart from current ids exactly when its framework is empty
or its rule does not imitate the end of a current id.** The lengths are those a string of
the language can have. -/
theorem legacy_ids_told_apart_iff (framework control rule : Str)
    (hframework : byteLen framework ≤ usizeMax) (hcontrol : byteLen control ≤ usizeMax)
    (hrule : byteLen rule ≤ usizeMax) :
    ToldApart framework control rule ↔ framework = [] ∨ ¬ Imitates rule := by
  rw [← controlResultIdentity_legacy_eq_none_iff hframework hcontrol]
  constructor
  · exact fun h => h.result
  · intro hnone
    refine ⟨hnone, ?_, ?_⟩
    · by_contra hgap
      exact controlResultIdentity_ne_none_of_gap hgap hnone
    · -- a current id is read back, and its fields are parts of the legacy one's
      have hread : ∀ run framework' control' rest, run ≠ [] → control' ≠ [] → rest ≠ [] →
          legacyComplianceGapRowId framework control rule ≠
            controlResultRowId run framework' control' rest := by
        intro run framework' control' rest hr hc hrest heq
        obtain ⟨rfl, h⟩ := lengthPrefixed_inj heq
        obtain ⟨rfl, h⟩ := lengthPrefixed_inj h
        have hlen : byteLen control' ≤ usizeMax := by
          have hsum := congrArg byteLen h
          simp only [lengthPrefixed, byteLen_append, byteLen_cons] at hsum
          omega
        rw [heq, controlResultIdentity_controlResultRowId hframework hcontrol hlen
          ⟨hr, hc, hrest⟩] at hnone
        exact absurd hnone (by simp)
      intro run framework' control' rule' hr hc hu
      refine ⟨hread run framework' control' rule' hr hc hu, ?_⟩
      exact hread run framework' control' (lastField rule') hr hc (by simp [lastField])

/-- The rule of an ordinary catalogue entry: it starts with no length. -/
theorem legacy_ids_told_apart_iff_plain :
    ToldApart "gdpr".toList "consent:tracker".toList "detect".toList ↔
      "gdpr".toList = [] ∨ ¬ Imitates "detect".toList :=
  legacy_ids_told_apart_iff _ _ _ (by decide) (by decide) (by decide)

/-- A legacy gap id that is the id of a current gap, so that writing the legacy gap's
successor deletes the current one: both decoders read it. -/
theorem legacy_id_imitates_current :
    ¬ (∀ framework control rule : Str, ToldApart framework control rule) ∧
      legacyComplianceGapRowId "run".toList "fw".toList "3:ctl:4:rule".toList =
        complianceGapRowId "run".toList "fw".toList "ctl".toList "rule".toList := by
  have heq : legacyComplianceGapRowId "run".toList "fw".toList "3:ctl:4:rule".toList =
      complianceGapRowId "run".toList "fw".toList "ctl".toList "rule".toList := by decide
  refine ⟨?_, heq⟩
  intro h
  exact ((h "run".toList "fw".toList "3:ctl:4:rule".toList).differs "run".toList "fw".toList
    "ctl".toList "rule".toList (by simp) (by simp) (by simp)).2 heq

end SovriAgent
