import SovriAgent.Text

/-!
# Derived Row Ids

The primary keys of the result, gap and score tables are texts composed of the fields
they identify. Every field but the last is preceded by its length in bytes, so that
delimiters inside a field cannot make two different keys produce one id. Gaps written by
earlier versions carry an id without the run.

## Main results

* `lengthPrefixed_inj`: a length-prefixed field can be told from what follows it.
* `controlResultRowId_inj`, `complianceGapRowId_inj`, `scoreSummaryRowId_inj`: different
  keys have different ids.
-/

namespace SovriAgent

/-- A field preceded by its length in bytes and followed by a colon. -/
def lengthPrefixed (field rest : Str) : Str :=
  decimal (byteLen field) ++ ':' :: (field ++ ':' :: rest)

/-- The id of a control result row. -/
def controlResultRowId (runId frameworkId controlId ruleId : Str) : Str :=
  lengthPrefixed runId (lengthPrefixed frameworkId (lengthPrefixed controlId ruleId))

/-- The last field of an id, preceded by its length in bytes. -/
def lastField (field : Str) : Str :=
  decimal (byteLen field) ++ ':' :: field

/-- The id of a compliance gap row. -/
def complianceGapRowId (runId frameworkId controlId ruleId : Str) : Str :=
  lengthPrefixed runId (lengthPrefixed frameworkId (lengthPrefixed controlId (lastField ruleId)))

/-- The id earlier versions gave a compliance gap row: it holds no run id. -/
def legacyComplianceGapRowId (frameworkId controlId ruleId : Str) : Str :=
  lengthPrefixed frameworkId (lengthPrefixed controlId ruleId)

/-- The id of a score summary row. -/
def scoreSummaryRowId (runId frameworkId : Str) : Str :=
  lengthPrefixed runId (lastField frameworkId)

/-- The largest byte length (`usize`). -/
def usizeMax : ℕ := 18446744073709551615

/-- Takes a length-prefixed field off the front of an id. -/
def takeLengthPrefixedField (input : Str) : Option (Str × Str) :=
  (splitFirst [':'] input).bind fun p =>
    (parseUnsigned 10 usizeMax p.1).bind fun length =>
      (takeBytes length p.2).bind fun value =>
        (dropBytes length p.2).bind fun remainder =>
          (stripPrefix [':'] remainder).map fun remainder => (value, remainder)

/-- The fields of a control result row, as its id encodes them. -/
structure RowIdentity where
  runId : Str
  frameworkId : Str
  controlId : Str
  ruleId : Str
  deriving DecidableEq

/-- Decodes the id of a control result row; the framework may be empty. -/
def controlResultIdentity (rowId : Str) : Option RowIdentity :=
  (takeLengthPrefixedField rowId).bind fun run =>
    (takeLengthPrefixedField run.2).bind fun framework =>
      (takeLengthPrefixedField framework.2).bind fun control =>
        if run.1 ≠ [] ∧ control.1 ≠ [] ∧ control.2 ≠ [] then
          some ⟨run.1, framework.1, control.1, control.2⟩
        else none

/-! ### Different keys have different ids -/

theorem decimal_injective {m n : ℕ} (h : decimal m = decimal n) : m = n := by
  rw [← Nat.ofDigitChars_ten_toDigits (n := m), ← Nat.ofDigitChars_ten_toDigits (n := n)]
  exact congrArg (Nat.ofDigitChars 10 · 0) h

theorem colon_not_mem_decimal (n : ℕ) : ':' ∉ decimal n := by
  intro h
  have hdigit : Char.isDigit ':' = true := Nat.isDigit_of_mem_toDigits (by decide) (by decide) h
  exact absurd hdigit (by decide)

/-- A length and what follows it can be told apart. -/
theorem decimal_colon_inj {m n : ℕ} {s t : Str} (h : decimal m ++ ':' :: s = decimal n ++ ':' :: t) :
    m = n ∧ s = t := by
  have hm : splitFirst [':'] (decimal m ++ ':' :: s) = some (decimal m, s) :=
    splitFirst_char (colon_not_mem_decimal m)
  rw [h, splitFirst_char (colon_not_mem_decimal n)] at hm
  obtain ⟨hdecimal, rfl⟩ := Prod.mk.inj (Option.some.inj hm)
  exact ⟨(decimal_injective hdecimal).symm, rfl⟩

/-- **A length-prefixed field can be told from what follows it.** -/
theorem lengthPrefixed_inj {s t x y : Str} (h : lengthPrefixed s x = lengthPrefixed t y) :
    s = t ∧ x = y := by
  obtain ⟨hlen, hrest⟩ := decimal_colon_inj h
  have hs := takeBytes_append s (':' :: x)
  rw [hrest, hlen, takeBytes_append] at hs
  obtain rfl := Option.some.inj hs
  have htail := List.append_cancel_left hrest
  exact ⟨rfl, (List.cons.inj htail).2⟩

theorem lastField_inj {s t : Str} (h : lastField s = lastField t) : s = t :=
  (decimal_colon_inj h).2

theorem controlResultRowId_inj {r f c u r' f' c' u' : Str}
    (h : controlResultRowId r f c u = controlResultRowId r' f' c' u') :
    r = r' ∧ f = f' ∧ c = c' ∧ u = u' := by
  obtain ⟨hr, h⟩ := lengthPrefixed_inj h
  obtain ⟨hf, h⟩ := lengthPrefixed_inj h
  obtain ⟨hc, hu⟩ := lengthPrefixed_inj h
  exact ⟨hr, hf, hc, hu⟩

theorem complianceGapRowId_inj {r f c u r' f' c' u' : Str}
    (h : complianceGapRowId r f c u = complianceGapRowId r' f' c' u') :
    r = r' ∧ f = f' ∧ c = c' ∧ u = u' := by
  obtain ⟨hr, h⟩ := lengthPrefixed_inj h
  obtain ⟨hf, h⟩ := lengthPrefixed_inj h
  obtain ⟨hc, h⟩ := lengthPrefixed_inj h
  exact ⟨hr, hf, hc, lastField_inj h⟩

theorem scoreSummaryRowId_inj {r f r' f' : Str}
    (h : scoreSummaryRowId r f = scoreSummaryRowId r' f') : r = r' ∧ f = f' := by
  obtain ⟨hr, h⟩ := lengthPrefixed_inj h
  exact ⟨hr, lastField_inj h⟩

end SovriAgent
