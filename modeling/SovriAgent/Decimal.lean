import SovriAgent.Text

/-!
# Decimal Text

The decimal writer and the unsigned parser of the language, related to each other. The
digits of a number come off its end one by one, and the parser reads them back in order
of their weight.

## Main results

* `eq_zero_of_head_decimal`: only zero is written with a leading zero.
* `digitsValue_decimal`: the digits of a number have its value.
* `parseUnsigned_decimal`: a number within the bound is parsed back from its text.
-/

namespace SovriAgent

/-- The last digit comes off the end. -/
theorem decimal_eq (n : ℕ) :
    decimal n = (if n < 10 then [] else decimal (n / 10)) ++ [Nat.digitChar (n % 10)] := by
  unfold decimal
  rw [Nat.toDigits_eq_if (by omega)]
  split
  · simp [Nat.mod_eq_of_lt (by omega : n < 10)]
  · rfl

theorem decimal_ne_nil (n : ℕ) : decimal n ≠ [] := by
  rw [decimal_eq]
  simp

/-- Every character of a decimal text is a decimal digit. -/
theorem isDigit_of_mem_decimal {n : ℕ} {c : Char} (h : c ∈ decimal n) : c.isDigit = true :=
  Nat.isDigit_of_mem_toDigits (by omega) (by omega) h

private theorem digitChar_eq_zero : ∀ d < 10, Nat.digitChar d = '0' → d = 0 := by
  decide

/-- Only zero is written with a leading zero. -/
theorem eq_zero_of_head_decimal {n : ℕ} (h : (decimal n).head? = some '0') : n = 0 := by
  induction n using Nat.strong_induction_on with
  | h n ih =>
      rw [decimal_eq] at h
      split at h
      · have hdigit := digitChar_eq_zero (n % 10) (by omega) (Option.some.inj h)
        omega
      · rw [List.head?_append_of_ne_nil _ (decimal_ne_nil _)] at h
        have hzero := ih (n / 10) (by omega) h
        omega

private theorem digitValue_digitChar : ∀ d < 10, digitValue 10 (Nat.digitChar d) = some d := by
  decide

/-- Digits are read one part after the other. -/
theorem digitsValue_append (radix acc : ℕ) (s t : Str) :
    digitsValue radix acc (s ++ t) = (digitsValue radix acc s).bind (digitsValue radix · t) := by
  induction s generalizing acc with
  | nil => rfl
  | cons c s ih =>
      rw [List.cons_append, digitsValue, digitsValue]
      cases digitValue radix c with
      | none => rfl
      | some d => exact ih (radix * acc + d)

/-- **The digits of a number have its value.** -/
theorem digitsValue_decimal (n : ℕ) : digitsValue 10 0 (decimal n) = some n := by
  induction n using Nat.strong_induction_on with
  | h n ih =>
      have hlast := digitValue_digitChar (n % 10) (by omega)
      rw [decimal_eq, digitsValue_append]
      split
      · simp only [digitsValue, Option.bind_some, hlast, Option.some.injEq]
        omega
      · rw [ih (n / 10) (by omega)]
        simp only [digitsValue, Option.bind_some, hlast, Option.some.injEq]
        omega

/-- A text that starts with no sign is parsed as its digits. -/
theorem parseUnsigned_of_not_sign (radix bound : ℕ) {c : Char} (s : Str) (h : c ≠ '+') :
    parseUnsigned radix bound (c :: s) =
      (digitsValue radix 0 (c :: s)).filter (· ≤ bound) := by
  simp [parseUnsigned, h]

/-- **A number within the bound is parsed back from its text.** -/
theorem parseUnsigned_decimal {n bound : ℕ} (h : n ≤ bound) :
    parseUnsigned 10 bound (decimal n) = some n := by
  obtain ⟨c, s, hcs⟩ := List.exists_cons_of_ne_nil (decimal_ne_nil n)
  have hdigit : c.isDigit = true := isDigit_of_mem_decimal (n := n) (by simp [hcs])
  have hsign : c ≠ '+' := by
    rintro rfl
    exact absurd hdigit (by decide)
  rw [hcs, parseUnsigned_of_not_sign 10 bound s hsign, ← hcs, digitsValue_decimal]
  simp [h]

end SovriAgent
