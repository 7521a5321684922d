import SovriAgent.Decimal
import SovriAgent.Strings

/-!
# Percentages with One Decimal

The score a report is given is the text of a percentage with one decimal. It is read in tenths of
a percent; zeros before it are passed over.

## Main results

* `parseUnsigned_iff`: the texts that digits of a number are parsed from.
* `scorePercentageTenths_eq_some_iff`: the texts that are accepted as a score.
-/

namespace SovriAgent

namespace ReportCommand

/-! ### Digits with zeros before them -/

theorem decimal_of_lt {d : ℕ} (h : d < 10) : decimal d = [Nat.digitChar d] := by
  rw [decimal_eq, if_pos h, Nat.mod_eq_of_lt h, List.nil_append]

theorem exists_digitChar {c : Char} (h : c.isDigit = true) : ∃ d < 10, c = Nat.digitChar d := by
  simp only [Char.isDigit, Bool.and_eq_true, decide_eq_true_eq] at h
  have hlow : 48 ≤ c.toNat := UInt32.le_iff_toNat_le.mp h.1
  have hhigh : c.toNat ≤ 57 := UInt32.le_iff_toNat_le.mp h.2
  refine ⟨c.toNat - 48, by omega, Char.toNat_inj.mp ?_⟩
  rw [Nat.toNat_digitChar_of_lt_ten (by omega)]
  omega

/-- Digits are read one after the other. -/
theorem digitsValue_concat {digits : Str} {n d : ℕ} (hd : d < 10)
    (h : digitsValue 10 0 digits = some n) :
    digitsValue 10 0 (digits ++ [Nat.digitChar d]) = some (10 * n + d) := by
  have hdigit := digitsValue_decimal d
  rw [decimal_of_lt hd, digitsValue, Nat.mul_zero] at hdigit
  obtain ⟨d', hvalue, hsome⟩ := Option.bind_eq_some_iff.mp hdigit
  rw [digitsValue, Nat.zero_add, Option.some.injEq] at hsome
  subst hsome
  rw [digitsValue_append, h, Option.bind_some, digitsValue, hvalue, Option.bind_some,
    digitsValue]

/-- All digits have a value. -/
theorem exists_digitsValue {digits : Str} (h : ∀ c ∈ digits, c.isDigit = true) :
    ∃ n, digitsValue 10 0 digits = some n := by
  induction digits using List.reverseRecOn with
  | nil => exact ⟨0, rfl⟩
  | append_singleton digits c ih =>
      obtain ⟨n, hn⟩ := ih fun c hc => h c (List.mem_append_left _ hc)
      obtain ⟨d, hd, rfl⟩ := exists_digitChar (h c (List.mem_append_right _ List.mem_cons_self))
      exact ⟨_, digitsValue_concat hd hn⟩

/-- Digits are the decimal text of their value, with zeros before it. -/
theorem eq_zeros_decimal {digits : Str} {n : ℕ} (hne : digits ≠ [])
    (hdigits : ∀ c ∈ digits, c.isDigit = true) (h : digitsValue 10 0 digits = some n) :
    ∃ zeros, digits = List.replicate zeros '0' ++ decimal n := by
  induction digits using List.reverseRecOn generalizing n with
  | nil => exact absurd rfl hne
  | append_singleton digits c ih =>
      obtain ⟨d, hd, rfl⟩ :=
        exists_digitChar (hdigits c (List.mem_append_right _ List.mem_cons_self))
      have hrest : ∀ c ∈ digits, c.isDigit = true :=
        fun c hc => hdigits c (List.mem_append_left _ hc)
      obtain ⟨m, hm⟩ := exists_digitsValue hrest
      rw [digitsValue_concat hd hm] at h
      obtain rfl := Option.some.inj h
      rcases eq_or_ne digits [] with rfl | hne'
      · obtain rfl : 0 = m := Option.some.inj hm
        exact ⟨0, by rw [Nat.mul_zero, Nat.zero_add, decimal_of_lt hd]; rfl⟩
      obtain ⟨zeros, hzeros⟩ := ih hne' hrest hm
      rcases Nat.eq_zero_or_pos m with rfl | hpos
      · -- the zero that the number before the last digit is written as is one of the zeros
        refine ⟨zeros + 1, ?_⟩
        rw [hzeros, Nat.mul_zero, Nat.zero_add, decimal_of_lt hd, List.replicate_succ']
        rfl
      · refine ⟨zeros, ?_⟩
        rw [hzeros, List.append_assoc, decimal_eq (10 * m + d), if_neg (by omega)]
        rw [show (10 * m + d) / 10 = m by omega, show (10 * m + d) % 10 = d by omega]

theorem digitsValue_zeros (zeros : ℕ) (digits : Str) :
    digitsValue 10 0 (List.replicate zeros '0' ++ digits) = digitsValue 10 0 digits := by
  induction zeros with
  | zero => rfl
  | succ zeros ih =>
      rw [List.replicate_succ, List.cons_append, digitsValue,
        show digitValue 10 '0' = some 0 from by decide, Option.bind_some]
      exact ih

theorem isDigit_of_mem_zeros {zeros n : ℕ} {c : Char}
    (h : c ∈ List.replicate zeros '0' ++ decimal n) : c.isDigit = true := by
  rcases List.mem_append.mp h with h | h
  · rw [List.eq_of_mem_replicate h]
    rfl
  · exact isDigit_of_mem_decimal h

/-- Digits are parsed as a number within the bound, whatever zeros are before it. -/
theorem parseUnsigned_iff {digits : Str} {n bound : ℕ} (hne : digits ≠ [])
    (hdigits : ∀ c ∈ digits, c.isDigit = true) :
    parseUnsigned 10 bound digits = some n ↔
      n ≤ bound ∧ ∃ zeros, digits = List.replicate zeros '0' ++ decimal n := by
  obtain ⟨c, rest, rfl⟩ := List.exists_cons_of_ne_nil hne
  have hsign : c ≠ '+' := by
    rintro rfl
    exact absurd (hdigits '+' List.mem_cons_self) (by decide)
  rw [parseUnsigned_of_not_sign 10 bound rest hsign]
  constructor
  · intro h
    obtain ⟨hvalue, hle⟩ := Option.filter_eq_some_iff.mp h
    exact ⟨of_decide_eq_true hle, eq_zeros_decimal hne hdigits hvalue⟩
  · rintro ⟨hle, zeros, hzeros⟩
    rw [hzeros, digitsValue_zeros, digitsValue_decimal]
    simp [hle]

/-! ### Scores -/

/-- The tenths of a percentage with one decimal, from zero to a hundred percent. -/
def scorePercentageTenths (value : Str) : Option ℕ :=
  match stripSuffix ['%'] value with
  | none => none
  | some value =>
      match splitFirst ['.'] value with
      | none => none
      | some (whole, fractional) =>
          if whole = [] ∨ byteLen fractional ≠ 1 ∨ whole.all Char.isDigit = false ∨
              fractional.all Char.isDigit = false then none
          else
            match parseUnsigned 10 4294967295 whole with
            | none => none
            | some whole =>
                if 100 < whole then none
                else
                  match parseUnsigned 10 4294967295 fractional with
                  | none => none
                  | some fractional =>
                      -- neither the product nor the sum leaves 32 bits, nor the result 16
                      if whole * 10 + fractional ≤ 1000 then some (whole * 10 + fractional)
                      else none

/-- Whether a text is a score. -/
def isValidScorePercentage (value : Str) : Bool :=
  (scorePercentageTenths value).isSome

/-- The text of some tenths of a percent. -/
def tenthsText (tenths : ℕ) : Str :=
  decimal (tenths / 10) ++ '.' :: decimal (tenths % 10) ++ ['%']

theorem stripSuffix_eq_some_iff {suffix text rest : Str} :
    stripSuffix suffix text = some rest ↔ text = rest ++ suffix := by
  rw [stripSuffix, Option.map_eq_some_iff]
  constructor
  · rintro ⟨reversed, hreversed, rfl⟩
    rw [← List.reverse_inj, stripPrefix_eq_some_iff.mp hreversed]
    simp
  · rintro rfl
    exact ⟨rest.reverse, stripPrefix_eq_some_iff.mpr (by simp), List.reverse_reverse rest⟩

/-- One byte of digits is a digit. -/
theorem eq_digit_of_byteLen {text : Str} (hdigits : ∀ c ∈ text, c.isDigit = true)
    (h : byteLen text = 1) : ∃ d < 10, text = [Nat.digitChar d] := by
  rcases text with _ | ⟨c, rest⟩
  · cases h
  obtain ⟨d, hd, rfl⟩ := exists_digitChar (hdigits c List.mem_cons_self)
  rw [byteLen_cons] at h
  have hsize := Char.utf8Size_pos (Nat.digitChar d)
  rcases eq_or_ne rest [] with rfl | hne
  · exact ⟨d, hd, rfl⟩
  · have hrest := byteLen_pos hne
    omega

theorem byteLen_decimal_of_lt {d : ℕ} (h : d < 10) : byteLen (decimal d) = 1 := by
  have hsize : ∀ d < 10, (Nat.digitChar d).utf8Size = 1 := by decide
  rw [decimal_of_lt h, byteLen_cons, hsize d h, byteLen_nil]

/-- **The texts that are accepted as a score** are those of the tenths from 0 to 1000, with one
decimal, whatever zeros are before them; no other text is, and each is read as its tenths. -/
theorem scorePercentageTenths_eq_some_iff {value : Str} {tenths : ℕ} :
    scorePercentageTenths value = some tenths ↔
      tenths ≤ 1000 ∧ ∃ zeros, value = List.replicate zeros '0' ++ tenthsText tenths := by
  constructor
  · intro h
    rcases hsuffix : stripSuffix ['%'] value with _ | body
    · simp [scorePercentageTenths, hsuffix] at h
    rcases hsplit : splitFirst ['.'] body with _ | ⟨whole, fractional⟩
    · simp [scorePercentageTenths, hsuffix, hsplit] at h
    simp only [scorePercentageTenths, hsuffix, hsplit] at h
    obtain ⟨hshape, h⟩ := Option.ite_none_left_eq_some.mp h
    simp only [not_or, ne_eq, not_not, Bool.not_eq_false, List.all_eq_true] at hshape
    obtain ⟨hne, hlen, hwhole, hfractional⟩ := hshape
    obtain ⟨d, hd, rfl⟩ := eq_digit_of_byteLen hfractional hlen
    rw [← decimal_of_lt hd] at h
    rcases hn : parseUnsigned 10 4294967295 whole with _ | n
    · simp [hn] at h
    simp only [hn, parseUnsigned_decimal (show d ≤ 4294967295 by omega)] at h
    obtain ⟨-, h⟩ := Option.ite_none_left_eq_some.mp h
    obtain ⟨hle, h⟩ := Option.ite_none_right_eq_some.mp h
    obtain rfl := Option.some.inj h
    obtain ⟨-, zeros, rfl⟩ := (parseUnsigned_iff hne hwhole).mp hn
    refine ⟨hle, zeros, ?_⟩
    rw [stripSuffix_eq_some_iff.mp hsuffix, (splitFirst_eq_some_iff.mp hsplit).1, tenthsText,
      show (n * 10 + d) / 10 = n by omega, show (n * 10 + d) % 10 = d by omega, decimal_of_lt hd]
    simp
  · rintro ⟨hle, zeros, rfl⟩
    have hd : tenths % 10 < 10 := Nat.mod_lt _ (by omega)
    have hwhole : ∀ c ∈ List.replicate zeros '0' ++ decimal (tenths / 10), c.isDigit = true :=
      fun c hc => isDigit_of_mem_zeros hc
    have hne : List.replicate zeros '0' ++ decimal (tenths / 10) ≠ [] :=
      List.append_ne_nil_of_right_ne_nil _ (decimal_ne_nil _)
    have hpoint : '.' ∉ List.replicate zeros '0' ++ decimal (tenths / 10) := fun hmem =>
      absurd (hwhole '.' hmem) (by decide)
    have hsuffix : stripSuffix ['%'] (List.replicate zeros '0' ++ tenthsText tenths) =
        some ((List.replicate zeros '0' ++ decimal (tenths / 10)) ++
          '.' :: decimal (tenths % 10)) :=
      stripSuffix_eq_some_iff.mpr (by simp [tenthsText])
    have hparse := (parseUnsigned_iff hne hwhole).mpr
      ⟨show tenths / 10 ≤ 4294967295 by omega, zeros, rfl⟩
    have hshape : ¬ (List.replicate zeros '0' ++ decimal (tenths / 10) = [] ∨
        byteLen (decimal (tenths % 10)) ≠ 1 ∨
        (List.replicate zeros '0' ++ decimal (tenths / 10)).all Char.isDigit = false ∨
        (decimal (tenths % 10)).all Char.isDigit = false) := by
      simp only [not_or, ne_eq, not_not, Bool.not_eq_false, List.all_eq_true]
      exact ⟨hne, byteLen_decimal_of_lt hd, hwhole, fun c hc => isDigit_of_mem_decimal hc⟩
    simp only [scorePercentageTenths, hsuffix, splitFirst_char hpoint, if_neg hshape, hparse,
      parseUnsigned_decimal (show tenths % 10 ≤ 4294967295 by omega)]
    rw [if_neg (by omega), show tenths / 10 * 10 + tenths % 10 = tenths by omega, if_pos hle]

end ReportCommand

end SovriAgent
