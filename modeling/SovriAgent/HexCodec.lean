import SovriAgent.CompactJson
import SovriAgent.Json

/-!
# What the Hexadecimal Decoder Accepts

The decoder hands every two bytes of its input to the unsigned integer parser, whose
grammar is wider than two hexadecimal digits: it admits a `+` before the last digit. So
`+1` decodes, to the byte that `01` decodes to.

The accepted texts are described here without the parser, as sequences of signed pairs.
On those without a plus sign the decoder is the inverse of the encoder up to letter case.

## Main results

* `fromHex_isSome_iff`: the texts that decode are the sequences of signed pairs.
* `toHex_fromHex`: a decoded text of digits is the encoding up to case.
* `fromHex_exact_iff`: the texts on which the decoder accepts exactly hexadecimal.
-/

namespace SovriAgent

/-! ### The digits -/

/-- The digits are the ten decimal digits and the letters from `a` to `f` of either case. -/
theorem isHexDigit_iff {c : Char} : isHexDigit c = true ↔
    ('0' ≤ c ∧ c ≤ '9') ∨ ('a' ≤ c ∧ c ≤ 'f') ∨ ('A' ≤ c ∧ c ≤ 'F') := by
  have hle : ∀ a b : Char, a ≤ b ↔ a.toNat ≤ b.toNat := fun a b => by
    rw [Char.le_def, UInt32.le_iff_toNat_le, Char.toNat_val, Char.toNat_val]
  have h0 : ('0' : Char).toNat = 48 := rfl
  have h9 : ('9' : Char).toNat = 57 := rfl
  have ha : ('a' : Char).toNat = 97 := rfl
  have hf : ('f' : Char).toNat = 102 := rfl
  have hA : ('A' : Char).toNat = 65 := rfl
  have hF : ('F' : Char).toNat = 70 := rfl
  simp only [isHexDigit, digitValue, hle, h0, h9, ha, hf, hA, hF]
  split_ifs with hdigit hlower hupper
  · simp only [Option.filter_some]
    have : c.toNat - 48 < 16 := by omega
    simp [this, hdigit]
  · have : c.toNat - 97 + 10 < 16 := by omega
    simp [this, hlower]
  · have : c.toNat - 65 + 10 < 16 := by omega
    simp [this, hupper]
  · simp [hdigit, hlower, hupper]

/-- The value the integer parser gives a digit, and the digit the encoder writes for it. -/
private theorem digitValue_ascii : ∀ n < 128, isHexDigit (Char.ofNat n) = true →
    (Char.ofNat n).utf8Size = 1 ∧ ∃ v < 16, digitValue 16 (Char.ofNat n) = some v ∧
      hexDigit v = (Char.ofNat n).toLower := by
  decide +kernel

/-- A hexadecimal digit is one byte, parsed to the value it is written for. -/
theorem digitValue_of_isHexDigit {c : Char} (h : isHexDigit c = true) :
    c.utf8Size = 1 ∧ ∃ v < 16, digitValue 16 c = some v ∧ hexDigit v = c.toLower := by
  have hlt : c.toNat < 128 := by
    have hrange := isHexDigit_iff.mp h
    simp only [Char.le_def, UInt32.le_iff_toNat_le, Char.toNat_val] at hrange
    have h9 : ('9' : Char).toNat = 57 := rfl
    have hf : ('f' : Char).toNat = 102 := rfl
    have hF : ('F' : Char).toNat = 70 := rfl
    omega
  have hc := digitValue_ascii c.toNat hlt
  rw [Char.ofNat_toNat] at hc
  exact hc h

theorem digitValue_of_not_isHexDigit {c : Char} (h : ¬ isHexDigit c = true) :
    digitValue 16 c = none := by
  rwa [isHexDigit, Bool.not_eq_true, Option.isSome_eq_false_iff, Option.isNone_iff_eq_none] at h

/-! ### The pairs -/

/-- The texts the decoder accepts: pairs of two digits, or of a plus sign and a digit. -/
def SignedPairs : Str → Prop
  | [] => True
  | [_] => False
  | a :: b :: rest => (isHexDigit a = true ∨ a = '+') ∧ isHexDigit b = true ∧ SignedPairs rest

/-- Two digits are parsed to the byte the encoder writes them for. -/
theorem parseUnsigned_digits {a b : Char} (ha : isHexDigit a = true)
    (hb : isHexDigit b = true) :
    ∃ n < 256, parseUnsigned 16 255 [a, b] = some n ∧
      [hexDigit (n >>> 4), hexDigit (n &&& 0x0f)] = [a.toLower, b.toLower] := by
  obtain ⟨-, v, hv, hva, hvl⟩ := digitValue_of_isHexDigit ha
  obtain ⟨-, w, hw, hwb, hwl⟩ := digitValue_of_isHexDigit hb
  have hsign : a ≠ '+' := by
    rintro rfl
    exact absurd ha (by decide)
  refine ⟨16 * v + w, by omega, ?_, ?_⟩
  · simp [parseUnsigned, hsign, digitsValue, hva, hwb]
    omega
  · have hhigh : (16 * v + w) >>> 4 = v := by
      rw [Nat.shiftRight_eq_div_pow]
      omega
    have hlow : (16 * v + w) &&& 0x0f = w := by
      rw [Nat.and_two_pow_sub_one_eq_mod _ 4]
      omega
    rw [hhigh, hlow, hvl, hwl]

/-- The parser accepts a pair exactly if it is a signed pair. -/
theorem parseUnsigned_pair_isSome {a b : Char} :
    (parseUnsigned 16 255 [a, b]).isSome = true ↔
      (isHexDigit a = true ∨ a = '+') ∧ isHexDigit b = true := by
  by_cases hsign : a = '+'
  · subst hsign
    by_cases hb : isHexDigit b = true
    · obtain ⟨-, w, hw, hwb, -⟩ := digitValue_of_isHexDigit hb
      have : w ≤ 255 := by omega
      simp [parseUnsigned, digitsValue, hwb, hb, this]
    · simp [parseUnsigned, digitsValue, digitValue_of_not_isHexDigit hb, hb]
  · by_cases ha : isHexDigit a = true
    · by_cases hb : isHexDigit b = true
      · obtain ⟨n, -, hn, -⟩ := parseUnsigned_digits ha hb
        simp [hn, ha, hb]
      · obtain ⟨-, v, -, hva, -⟩ := digitValue_of_isHexDigit ha
        simp [parseUnsigned, hsign, digitsValue, hva, digitValue_of_not_isHexDigit hb, hb]
    · simp [parseUnsigned, hsign, digitsValue, digitValue_of_not_isHexDigit ha, ha]

private theorem utf8Size_of_signed {a : Char} (h : isHexDigit a = true ∨ a = '+') :
    a.utf8Size = 1 := by
  rcases h with h | rfl
  · exact (digitValue_of_isHexDigit h).1
  · rfl

/-- **The accepted texts** are the sequences of signed pairs. -/
theorem fromHex_isSome_iff (hex : Str) : (fromHex hex).isSome = true ↔ SignedPairs hex := by
  rw [fromHex_eq_hexPairs]
  induction hex using hexPairs.induct with
  | case1 => simp [hexPairs, SignedPairs]
  | case2 a => simp [hexPairs, SignedPairs]
  | case3 a b rest hab ih =>
      rw [hexPairs, if_pos hab, SignedPairs, ← ih, ← and_assoc, ← parseUnsigned_pair_isSome]
      cases parseUnsigned 16 255 [a, b] <;> simp
  | case4 a b rest hab =>
      rw [hexPairs, if_neg hab, SignedPairs]
      refine iff_of_false (by simp) fun h => hab ?_
      exact ⟨utf8Size_of_signed h.1, (digitValue_of_isHexDigit h.2.1).1⟩

/-- Signed pairs without a plus sign are digits, an even number of bytes of them. -/
theorem SignedPairs.digits {hex : Str} (h : SignedPairs hex) (hplus : '+' ∉ hex) :
    byteLen hex % 2 = 0 ∧ ∀ c ∈ hex, isHexDigit c = true := by
  induction hex using SignedPairs.induct with
  | case1 => simp
  | case2 a => exact h.elim
  | case3 a b rest ih =>
      obtain ⟨ha, hb, hrest⟩ := h
      simp only [List.mem_cons, not_or] at hplus
      obtain ⟨hpa, -, hprest⟩ := hplus
      have hdigit : isHexDigit a = true := ha.resolve_right fun h => hpa h.symm
      obtain ⟨heven, hall⟩ := ih hrest hprest
      have hsizes := utf8Size_of_signed (.inl hdigit)
      have hsizeb := utf8Size_of_signed (.inl hb)
      refine ⟨by simp only [byteLen_cons]; omega, ?_⟩
      simp only [List.mem_cons, forall_eq_or_imp]
      exact ⟨hdigit, hb, hall⟩

/-- A decoded text of digits is the encoding of its bytes up to letter case. -/
theorem toHex_fromHex {hex : Str} {bytes : List UInt8} (h : fromHex hex = some bytes)
    (hdigits : ∀ c ∈ hex, isHexDigit c = true) : hex.map Char.toLower = toHex bytes := by
  rw [fromHex_eq_hexPairs] at h
  induction hex using hexPairs.induct generalizing bytes with
  | case1 =>
      rw [hexPairs, Option.some.injEq] at h
      subst h
      rfl
  | case2 a => simp [hexPairs] at h
  | case3 a b rest hab ih =>
      simp only [List.mem_cons, forall_eq_or_imp] at hdigits
      obtain ⟨ha, hb, hrest⟩ := hdigits
      obtain ⟨n, hn, hparse, hpair⟩ := parseUnsigned_digits ha hb
      rw [hexPairs, if_pos hab, hparse, Option.bind_some, Option.map_eq_some_iff] at h
      obtain ⟨tail, htail, rfl⟩ := h
      have hbyte : (UInt8.ofNat n).toNat = n := by
        rw [UInt8.toNat_ofNat', Nat.mod_eq_of_lt hn]
      have hcons : toHex (UInt8.ofNat n :: tail) =
          [hexDigit (n >>> 4), hexDigit (n &&& 0x0f)] ++ toHex tail := by
        simp only [toHex, List.flatMap_cons, hbyte]
      rw [hcons, hpair, ← ih htail hrest]
      rfl
  | case4 a b rest hab => simp [hexPairs, hab] at h

/-! ### Exactness -/

/-- **When the codec accepts exactly hexadecimal**: decoding inverts encoding, and what a
text decodes to is what it is the encoding of, except for the sequences of signed pairs
with a plus sign, which decode and are not hexadecimal. -/
theorem fromHex_exact_iff (hex : Str) :
    ((∀ bytes, fromHex (toHex bytes) = some bytes) ∧
      ∀ bytes, fromHex hex = some bytes →
        byteLen hex % 2 = 0 ∧ (∀ c ∈ hex, isHexDigit c = true) ∧
          hex.map Char.toLower = toHex bytes) ↔
      (SignedPairs hex → '+' ∉ hex) := by
  constructor
  · rintro ⟨-, hexact⟩ hpairs hplus
    obtain ⟨bytes, hbytes⟩ := Option.isSome_iff_exists.mp ((fromHex_isSome_iff hex).mpr hpairs)
    exact absurd ((hexact bytes hbytes).2.1 '+' hplus) (by decide)
  · intro hplus
    refine ⟨fromHex_toHex, fun bytes hbytes => ?_⟩
    have hpairs := (fromHex_isSome_iff hex).mp (by rw [hbytes]; rfl)
    obtain ⟨heven, hdigits⟩ := hpairs.digits (hplus hpairs)
    exact ⟨heven, hdigits, toHex_fromHex hbytes hdigits⟩

/-- The text `+1` decodes to the byte one, and its plus sign is no digit. -/
theorem fromHex_accepts_sign :
    ¬ ((∀ bytes, fromHex (toHex bytes) = some bytes) ∧
      ∀ hex bytes, fromHex hex = some bytes →
        byteLen hex % 2 = 0 ∧ (∀ c ∈ hex, isHexDigit c = true) ∧
          hex.map Char.toLower = toHex bytes) := by
  rintro ⟨-, h⟩
  have hdecode : fromHex ['+', '1'] = some [1] := by decide +kernel
  exact absurd ((h _ _ hdecode).2.1 '+' (by simp)) (by decide)

end SovriAgent
