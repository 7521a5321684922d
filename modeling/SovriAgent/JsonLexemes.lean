import SovriAgent.DaemonJson
import SovriAgent.JsonText

/-!
# Numbers and Strings of daemon.json

What the reader of `daemon.json` takes for white space, numbers and strings, compared with the
grammar of JSON. Each is read whole, whatever follows it, and what is read follows the grammar.
The reader decodes an escape of four hexadecimal digits to the character of that code, so the
escapes of surrogates, which are half a character each, are errors.

## Main results

* `parseNumber_token`, `exists_number`: the numbers are those of the grammar.
* `parseString_body`, `exists_string`: the strings are those of the grammar whose escapes are
  characters, each by itself.
-/

namespace SovriAgent

open JsonParser JsonTree

/-! ### White space -/

/-- White space in front is skipped. -/
theorem skipWhitespace_append {space : Str} (h : JsonSpace space) (text : Str) :
    skipWhitespace (space ++ text) = skipWhitespace text := by
  rw [skipWhitespace, skipWhitespace, List.dropWhile_append_of_pos]
  intro c hc
  rcases h c hc with rfl | rfl | rfl | rfl <;> rfl

/-- A text that does not start with white space is left as it is. -/
theorem skipWhitespace_cons {c : Char} (h : ¬ (c = ' ' ∨ c = '\t' ∨ c = '\n' ∨ c = '\r'))
    (text : Str) : skipWhitespace (c :: text) = c :: text := by
  have hc : ¬ (c == ' ' || c == '\t' || c == '\n' || c == '\r') = true := by
    simpa [not_or, and_assoc] using h
  rw [skipWhitespace, List.dropWhile_cons, if_neg hc]

/-- What is skipped in front of anything else is the white space. -/
theorem skipWhitespace_eq {space : Str} (h : JsonSpace space) {c : Char}
    (hc : ¬ (c = ' ' ∨ c = '\t' ∨ c = '\n' ∨ c = '\r')) (text : Str) :
    skipWhitespace (space ++ c :: text) = c :: text := by
  rw [skipWhitespace_append h, skipWhitespace_cons hc]

/-- What is skipped is white space. -/
theorem exists_space (text : Str) : ∃ space, JsonSpace space ∧ text = space ++ skipWhitespace text := by
  refine ⟨_, ?_, (List.takeWhile_append_dropWhile
    (p := fun c => c == ' ' || c == '\t' || c == '\n' || c == '\r') (l := text)).symm⟩
  intro c hc
  have hspace := List.mem_takeWhile_imp hc
  simpa [or_assoc] using hspace

/-! ### Numbers -/

/-- A text that a run of digits cannot be continued by. -/
def EndsDigits (rest : Str) : Prop :=
  ∀ c, rest.head? = some c → c.isDigit = false

/-- Where a token ends, digits end. -/
theorem JsonTree.EndsToken.digits {rest : Str} (h : EndsToken rest) : EndsDigits rest := by
  intro c hc
  by_contra hdigit
  have htoken := h c hc
  rw [isTokenChar_of_isDigit (by simpa using hdigit)] at htoken
  cases htoken

/-- All digits of a text are read. -/
theorem parseDigits_append {digits rest : Str} (h : Digits digits) (hrest : EndsDigits rest) :
    parseDigits (digits ++ rest) = some rest := by
  obtain ⟨hne, hall⟩ := h
  obtain ⟨c, digits, rfl⟩ := List.exists_cons_of_ne_nil hne
  obtain ⟨hc, hall⟩ := List.forall_mem_cons.mp hall
  rw [List.cons_append, parseDigits, if_pos hc, List.dropWhile_append_of_pos hall]
  cases rest with
  | nil => rfl
  | cons d rest => rw [List.dropWhile_cons, if_neg (by simp [hrest d rfl])]

/-- What is read as digits is digits. -/
theorem exists_digits {text rest : Str} (h : parseDigits text = some rest) :
    ∃ digits, Digits digits ∧ text = digits ++ rest := by
  cases text with
  | nil => cases h
  | cons c text =>
      rw [parseDigits] at h
      split_ifs at h with hc
      obtain rfl := Option.some.inj h
      refine ⟨c :: text.takeWhile Char.isDigit, ⟨List.cons_ne_nil _ _, ?_⟩, ?_⟩
      · exact List.forall_mem_cons.mpr ⟨hc, fun d hd => List.mem_takeWhile_imp hd⟩
      · rw [List.cons_append, List.takeWhile_append_dropWhile]

/-- An integer is read up to its end. -/
theorem parseInteger_append {whole rest : Str} (h : Digits whole)
    (hzero : whole.head? = some '0' → whole = ['0']) (hrest : EndsDigits rest) :
    parseInteger (whole ++ rest) = some rest := by
  by_cases hhead : whole.head? = some '0'
  · rw [hzero hhead]
    cases rest with
    | nil => rfl
    | cons d rest => simp [parseInteger, hrest d rfl]
  · obtain ⟨c, digits, rfl⟩ := List.exists_cons_of_ne_nil h.1
    have hc : c ≠ '0' := fun hc => hhead (by rw [hc]; rfl)
    rw [List.cons_append, parseInteger, if_neg hc]
    exact parseDigits_append h hrest

/-- What is read as an integer is digits, without a leading zero. -/
theorem exists_integer {text rest : Str} (h : parseInteger text = some rest) :
    ∃ whole, Digits whole ∧ (whole.head? = some '0' → whole = ['0']) ∧ text = whole ++ rest := by
  cases text with
  | nil => cases h
  | cons c text =>
      rw [parseInteger] at h
      split_ifs at h with hc hdigit
      · obtain rfl := Option.some.inj h
        exact ⟨['0'], ⟨by simp, by simp⟩, fun _ => rfl, by rw [hc]; rfl⟩
      · obtain ⟨whole, hdigits, heq⟩ := exists_digits h
        refine ⟨whole, hdigits, fun hhead => ?_, heq⟩
        obtain ⟨d, digits, rfl⟩ := List.exists_cons_of_ne_nil hdigits.1
        exact absurd ((List.cons.inj heq).1.trans (Option.some.inj hhead)) hc

/-- A fraction is read up to its end, also if there is none. -/
theorem parseFraction_append {fraction rest : Str} (h : FractionPart fraction)
    (hrest : EndsDigits rest) (hdot : rest.head? ≠ some '.') :
    parseFraction (fraction ++ rest) = some rest := by
  rcases h with rfl | ⟨digits, hdigits, rfl⟩
  · cases rest with
    | nil => rfl
    | cons c rest => exact if_neg fun hc => hdot (by rw [hc]; rfl)
  · exact parseDigits_append hdigits hrest

/-- What is read as a fraction is one. -/
theorem exists_fraction {text rest : Str} (h : parseFraction text = some rest) :
    ∃ fraction, FractionPart fraction ∧ text = fraction ++ rest := by
  cases text with
  | nil =>
      obtain rfl := Option.some.inj h
      exact ⟨[], .inl rfl, rfl⟩
  | cons c text =>
      rw [parseFraction] at h
      split_ifs at h with hc
      · obtain ⟨digits, hdigits, rfl⟩ := exists_digits h
        exact ⟨'.' :: digits, .inr ⟨digits, hdigits, rfl⟩, by rw [hc]; rfl⟩
      · obtain rfl := Option.some.inj h
        exact ⟨[], .inl rfl, rfl⟩

/-- The sign of an exponent is dropped. -/
theorem dropSign_append {sign digits : Str} (hsign : sign = [] ∨ sign = ['+'] ∨ sign = ['-'])
    (h : Digits digits) (rest : Str) : dropSign (sign ++ (digits ++ rest)) = digits ++ rest := by
  rcases hsign with rfl | rfl | rfl
  · obtain ⟨c, digits, rfl⟩ := List.exists_cons_of_ne_nil h.1
    have hc := h.2 c List.mem_cons_self
    refine if_neg ?_
    rintro (rfl | rfl) <;> exact absurd hc (by decide)
  · rfl
  · rfl

/-- An exponent is read up to its end, also if there is none. -/
theorem parseExponent_append {exponent rest : Str} (h : ExponentPart exponent)
    (hrest : EndsToken rest) : parseExponent (exponent ++ rest) = some rest := by
  rcases h with rfl | ⟨e, sign, digits, he, hsign, hdigits, rfl⟩
  · cases rest with
    | nil => rfl
    | cons c rest =>
        have hc := endsToken_cons.mp hrest
        refine if_neg ?_
        rintro (rfl | rfl) <;> exact absurd hc (by decide)
  · rw [List.cons_append, parseExponent, if_pos he, List.append_assoc,
      dropSign_append hsign hdigits]
    exact parseDigits_append hdigits hrest.digits

/-- What is read as an exponent is one. -/
theorem exists_exponent {text rest : Str} (h : parseExponent text = some rest) :
    ∃ exponent, ExponentPart exponent ∧ text = exponent ++ rest := by
  cases text with
  | nil =>
      obtain rfl := Option.some.inj h
      exact ⟨[], .inl rfl, rfl⟩
  | cons e text =>
      rw [parseExponent] at h
      split_ifs at h with he
      · obtain ⟨digits, hdigits, heq⟩ := exists_digits h
        obtain ⟨sign, hsign, htext⟩ : ∃ sign : Str, (sign = [] ∨ sign = ['+'] ∨ sign = ['-']) ∧
            text = sign ++ dropSign text := by
          cases text with
          | nil => exact ⟨[], .inl rfl, rfl⟩
          | cons c text =>
              by_cases hc : c = '+' ∨ c = '-'
              · refine ⟨[c], ?_, by rw [dropSign, if_pos hc]; rfl⟩
                rcases hc with rfl | rfl
                · exact .inr (.inl rfl)
                · exact .inr (.inr rfl)
              · exact ⟨[], .inl rfl, by rw [dropSign, if_neg hc]; rfl⟩
        refine ⟨e :: (sign ++ digits), .inr ⟨e, sign, digits, he, hsign, hdigits, rfl⟩, ?_⟩
        rw [List.cons_append, List.append_assoc, ← heq, ← htext]
      · obtain rfl := Option.some.inj h
        exact ⟨[], .inl rfl, rfl⟩

/-- No digit, and no dot, follows the part of a number before its exponent. -/
theorem head_exponent {exponent rest : Str} (h : ExponentPart exponent) (hrest : EndsToken rest) :
    EndsDigits (exponent ++ rest) ∧ (exponent ++ rest).head? ≠ some '.' := by
  rcases h with rfl | ⟨e, sign, digits, he, -, -, rfl⟩
  · refine ⟨hrest.digits, fun hdot => ?_⟩
    exact absurd (hrest '.' hdot) (by decide)
  · rcases he with rfl | rfl
    · exact ⟨fun c hc => by cases hc; rfl, by simp⟩
    · exact ⟨fun c hc => by cases hc; rfl, by simp⟩

/-- A number is read whole. -/
theorem parseNumber_token {t : Str} (h : NumberToken t) {rest : Str} (hrest : EndsToken rest) :
    parseNumber (t ++ rest) = some rest := by
  obtain ⟨sign, whole, fraction, exponent, rfl, hsign, hwhole, hzero, hfraction, hexponent⟩ := h
  obtain ⟨hdigits, hdot⟩ := head_exponent hexponent hrest
  have hafter : EndsDigits (fraction ++ (exponent ++ rest)) := by
    rcases hfraction with rfl | ⟨digits, -, rfl⟩
    · exact hdigits
    · exact fun c hc => by cases hc; rfl
  have hstrip : ((stripPrefix ['-'] (sign ++ (whole ++ (fraction ++ (exponent ++ rest))))).getD
      (sign ++ (whole ++ (fraction ++ (exponent ++ rest))))) =
        whole ++ (fraction ++ (exponent ++ rest)) := by
    rcases hsign with rfl | rfl
    · obtain ⟨c, digits, rfl⟩ := List.exists_cons_of_ne_nil hwhole.1
      have hc : '-' ≠ c := by
        rintro rfl
        exact absurd (hwhole.2 '-' List.mem_cons_self) (by decide)
      simp [stripPrefix, hc]
    · rw [stripPrefix_append]
      rfl
  simp only [List.append_assoc]
  rw [parseNumber, hstrip, parseInteger_append hwhole hzero hafter, Option.bind_some,
    parseFraction_append hfraction hdigits hdot, Option.bind_some]
  exact parseExponent_append hexponent hrest

/-- What is read as a number is one. -/
theorem exists_number {text rest : Str} (h : parseNumber text = some rest) :
    ∃ t, NumberToken t ∧ text = t ++ rest := by
  obtain ⟨afterFraction, h, hexponent⟩ := Option.bind_eq_some_iff.mp h
  obtain ⟨afterInteger, hinteger, hfraction⟩ := Option.bind_eq_some_iff.mp h
  obtain ⟨exponent, hexp, rfl⟩ := exists_exponent hexponent
  obtain ⟨fraction, hfrac, rfl⟩ := exists_fraction hfraction
  obtain ⟨whole, hwhole, hzero, heq⟩ := exists_integer hinteger
  obtain ⟨sign, hsign, htext⟩ : ∃ sign : Str, (sign = [] ∨ sign = ['-']) ∧
      text = sign ++ (stripPrefix ['-'] text).getD text := by
    cases hstrip : stripPrefix ['-'] text with
    | none => exact ⟨[], .inl rfl, rfl⟩
    | some unsigned => exact ⟨['-'], .inr rfl, stripPrefix_eq_some_iff.mp hstrip⟩
  refine ⟨sign ++ (whole ++ (fraction ++ exponent)),
    ⟨sign, whole, fraction, exponent, rfl, hsign, hwhole, hzero, hfrac, hexp⟩, ?_⟩
  rw [htext, heq]
  simp only [List.append_assoc]

/-! ### Strings -/

/-- The scanner of the agent knows the short escapes of JSON. -/
theorem simpleEscape_eq (c : Char) : simpleEscape c = shortEscape c := by
  unfold shortEscape
  split_ifs with h1 h2 h3 h4 h5 h6 h7 h8
  · rw [h1]; rfl
  · rw [h2]; rfl
  · rw [h3]; rfl
  · rw [h4]; rfl
  · rw [h5]; rfl
  · rw [h6]; rfl
  · rw [h7]; rfl
  · rw [h8]; rfl
  · rw [simpleEscape.eq_9] <;> assumption

/-- A character that escapes another one is a short escape. -/
theorem mem_shortEscapes {c ch : Char} (h : shortEscape c = some ch) : c ∈ shortEscapes := by
  unfold shortEscape at h
  unfold shortEscapes
  split_ifs at h <;> simp_all

/-- The text of a string that begins with the code of a character. -/
theorem scalarText_cons {raw s : Str} {c : Char}
    (h : codes raw = (codes s).map (c.toNat :: ·)) :
    scalarText raw = (scalarText s).map (c :: ·) := by
  have hvalid : c.toNat.isValidChar := c.valid
  rw [scalarText, scalarText, h]
  cases codes s with
  | none => rfl
  | some written =>
      change scalars (c.toNat :: written) = _
      rw [scalars, if_pos hvalid, Char.ofNat_toNat]
      rfl

/-- The text of a string that begins with the code of no character. -/
theorem scalarText_eq_none {raw s : Str} {code : ℕ} (hvalid : ¬ code.isValidChar)
    (h : codes raw = (codes s).map (code :: ·)) : scalarText raw = none := by
  rw [scalarText, h]
  cases codes s with
  | none => rfl
  | some written => exact if_neg hvalid

/-- A plain character of a string stands for itself. -/
theorem parseString_plain {c : Char} (hquote : c ≠ '"') (hslash : c ≠ '\\')
    (hcontrol : 0x20 ≤ c.toNat) (text : Str) :
    parseString (c :: text) = (parseString text).map fun parsed => (c :: parsed.1, parsed.2) := by
  have hnot : ¬ (c = '\\' ∨ c ≤ '\x1f') := by
    rintro (h | h)
    · exact hslash h
    · have hle : c.toNat ≤ 0x1f := UInt32.le_iff_toNat_le.mp h
      omega
  rw [parseString.eq_5 _ _ (by simp_all) (by simp_all) (by simp_all), if_neg hnot]

/-- A short escape stands for its character. -/
theorem parseString_short {c : Char} (h : c ∈ shortEscapes) (text : Str) :
    parseString ('\\' :: c :: text) = (shortEscape c).bind fun character =>
      (parseString text).map fun parsed => (character :: parsed.1, parsed.2) := by
  have hu : c ≠ 'u' := by
    rintro rfl
    exact absurd h (by decide)
  rw [parseString.eq_4 _ _ (by simp_all), simpleEscape_eq]

/-- A string is read up to its closing quote, whatever follows it. -/
theorem parseString_body {raw : Str} (h : StringBody raw) (rest : Str) :
    parseString (raw ++ '"' :: rest) = (scalarText raw).map fun text => (text, rest) := by
  induction h with
  | nil => rfl
  | @plain c s hquote hslash hcontrol _ ih =>
      have htext : scalarText (c :: s) = (scalarText s).map (c :: ·) :=
        scalarText_cons (codes_plain hquote hslash hcontrol s)
      rw [List.cons_append, parseString_plain hquote hslash hcontrol, ih, htext, Option.map_map,
        Option.map_map]
      rfl
  | @short c s hc _ ih =>
      obtain ⟨ch, hch, hcodes⟩ := codes_short hc s
      have htext : scalarText ('\\' :: c :: s) = (scalarText s).map (ch :: ·) :=
        scalarText_cons hcodes
      rw [List.cons_append, List.cons_append, parseString_short hc, hch, Option.bind_some, ih,
        htext, Option.map_map, Option.map_map]
      rfl
  | @code digits s hlen hdigits _ ih =>
      obtain ⟨code, -, hcode, hcodes⟩ := codes_code hlen hdigits s
      have hread : parseString ('\\' :: 'u' :: (digits ++ (s ++ '"' :: rest))) =
          (hexEscape digits).bind fun character =>
            (parseString (s ++ '"' :: rest)).map fun parsed => (character :: parsed.1, parsed.2) := by
        match digits, hlen with
        | [a, b, c, d], _ => rfl
      rw [List.cons_append, List.cons_append, List.append_assoc, hread, ih, hexEscape, hcode,
        Option.bind_some]
      by_cases hvalid : code.isValidChar
      · have htoNat : (Char.ofNat code).toNat = code := by rw [Char.ofNat, dif_pos hvalid]; rfl
        have htext : scalarText ('\\' :: 'u' :: (digits ++ s)) =
            (scalarText s).map (Char.ofNat code :: ·) :=
          scalarText_cons (by rw [htoNat, hcodes])
        rw [if_pos hvalid, Option.bind_some, htext, Option.map_map, Option.map_map]
        rfl
      · rw [if_neg hvalid, scalarText_eq_none hvalid hcodes]
        rfl

/-- What has a hexadecimal value is hexadecimal digits. -/
theorem isHexDigit_of_digitsValue {acc n : ℕ} {digits : Str}
    (h : digitsValue 16 acc digits = some n) : ∀ c ∈ digits, isHexDigit c = true := by
  induction digits generalizing acc with
  | nil => exact fun _ hc => absurd hc List.not_mem_nil
  | cons c digits ih =>
      obtain ⟨d, hd, h⟩ := Option.bind_eq_some_iff.mp h
      exact List.forall_mem_cons.mpr ⟨by rw [isHexDigit, hd]; rfl, ih h⟩

/-- What is read as the rest of a string is one. -/
theorem exists_string {text : Str} {parsed : Str × Str} (h : parseString text = some parsed) :
    ∃ raw, StringBody raw ∧ text = raw ++ '"' :: parsed.2 := by
  fun_induction parseString text generalizing parsed with
  | case1 => cases h
  | case2 rest =>
      cases h
      exact ⟨[], .nil, rfl⟩
  | case3 a b c d rest ih =>
      obtain ⟨character, hcharacter, h⟩ := Option.bind_eq_some_iff.mp h
      obtain ⟨tail, htail, rfl⟩ := Option.map_eq_some_iff.mp h
      obtain ⟨raw, hraw, heq⟩ := ih htail
      obtain ⟨code, hcode, -⟩ := Option.bind_eq_some_iff.mp hcharacter
      refine ⟨'\\' :: 'u' :: ([a, b, c, d] ++ raw),
        .code rfl (isHexDigit_of_digitsValue hcode) hraw, ?_⟩
      rw [heq]
      rfl
  | case4 c rest _ ih =>
      obtain ⟨character, hcharacter, h⟩ := Option.bind_eq_some_iff.mp h
      obtain ⟨tail, htail, rfl⟩ := Option.map_eq_some_iff.mp h
      obtain ⟨raw, hraw, heq⟩ := ih htail
      rw [simpleEscape_eq] at hcharacter
      refine ⟨'\\' :: c :: raw, .short (mem_shortEscapes hcharacter) hraw, ?_⟩
      rw [heq]
      rfl
  | case5 => cases h
  | case6 c rest hquote _ _ hplain ih =>
      obtain ⟨tail, htail, rfl⟩ := Option.map_eq_some_iff.mp h
      obtain ⟨raw, hraw, heq⟩ := ih htail
      obtain ⟨hslash, hcontrol⟩ := not_or.mp hplain
      have hlow : 0x20 ≤ c.toNat := by
        by_contra hlt
        exact hcontrol (UInt32.le_iff_toNat_le.mpr (Nat.le_of_lt_succ (not_le.mp hlt)))
      refine ⟨c :: raw, .plain hquote hslash hlow hraw, ?_⟩
      rw [heq]
      rfl

end SovriAgent
