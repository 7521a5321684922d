import SovriAgent.CompactJson
import SovriAgent.Decimal
import SovriAgent.Scanner

/-!
# Scanning Written Text

What the compact scanners and the textual search see in text the canonical serializer
wrote. Both directions rest on the escaping: inside a written string every quote and
every backslash is preceded by a backslash, so a scan that starts at an opening quote
stops at the matching closing one, and the marker of a member (its quoted key and a
colon) starts only where a member with that key is written.

## Main results

* `scanValue_writeValue`: the value scanner stops exactly at the end of a written value.
* `memberValue_lines`: the member loop finds the direct member of an object.
* `free_writeValue`: a marker occurs in a written value only if its key is a key of
  some object in it, whatever the strings of the value contain.
-/

namespace SovriAgent

/-- Induction over the values: arrays by their items, objects by their members. -/
theorem Json.induction {P : Json → Prop} (str : ∀ text, P (.str text))
    (bool : ∀ flag, P (.bool flag)) (int : ∀ number, P (.int number))
    (array : ∀ items : List Json, (∀ item ∈ items, P item) → P (.array items))
    (object : ∀ members : List (Str × Json), (∀ m ∈ members, P m.2) → P (.object members))
    (value : Json) : P value :=
  @Json.rec P (fun items => ∀ item ∈ items, P item) (fun members => ∀ m ∈ members, P m.2)
    (fun m => P m.2) str bool int array object
    (by simp) (by simp_all)
    (by simp) (by simp_all)
    (fun _ _ h => h) value

/-- The text after a written value: nothing, or a comma or closing bracket. -/
def Delimited (rest : Str) : Prop :=
  ∀ c t, rest = c :: t → isDelimiter c = true

@[simp] theorem delimited_nil : Delimited [] := by
  intro c t h
  cases h

@[simp] theorem delimited_cons {c : Char} {t : Str} :
    Delimited (c :: t) ↔ isDelimiter c = true := by
  constructor
  · intro h
    exact h c t rfl
  · intro h d u heq
    obtain ⟨rfl, -⟩ := List.cons.inj heq
    exact h

/-! ### Escaped strings -/

/-- A character is written as itself, and is then no quote and no backslash, or as a
backslash, one character, and characters that are neither; nothing follows an escaped
quote. -/
theorem escapeChar_cases (ch : Char) :
    (escapeChar ch = [ch] ∧ ch ≠ '"' ∧ ch ≠ '\\') ∨
      ∃ e tail, escapeChar ch = '\\' :: e :: tail ∧ (e = '"' → tail = []) ∧
        ∀ c ∈ tail, c ≠ '"' ∧ c ≠ '\\' := by
  have hdigits : ∀ n < 16, hexDigit n ≠ '"' ∧ hexDigit n ≠ '\\' := by decide
  have hnibble : ∀ m, m &&& 0xf < 16 := fun m => Nat.and_lt_two_pow m (n := 4) (by decide)
  unfold escapeChar
  by_cases h1 : ch = '"'
  · exact .inr ⟨'"', [], by simp [h1], by simp, by simp⟩
  by_cases h2 : ch = '\\'
  · exact .inr ⟨'\\', [], by simp [h2], by simp, by simp⟩
  by_cases h3 : ch = '\n'
  · exact .inr ⟨'n', [], by simp [h3], by simp, by simp⟩
  by_cases h4 : ch = '\r'
  · exact .inr ⟨'r', [], by simp [h4], by simp, by simp⟩
  by_cases h5 : ch = '\t'
  · exact .inr ⟨'t', [], by simp [h5], by simp, by simp⟩
  by_cases h6 : ch.toNat < 0x20
  · refine .inr ⟨'u', ['0', '0', hexDigit ((ch.toNat >>> 4) &&& 0xf),
      hexDigit (ch.toNat &&& 0xf)], by simp [h1, h2, h3, h4, h5, h6], by simp, ?_⟩
    intro c hc
    simp only [List.mem_cons, List.not_mem_nil, or_false] at hc
    rcases hc with rfl | rfl | rfl | rfl
    · decide
    · decide
    · exact hdigits _ (hnibble _)
    · exact hdigits _ (hnibble _)
  · exact .inl ⟨by simp [h1, h2, h3, h4, h5, h6], h1, h2⟩

@[simp] theorem escape_nil : escape [] = [] := rfl

@[simp] theorem escape_cons (ch : Char) (text : Str) :
    escape (ch :: text) = escapeChar ch ++ escape text := rfl

/-- The string scanner passes over characters that are neither quote nor backslash. -/
theorem scanRaw_ordinary (tail rest : Str) (h : ∀ c ∈ tail, c ≠ '"' ∧ c ≠ '\\') :
    scanRaw false (tail ++ rest) = (scanRaw false rest).map fun p => (tail ++ p.1, p.2) := by
  induction tail with
  | nil => simp
  | cons c tail ih =>
      obtain ⟨hq, hb⟩ := h c (by simp)
      rw [List.cons_append, scanRaw, if_neg hb, if_neg hq, ih fun d hd => h d (by simp [hd]),
        Option.map_map]
      rfl

/-- The string scanner reads a written string up to its closing quote. -/
theorem scanRaw_escape (text rest : Str) :
    scanRaw false (escape text ++ '"' :: rest) = some (escape text, rest) := by
  induction text with
  | nil => rw [escape_nil, List.nil_append, scanRaw, if_neg (by decide), if_pos rfl]
  | cons ch text ih =>
      rw [escape_cons, List.append_assoc]
      rcases escapeChar_cases ch with ⟨hself, hq, hb⟩ | ⟨e, tail, hesc, -, htail⟩
      · rw [hself, scanRaw_ordinary [ch] _ (by simp [hq, hb]), ih]
        rfl
      · rw [hesc, List.cons_append, List.cons_append, scanRaw, if_pos rfl, scanRaw,
          scanRaw_ordinary tail _ htail, ih]
        rfl

/-- The container scanner, inside a string, passes over what the string scanner reads. -/
theorem scanNested_of_scanRaw {depth : ℕ} {escaped : Bool} {s raw rest : Str}
    (h : scanRaw escaped s = some (raw, rest)) :
    scanNested depth true escaped s =
      (scanNested depth false false rest).map fun p => (raw ++ '"' :: p.1, p.2) := by
  induction s generalizing escaped raw with
  | nil => simp [scanRaw] at h
  | cons ch s ih =>
      have hstep : ∀ e, (scanRaw e s).map (fun p => (ch :: p.1, p.2)) = some (raw, rest) →
          (scanNested depth true e s).map (fun p => (ch :: p.1, p.2)) =
            (scanNested depth false false rest).map fun p => (raw ++ '"' :: p.1, p.2) := by
        intro e he
        rw [Option.map_eq_some_iff] at he
        obtain ⟨⟨raw', rest'⟩, hp, heq⟩ := he
        obtain ⟨rfl, rfl⟩ := Prod.mk.inj heq
        rw [ih hp, Option.map_map]
        rfl
      cases escaped with
      | true =>
          rw [scanRaw] at h
          simp only [scanNested, if_true]
          exact hstep false h
      | false =>
          rw [scanRaw] at h
          simp only [scanNested, Bool.false_eq_true, if_false]
          split at h
          · next hb =>
              rw [if_pos hb]
              exact hstep true h
          · next hb =>
              rw [if_neg hb]
              split at h
              · next hq =>
                  obtain ⟨rfl, rfl⟩ := Prod.mk.inj (Option.some.inj h)
                  rw [if_pos hq, hq]
                  rfl
              · next hq =>
                  rw [if_neg hq]
                  exact hstep false h

/-! ### Written values -/

/-- The container scanner passes over a text at any open depth. -/
def Skips (text : Str) : Prop :=
  ∀ depth rest, scanNested (depth + 1) false false (text ++ rest) =
    (scanNested (depth + 1) false false rest).map fun p => (text ++ p.1, p.2)

/-- A character with no meaning to the container scanner. -/
def isInert (c : Char) : Bool :=
  !(c == '"' || c == '{' || c == '[' || c == '}' || c == ']')

/-- An inert character outside a string is passed over. -/
theorem scanNested_inert {c : Char} (h : isInert c = true) (depth : ℕ) (rest : Str) :
    scanNested depth false false (c :: rest) =
      (scanNested depth false false rest).map fun p => (c :: p.1, p.2) := by
  simp only [isInert, Bool.not_eq_true', Bool.or_eq_false_iff, beq_eq_false_iff_ne, ne_eq] at h
  obtain ⟨⟨⟨⟨hq, ho⟩, hb⟩, hco⟩, hcb⟩ := h
  simp [scanNested, hq, ho, hb, hco, hcb]

/-- A quote opens a string. -/
theorem scanNested_quote (depth : ℕ) (rest : Str) :
    scanNested depth false false ('"' :: rest) =
      (scanNested depth true false rest).map fun p => ('"' :: p.1, p.2) := by
  simp [scanNested]

/-- A bracket opens a level. -/
theorem scanNested_open {o : Char} (h : o = '{' ∨ o = '[') (depth : ℕ) (rest : Str) :
    scanNested depth false false (o :: rest) =
      (scanNested (depth + 1) false false rest).map fun p => (o :: p.1, p.2) := by
  rcases h with rfl | rfl <;> simp [scanNested]

/-- The bracket of the outermost level ends the scan. -/
theorem scanNested_close_one {c : Char} (h : c = '}' ∨ c = ']') (rest : Str) :
    scanNested 1 false false (c :: rest) = some ([c], rest) := by
  rcases h with rfl | rfl <;> simp [scanNested]

/-- A bracket closes a level. -/
theorem scanNested_close {c : Char} (h : c = '}' ∨ c = ']') (depth : ℕ) (rest : Str) :
    scanNested (depth + 2) false false (c :: rest) =
      (scanNested (depth + 1) false false rest).map fun p => (c :: p.1, p.2) := by
  rcases h with rfl | rfl <;> simp [scanNested]

theorem skips_nil : Skips [] := by
  intro depth rest
  simp

/-- Texts that are passed over one after the other. -/
theorem skips_append {s t : Str} (hs : Skips s) (ht : Skips t) : Skips (s ++ t) := by
  intro depth rest
  rw [List.append_assoc, hs, ht, Option.map_map]
  simp only [Function.comp_def, List.append_assoc]

/-- Inert characters are passed over. -/
theorem skips_inert {text : Str} (h : text.all isInert = true) : Skips text := by
  induction text with
  | nil => exact skips_nil
  | cons c text ih =>
      intro depth rest
      rw [List.all_cons, Bool.and_eq_true] at h
      rw [List.cons_append, scanNested_inert h.1, ih h.2 depth rest, Option.map_map]
      rfl

/-- A written string is passed over. -/
theorem skips_writeString (text : Str) : Skips (writeString text) := by
  intro depth rest
  have hshape : writeString text ++ rest = '"' :: (escape text ++ '"' :: rest) := by
    simp [writeString]
  rw [hshape, scanNested_quote, scanNested_of_scanRaw (scanRaw_escape text rest),
    Option.map_map]
  simp only [Function.comp_def, writeString, List.cons_append, List.append_assoc, List.nil_append]

/-- Texts between commas are passed over. -/
theorem skips_joinComma {texts : List Str} (h : ∀ t ∈ texts, Skips t) :
    Skips (joinComma texts) := by
  induction texts using joinComma.induct with
  | case1 => exact skips_nil
  | case2 t => exact h t (by simp)
  | case3 t u ts ih =>
      have hcomma : Skips [','] := skips_inert rfl
      have hrest := ih fun v hv => h v (List.mem_cons_of_mem _ hv)
      exact skips_append (h t (by simp)) (skips_append hcomma hrest)

/-- A balanced text between brackets is skipped, one level deeper inside. -/
theorem skips_bracket {o c : Char} {body : Str} (ho : o = '{' ∨ o = '[')
    (hc : c = '}' ∨ c = ']') (hbody : Skips body) : Skips (o :: (body ++ [c])) := by
  intro depth rest
  rw [List.cons_append, List.append_assoc, scanNested_open ho, hbody, List.singleton_append,
    scanNested_close hc]
  simp only [Option.map_map, Function.comp_def, List.append_assoc, List.cons_append,
    List.nil_append]

/-- The characters of a written number or boolean: no delimiter, no bracket, no quote. -/
def isPlainToken (c : Char) : Bool :=
  isInert c && !isDelimiter c

/-- A digit is part of a plain token. -/
theorem isPlainToken_of_isDigit {c : Char} (h : c.isDigit = true) : isPlainToken c = true := by
  have hne : ∀ d : Char, d.isDigit = false → c ≠ d := by
    rintro d hd rfl
    simp [hd] at h
  simp [isPlainToken, isInert, isDelimiter, hne '"' rfl, hne '{' rfl, hne '[' rfl, hne '}' rfl,
    hne ']' rfl, hne ',' rfl]

/-- A written integer is a plain token. -/
theorem integerText_chars (number : ℤ) : (integerText number).all isPlainToken = true := by
  rw [List.all_eq_true]
  cases number with
  | ofNat n =>
      intro c hc
      exact isPlainToken_of_isDigit (isDigit_of_mem_decimal hc)
  | negSucc n =>
      intro c hc
      rcases List.mem_cons.mp hc with rfl | hc
      · rfl
      · exact isPlainToken_of_isDigit (isDigit_of_mem_decimal hc)

/-- A written integer is not empty. -/
theorem integerText_ne_nil (number : ℤ) : integerText number ≠ [] := by
  cases number with
  | ofNat n => exact decimal_ne_nil n
  | negSucc n => simp [integerText]

/-- A plain token is inert. -/
theorem isInert_of_isPlainToken {c : Char} (h : isPlainToken c = true) : isInert c = true := by
  simp only [isPlainToken, Bool.and_eq_true] at h
  exact h.1

/-- Written items are balanced if their values are. -/
theorem skips_items {items : List Json} (h : ∀ item ∈ items, Skips (writeValue item)) :
    Skips (joinComma (items.map writeValue)) := by
  refine skips_joinComma ?_
  simpa using h

/-- Written members are balanced if their values are. -/
theorem skips_members {members : List (Str × Json)} (h : ∀ m ∈ members, Skips (writeValue m.2)) :
    Skips (joinComma ((sortByKey members).map fun m => memberText (m.1, writeValue m.2))) := by
  refine skips_joinComma fun t ht => ?_
  obtain ⟨m, hm, rfl⟩ := List.mem_map.mp ht
  have hcolon : Skips [':'] := skips_inert rfl
  have hvalue := h m ((sortByKey_perm members).mem_iff.mp hm)
  exact skips_append (skips_writeString m.1) (skips_append hcolon hvalue)

/-- Every written value is balanced. -/
theorem skips_writeValue (value : Json) : Skips (writeValue value) := by
  induction value using Json.induction with
  | str text =>
      rw [writeValue]
      exact skips_writeString text
  | bool flag => cases flag <;> exact skips_inert rfl
  | int number =>
      rw [writeValue]
      refine skips_inert (List.all_eq_true.mpr fun c hc => ?_)
      exact isInert_of_isPlainToken (List.all_eq_true.mp (integerText_chars number) c hc)
  | array items ih =>
      rw [writeValue_array]
      exact skips_bracket (.inr rfl) (.inr rfl) (skips_items ih)
  | object members ih =>
      rw [writeValue_object]
      exact skips_bracket (.inl rfl) (.inl rfl) (skips_members ih)

/-- A text the value scanner reads whole, whatever delimiter follows it. -/
def Scans (text : Str) : Prop :=
  ∀ rest, Delimited rest → scanValue (text ++ rest) = some (text, rest)

/-- A written string is scanned to its end. -/
theorem scans_writeString (text : Str) : Scans (writeString text) := by
  intro rest _
  have hshape : writeString text ++ rest = '"' :: (escape text ++ '"' :: rest) := by
    simp [writeString]
  rw [hshape, scanValue, if_neg (by decide), if_pos rfl, scanRaw_escape]
  rfl

/-- A bracketed text is scanned to its end. -/
theorem scans_bracket {o c : Char} {body : Str} (ho : o = '{' ∨ o = '[')
    (hc : c = '}' ∨ c = ']') (hbody : Skips body) : Scans (o :: (body ++ [c])) := by
  intro rest _
  rw [List.cons_append, List.append_assoc, scanValue, if_pos ho, scanNested_open ho, hbody,
    List.singleton_append, scanNested_close_one hc]
  rfl

/-- A plain token is scanned to its end. -/
theorem scans_token {text : Str} (hne : text ≠ [])
    (h : text.all isPlainToken = true) : Scans text := by
  intro rest hrest
  rw [List.all_eq_true] at h
  have hdelim : ∀ c ∈ text, isDelimiter c = false := by
    intro c hc
    have hplain := h c hc
    simp only [isPlainToken, Bool.and_eq_true, Bool.not_eq_true'] at hplain
    exact hplain.2
  have htake : (text ++ rest).takeWhile (!isDelimiter ·) = text := by
    rw [List.takeWhile_append_of_pos (by simpa using hdelim)]
    cases rest with
    | nil => simp
    | cons c t => simp [delimited_cons.mp hrest]
  have hdrop : (text ++ rest).dropWhile (!isDelimiter ·) = rest := by
    rw [List.dropWhile_append_of_pos (by simpa using hdelim)]
    cases rest with
    | nil => simp
    | cons c t => simp [delimited_cons.mp hrest]
  obtain ⟨c, t, rfl⟩ := List.exists_cons_of_ne_nil hne
  have hc := h c (by simp)
  have hinert := isInert_of_isPlainToken hc
  simp only [isInert, Bool.not_eq_true', Bool.or_eq_false_iff, beq_eq_false_iff_ne, ne_eq] at hinert
  obtain ⟨⟨⟨⟨hq, ho⟩, hb⟩, -⟩, -⟩ := hinert
  rw [List.cons_append] at htake hdrop ⊢
  rw [scanValue, if_neg (by simp [ho, hb]), if_neg hq, htake, hdrop, if_neg hne]

/-- **The value scanner stops exactly at the end of a written value.** -/
theorem scanValue_writeValue (value : Json) : Scans (writeValue value) := by
  cases value with
  | str text =>
      rw [writeValue]
      exact scans_writeString text
  | bool flag => cases flag <;> exact scans_token (by decide) rfl
  | int number =>
      rw [writeValue]
      exact scans_token (integerText_ne_nil number) (integerText_chars number)
  | array items =>
      rw [writeValue_array]
      exact scans_bracket (.inr rfl) (.inr rfl) (skips_items fun item _ => skips_writeValue item)
  | object members =>
      rw [writeValue_object]
      exact scans_bracket (.inl rfl) (.inl rfl) (skips_members fun m _ => skips_writeValue m.2)

/-! ### Direct members of a written object -/

/-- A key the canonical writer leaves as it is: lower-case letters and underscores. -/
def PlainKey (key : Str) : Prop :=
  key ≠ [] ∧ (key.all fun c => c.isLower || c == '_') = true

instance (key : Str) : Decidable (PlainKey key) :=
  inferInstanceAs (Decidable (_ ∧ _))

/-- A plain key has lower-case letters and underscores. -/
theorem PlainKey.char {key : Str} (h : PlainKey key) {c : Char} (hc : c ∈ key) :
    c.isLower = true ∨ c = '_' := by
  simpa using List.all_eq_true.mp h.2 c hc

/-- What a plain character is not. -/
theorem PlainKey.ne {key : Str} (h : PlainKey key) {c : Char} (hc : c ∈ key) {d : Char}
    (hd : d.isLower = false) (hd' : d ≠ '_') : c ≠ d := by
  rintro rfl
  rcases h.char hc with hlower | rfl
  · simp [hd] at hlower
  · exact hd' rfl

/-- The characters of a plain key are not escaped. -/
theorem escapeChar_plain {key : Str} (h : PlainKey key) {c : Char} (hc : c ∈ key) :
    escapeChar c = [c] := by
  have hcontrol : ¬ c.toNat < 0x20 := by
    rcases h.char hc with hlower | rfl
    · simp only [Char.isLower, Bool.and_eq_true, decide_eq_true_eq, ge_iff_le,
        UInt32.le_iff_toNat_le, Char.toNat_val] at hlower
      have : (97 : ℕ) ≤ c.toNat := hlower.1
      omega
    · decide
  simp [escapeChar, h.ne hc (d := '"') rfl (by decide), h.ne hc (d := '\\') rfl (by decide),
    h.ne hc (d := '\n') rfl (by decide), h.ne hc (d := '\r') rfl (by decide),
    h.ne hc (d := '\t') rfl (by decide), hcontrol]

/-- A plain key is written as it is. -/
theorem escape_plain {key : Str} (h : PlainKey key) : escape key = key := by
  have hall : ∀ t : Str, (∀ c ∈ t, c ∈ key) → escape t = t := by
    intro t
    induction t with
    | nil => intro _; rfl
    | cons c t ih =>
        intro ht
        rw [escape_cons, escapeChar_plain h (ht c (by simp)), ih fun d hd => ht d (by simp [hd])]
        rfl
  exact hall key fun _ hc => hc

/-- A key that the string scanner reads whole. -/
def Closes (raw : Str) : Prop :=
  ∀ rest, scanRaw false (raw ++ '"' :: rest) = some (raw, rest)

/-- One turn of the member loop at a member. -/
theorem memberValueFuel_memberLine (memberKey : Str) (fuel : ℕ) (m : Str × Str) (rest : Str)
    (hkey : Closes m.1) (hscan : Scans m.2) (hrest : Delimited rest) :
    memberValueFuel memberKey (fuel + 1) (JsonTree.memberLine m ++ rest) =
      if m.1 = memberKey then some m.2 else memberValueFuel memberKey fuel rest := by
  have hshape : JsonTree.memberLine m ++ rest = '"' :: (m.1 ++ '"' :: ':' :: (m.2 ++ rest)) := by
    simp [JsonTree.memberLine, JsonTree.quoted]
  rw [hshape, memberValueFuel, if_neg (by decide), if_neg (by simp), hkey, Option.bind_some]
  simp only [ne_eq, not_true_eq_false, if_false, hscan rest hrest, Option.bind_some]

/-- **The member loop finds the direct member of an object**, whatever its keys are. -/
theorem memberValue_lines (memberKey : Str) (members : List (Str × Str))
    (hkeys : ∀ m ∈ members, Closes m.1) (hscan : ∀ m ∈ members, Scans m.2) :
    memberValue memberKey ('{' :: (joinComma (members.map JsonTree.memberLine) ++ ['}'])) =
      (members.find? (·.1 = memberKey)).map Prod.snd := by
  have hloop : ∀ (members : List (Str × Str)) (fuel : ℕ),
      (∀ m ∈ members, Closes m.1) → (∀ m ∈ members, Scans m.2) →
      (joinComma (members.map JsonTree.memberLine)).length + 1 ≤ fuel →
      memberValueFuel memberKey fuel (joinComma (members.map JsonTree.memberLine) ++ ['}']) =
        (members.find? (·.1 = memberKey)).map Prod.snd := by
    intro members
    induction members with
    | nil =>
        intro fuel _ _ hfuel
        obtain ⟨fuel, rfl⟩ : ∃ n, fuel = n + 1 := ⟨fuel - 1, by simp at hfuel; omega⟩
        simp [joinComma, memberValueFuel]
    | cons m members ih =>
        intro fuel hkeys hscan hfuel
        have hm := hkeys m (by simp)
        have hs := hscan m (by simp)
        have hlen : 2 ≤ (JsonTree.memberLine m).length := by
          simp only [JsonTree.memberLine, JsonTree.quoted, List.length_append, List.length_cons]
          omega
        rw [List.find?_cons]
        cases members with
        | nil =>
            simp only [List.map_cons, List.map_nil, joinComma] at hfuel ⊢
            obtain ⟨fuel, rfl⟩ : ∃ n, fuel = n + 2 := ⟨fuel - 2, by omega⟩
            rw [memberValueFuel_memberLine memberKey _ m _ hm hs (by simp; rfl)]
            by_cases hkey : m.1 = memberKey
            · simp [hkey]
            · simp [hkey, memberValueFuel]
        | cons m' members =>
            simp only [List.map_cons, joinComma, List.append_assoc, List.cons_append,
              List.length_append, List.length_cons] at hfuel ih ⊢
            obtain ⟨fuel, rfl⟩ : ∃ n, fuel = n + 2 := ⟨fuel - 2, by omega⟩
            rw [memberValueFuel_memberLine memberKey _ m _ hm hs (by simp; rfl)]
            by_cases hkey : m.1 = memberKey
            · simp [hkey]
            · rw [if_neg hkey, memberValueFuel, if_pos rfl,
                ih fuel (fun m hm => hkeys m (by simp [hm]))
                  (fun m hm => hscan m (by simp [hm])) (by omega)]
              simp [hkey]
  have hsize := length_le_byteLen
    ('{' :: (joinComma (members.map JsonTree.memberLine) ++ ['}']))
  simp only [List.length_cons, List.length_append] at hsize
  rw [memberValue, if_neg (by simp)]
  exact hloop members _ hkeys hscan (by omega)

/-- The member loop finds the direct member of a written object. -/
theorem memberValue_members (memberKey : Str) (members : List (Str × Str))
    (hplain : ∀ m ∈ members, PlainKey m.1) (hscan : ∀ m ∈ members, Scans m.2) :
    memberValue memberKey ('{' :: (joinComma (members.map memberText) ++ ['}'])) =
      (members.find? (·.1 = memberKey)).map Prod.snd := by
  have hkeys : ∀ m ∈ members, Closes m.1 := by
    intro m hm rest
    rw [← escape_plain (hplain m hm)]
    exact scanRaw_escape m.1 rest
  have hlines : ∀ m ∈ members, memberText m = JsonTree.memberLine m := by
    intro m hm
    rw [memberText, writeString, escape_plain (hplain m hm)]
    rfl
  rw [List.map_congr_left hlines]
  exact memberValue_lines memberKey members hkeys hscan

/-! ### Markers -/

/-- The marker of a member: its quoted key and a colon. -/
def keyMarker (key : Str) : Str :=
  '"' :: (key ++ ['"', ':'])

/-- No occurrence of the needle starts inside `text` when `rest` follows it. -/
def Free (needle : Str) : Str → Str → Prop
  | [], _ => True
  | c :: text, rest => ¬ needle <+: c :: (text ++ rest) ∧ Free needle text rest

/-- A text is free of a needle if its parts are. -/
theorem free_append {needle s t rest : Str} :
    Free needle (s ++ t) rest ↔ Free needle s (t ++ rest) ∧ Free needle t rest := by
  induction s with
  | nil => simp [Free]
  | cons c s ih => simp only [List.cons_append, Free, ih, List.append_assoc, and_assoc]

/-- A needle with an absent prefix is absent. -/
theorem Free.mono {marker needle : Str} (hmarker : marker <+: needle) {text rest : Str}
    (h : Free marker text rest) : Free needle text rest := by
  induction text with
  | nil => trivial
  | cons c text ih => exact ⟨fun hpre => h.1 (hmarker.trans hpre), ih h.2⟩

/-- **The textual search passes over a text in which the needle does not start.** -/
theorem splitFirst_of_free {needle text rest : Str} (h : Free needle text rest) :
    splitFirst needle (text ++ rest) =
      (splitFirst needle rest).map fun p => (text ++ p.1, p.2) := by
  induction text with
  | nil => simp
  | cons c text ih =>
      rw [List.cons_append, splitFirst_cons_of_not_prefix h.1, ih h.2, Option.map_map]
      rfl

/-- A needle that starts nowhere in a text does not occur in it. -/
theorem no_occurrence_of_free {needle text : Str} (hne : needle ≠ []) (h : Free needle text []) :
    ¬ needle <:+: text := by
  have hskip := splitFirst_of_free h
  have hnil : splitFirst needle [] = none := if_neg hne
  rw [List.append_nil, hnil, Option.map_none] at hskip
  exact splitFirst_eq_none_iff.mp hskip

/-- A text without quotes is free of markers. -/
theorem free_of_no_quote {key text rest : Str} (h : ∀ c ∈ text, c ≠ '"') :
    Free (keyMarker key) text rest := by
  induction text with
  | nil => trivial
  | cons c text ih =>
      refine ⟨?_, ih fun d hd => h d (by simp [hd])⟩
      rintro ⟨t, ht⟩
      exact h c (by simp) (List.cons.inj ht).1.symm

/-- A plain key followed by a quote, read inside a written string, is the whole of it. -/
theorem eq_of_plain_quote {key text x y : Str} (hkey : PlainKey key)
    (h : key ++ '"' :: x = escape text ++ '"' :: y) : text = key ∧ x = y := by
  have hall : ∀ k : Str, (∀ c ∈ k, c ∈ key) → ∀ text,
      k ++ '"' :: x = escape text ++ '"' :: y → text = k ∧ x = y := by
    intro k
    induction k with
    | nil =>
        intro _ text h
        cases text with
        | nil =>
            simp only [escape_nil, List.nil_append, List.cons.injEq, true_and] at h
            exact ⟨rfl, h⟩
        | cons ch text =>
            rw [escape_cons] at h
            rcases escapeChar_cases ch with ⟨hself, hq, -⟩ | ⟨e, tail, hesc, -, -⟩
            · rw [hself] at h
              exact absurd (List.cons.inj h).1.symm hq
            · rw [hesc] at h
              exact absurd (List.cons.inj h).1 (by decide)
    | cons c k ih =>
        intro hk text h
        have hc := hk c (by simp)
        cases text with
        | nil =>
            exact absurd (List.cons.inj h).1 (hkey.ne hc rfl (by decide))
        | cons ch text =>
            rw [escape_cons] at h
            rcases escapeChar_cases ch with ⟨hself, -, -⟩ | ⟨e, tail, hesc, -, -⟩
            · rw [hself] at h
              obtain ⟨rfl, htail⟩ := List.cons.inj h
              obtain ⟨rfl, hxy⟩ := ih (fun d hd => hk d (by simp [hd])) text htail
              exact ⟨rfl, hxy⟩
            · rw [hesc] at h
              exact absurd (List.cons.inj h).1 (hkey.ne hc rfl (by decide))
  exact hall key (fun _ hc => hc) text h

/-- No marker starts at the closing quote of a written string. -/
theorem not_marker_closing {key rest : Str} (hkey : PlainKey key)
    (hclose : ∀ c t, rest = c :: t → c ∉ key) : ¬ keyMarker key <+: '"' :: rest := by
  rintro ⟨t, ht⟩
  obtain ⟨c, k, rfl⟩ := List.exists_cons_of_ne_nil hkey.1
  exact hclose c _ (List.cons.inj ht).2.symm (by simp)

/-- No marker starts at an opening quote, unless the string is its key and a colon
follows. -/
theorem not_marker_opening {key text rest : Str} (hkey : PlainKey key)
    (h : text = key → ¬ [':'] <+: rest) :
    ¬ keyMarker key <+: '"' :: (escape text ++ '"' :: rest) := by
  rintro ⟨t, ht⟩
  have htail : key ++ '"' :: ':' :: t = escape text ++ '"' :: rest := by
    simpa [keyMarker] using ht
  obtain ⟨rfl, rfl⟩ := eq_of_plain_quote hkey htail
  exact h rfl ⟨t, rfl⟩

/-- No marker starts inside a written string that no colon follows, nor at its quotes. -/
theorem free_writeString {key text rest : Str} (hkey : PlainKey key)
    (hcolon : ¬ [':'] <+: rest) (hclose : ∀ c t, rest = c :: t → c ∉ key) :
    Free (keyMarker key) (writeString text) rest := by
  have hbody : ∀ text, Free (keyMarker key) (escape text ++ ['"']) rest := by
    intro text
    induction text with
    | nil => exact ⟨not_marker_closing hkey hclose, trivial⟩
    | cons ch text ih =>
        rw [escape_cons, List.append_assoc, free_append]
        refine ⟨?_, ih⟩
        rcases escapeChar_cases ch with ⟨hself, hq, -⟩ | ⟨e, tail, hesc, hquote, htail⟩
        · rw [hself]
          exact free_of_no_quote (by simp [hq])
        · rw [hesc, List.append_assoc]
          refine ⟨?_, ?_, free_of_no_quote fun c hc => (htail c hc).1⟩
          · rintro ⟨t, ht⟩
            exact absurd (List.cons.inj ht).1 (by decide)
          · by_cases he : e = '"'
            · rw [he, hquote he]
              exact not_marker_opening hkey fun _ => hcolon
            · rintro ⟨t, ht⟩
              exact he (List.cons.inj ht).1.symm
  refine ⟨?_, hbody text⟩
  rw [List.append_assoc]
  exact not_marker_opening hkey fun _ => hcolon

/-- The marker of one key does not start at another. -/
theorem free_key {key other rest : Str} (hkey : PlainKey key) (hother : PlainKey other)
    (hne : other ≠ key) : Free (keyMarker key) (writeString other) (':' :: rest) := by
  have hnot : ∀ c t, ':' :: rest = c :: t → c ∉ key := by
    intro c t heq hc
    obtain ⟨rfl, -⟩ := List.cons.inj heq
    exact hkey.ne hc (d := ':') rfl (by decide) rfl
  refine ⟨?_, ?_⟩
  · rw [List.append_assoc]
    exact not_marker_opening hkey fun heq => absurd heq hne
  · rw [escape_plain hother, free_append]
    exact ⟨free_of_no_quote fun c hc => hother.ne hc rfl (by decide),
      not_marker_closing hkey hnot, trivial⟩

/-- Every key of every object inside the value is one of `keys`. -/
inductive KeysIn (keys : List Str) : Json → Prop
  | str (text : Str) : KeysIn keys (.str text)
  | bool (flag : Bool) : KeysIn keys (.bool flag)
  | int (number : ℤ) : KeysIn keys (.int number)
  | array (items : List Json) : (∀ item ∈ items, KeysIn keys item) → KeysIn keys (.array items)
  | object (members : List (Str × Json)) : (∀ m ∈ members, m.1 ∈ keys) →
      (∀ m ∈ members, KeysIn keys m.2) → KeysIn keys (.object members)

/-- No colon follows a value. -/
theorem Delimited.not_colon {rest : Str} (h : Delimited rest) : ¬ [':'] <+: rest := by
  rintro ⟨t, rfl⟩
  exact absurd (delimited_cons.mp h) (by decide)

/-- No character of a key follows a value. -/
theorem Delimited.not_mem {rest key : Str} (h : Delimited rest) (hkey : PlainKey key) :
    ∀ c t, rest = c :: t → c ∉ key := by
  rintro c t rfl hc
  have hdelim := delimited_cons.mp h
  simp only [isDelimiter, Bool.or_eq_true, beq_iff_eq] at hdelim
  rcases hdelim with (rfl | rfl) | rfl
  · exact hkey.ne hc rfl (by decide) rfl
  · exact hkey.ne hc rfl (by decide) rfl
  · exact hkey.ne hc rfl (by decide) rfl

/-- Values between commas are free of a marker if each is. -/
theorem free_joinComma {key : Str} {texts : List Str}
    (h : ∀ t ∈ texts, ∀ rest, Delimited rest → Free (keyMarker key) t rest) {rest : Str}
    (hrest : Delimited rest) : Free (keyMarker key) (joinComma texts) rest := by
  induction texts using joinComma.induct with
  | case1 => trivial
  | case2 t => exact h t (by simp) rest hrest
  | case3 t u ts ih =>
      rw [joinComma, free_append]
      refine ⟨h t (by simp) _ (by simp; rfl), ?_, ih fun v hv => h v (List.mem_cons_of_mem _ hv)⟩
      rintro ⟨x, hx⟩
      exact absurd (List.cons.inj hx).1 (by decide)

/-- A text between brackets is free when its inside is. -/
theorem free_bracket {key body : Str} {o c : Char} (ho : o ≠ '"') (hc : isDelimiter c = true)
    {rest : Str} (h : ∀ rest, Delimited rest → Free (keyMarker key) body rest) :
    Free (keyMarker key) (o :: (body ++ [c])) rest := by
  refine ⟨?_, free_append.mpr ⟨h _ (delimited_cons.mpr hc), free_of_no_quote ?_⟩⟩
  · rintro ⟨x, hx⟩
    exact ho (List.cons.inj hx).1.symm
  · rintro d hd rfl
    obtain rfl : '"' = c := by simpa using hd
    exact absurd hc (by decide)

/-- **Escaping keeps markers out**: the marker of a key starts inside a written value
only if the key is a key of some object in it, whatever its strings contain. -/
theorem free_writeValue {keys : List Str} {key : Str} (hkey : PlainKey key)
    (hkeys : ∀ k ∈ keys, PlainKey k) (hnot : key ∉ keys) {value : Json} (h : KeysIn keys value)
    {rest : Str} (hrest : Delimited rest) : Free (keyMarker key) (writeValue value) rest := by
  have htoken : ∀ text rest : Str, text.all isPlainToken = true →
      Free (keyMarker key) text rest := by
    intro text rest htext
    refine free_of_no_quote ?_
    rintro c hc rfl
    exact absurd (List.all_eq_true.mp htext _ hc) (by decide)
  induction h generalizing rest with
  | str text =>
      rw [writeValue]
      exact free_writeString hkey hrest.not_colon (hrest.not_mem hkey)
  | bool flag => cases flag <;> exact htoken _ _ rfl
  | int number =>
      rw [writeValue]
      exact htoken _ _ (integerText_chars number)
  | array items _ ih =>
      rw [writeValue_array]
      refine free_bracket (by decide) rfl fun rest hrest => free_joinComma ?_ hrest
      intro t ht rest hrest
      obtain ⟨item, hitem, rfl⟩ := List.mem_map.mp ht
      exact ih item hitem hrest
  | object members hmember _ ih =>
      rw [writeValue_object]
      refine free_bracket (by decide) rfl fun rest hrest => free_joinComma ?_ hrest
      intro t ht rest hrest
      obtain ⟨m, hm, rfl⟩ := List.mem_map.mp ht
      have hm' := (sortByKey_perm members).mem_iff.mp hm
      have hmkey := hmember m hm'
      rw [memberText, free_append]
      refine ⟨free_key hkey (hkeys _ hmkey) fun heq => hnot (heq ▸ hmkey), ?_, ih m hm' hrest⟩
      rintro ⟨x, hx⟩
      exact absurd (List.cons.inj hx).1 (by decide)

end SovriAgent
