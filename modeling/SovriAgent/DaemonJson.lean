import SovriAgent.Strings

/-!
# The Reader of daemon.json

A recursive-descent reader of JSON. The digits of a number are checked and dropped, since the
configuration of the Docker daemon reads none. The reader works on what is left of the text;
its recursion is on a budget that every call spends, and three times the length of the text is
always enough.

## Main results

* `progress`: what is read leaves less of the text than there was.
* `parseValue_fuel`: a larger budget reads the same.
-/

namespace SovriAgent

/-- A parsed value. An object keeps its members in order, repeated keys included. -/
inductive JsonValue where
  | null
  | bool (flag : Bool)
  | num
  | str (text : Str)
  | array (items : List JsonValue)
  | object (entries : List (Str × JsonValue))

namespace JsonParser

/-- What is left past the white space of JSON (`skip_whitespace`). -/
def skipWhitespace (text : Str) : Str :=
  text.dropWhile fun c => c == ' ' || c == '\t' || c == '\n' || c == '\r'

/-! ### Numbers -/

/-- What is left past a run of digits, which must not be empty. -/
def parseDigits : Str → Option Str
  | [] => none
  | c :: rest => if c.isDigit then some (rest.dropWhile Char.isDigit) else none

/-- What is left past an integer: a zero alone, or digits that do not start with a zero. -/
def parseInteger : Str → Option Str
  | [] => none
  | c :: rest =>
      if c = '0' then if rest.head?.any Char.isDigit then none else some rest
      else parseDigits (c :: rest)

/-- What is left past a fraction, if there is one. -/
def parseFraction : Str → Option Str
  | [] => some []
  | c :: rest => if c = '.' then parseDigits rest else some (c :: rest)

/-- What is left past the sign of an exponent. -/
def dropSign : Str → Str
  | [] => []
  | c :: rest => if c = '+' ∨ c = '-' then rest else c :: rest

/-- What is left past an exponent, if there is one. -/
def parseExponent : Str → Option Str
  | [] => some []
  | c :: rest => if c = 'e' ∨ c = 'E' then parseDigits (dropSign rest) else some (c :: rest)

/-- What is left past a number. -/
def parseNumber (text : Str) : Option Str :=
  ((parseInteger ((stripPrefix ['-'] text).getD text)).bind parseFraction).bind parseExponent

/-! ### Strings -/

/-- The character of an escape of one character. -/
def simpleEscape : Char → Option Char
  | '"' => some '"'
  | '\\' => some '\\'
  | '/' => some '/'
  | 'n' => some '\n'
  | 't' => some '\t'
  | 'r' => some '\r'
  | 'b' => some '\x08'
  | 'f' => some '\x0c'
  | _ => none

/-- The character of four hexadecimal digits; half of a surrogate pair is none. -/
def hexEscape (digits : Str) : Option Char :=
  (digitsValue 16 0 digits).bind fun code =>
    if code.isValidChar then some (Char.ofNat code) else none

/-- The rest of a string, past its opening quote. -/
def parseString : Str → Option (Str × Str)
  | [] => none
  | '"' :: rest => some ([], rest)
  | '\\' :: 'u' :: a :: b :: c :: d :: rest =>
      (hexEscape [a, b, c, d]).bind fun character =>
        (parseString rest).map fun parsed => (character :: parsed.1, parsed.2)
  | '\\' :: c :: rest =>
      (simpleEscape c).bind fun character =>
        (parseString rest).map fun parsed => (character :: parsed.1, parsed.2)
  | c :: rest =>
      if c = '\\' ∨ c ≤ '\x1f' then none
      else (parseString rest).map fun parsed => (c :: parsed.1, parsed.2)

/-! ### Values -/

/-- A value that is written as one word. -/
def parseKeyword (word : String) (value : JsonValue) (text : Str) : Option (JsonValue × Str) :=
  (stripPrefix word.toList text).map fun rest => (value, rest)

mutual

/-- A value, past the white space before it. -/
def parseValue : ℕ → Str → Option (JsonValue × Str)
  | 0, _ => none
  | fuel + 1, text =>
      match skipWhitespace text with
      | [] => none
      | '{' :: rest => parseObject fuel rest
      | '[' :: rest => parseArray fuel rest
      | '"' :: rest => (parseString rest).map fun parsed => (.str parsed.1, parsed.2)
      | 't' :: rest => parseKeyword "true" (.bool true) ('t' :: rest)
      | 'f' :: rest => parseKeyword "false" (.bool false) ('f' :: rest)
      | 'n' :: rest => parseKeyword "null" .null ('n' :: rest)
      | c :: rest =>
          if c = '-' ∨ c.isDigit then (parseNumber (c :: rest)).map fun rest => (.num, rest)
          else none

/-- An array, past its opening bracket. -/
def parseArray : ℕ → Str → Option (JsonValue × Str)
  | 0, _ => none
  | fuel + 1, text =>
      match skipWhitespace text with
      | ']' :: rest => some (.array [], rest)
      | rest => (parseItems fuel rest).map fun parsed => (.array parsed.1, parsed.2)

/-- The items of an array, up to its closing bracket. -/
def parseItems : ℕ → Str → Option (List JsonValue × Str)
  | 0, _ => none
  | fuel + 1, text =>
      (parseValue fuel text).bind fun (item, rest) =>
        match skipWhitespace rest with
        | ',' :: rest => (parseItems fuel rest).map fun parsed => (item :: parsed.1, parsed.2)
        | ']' :: rest => some ([item], rest)
        | _ => none

/-- An object, past its opening brace. -/
def parseObject : ℕ → Str → Option (JsonValue × Str)
  | 0, _ => none
  | fuel + 1, text =>
      match skipWhitespace text with
      | '}' :: rest => some (.object [], rest)
      | rest => (parseEntries fuel rest).map fun parsed => (.object parsed.1, parsed.2)

/-- The members of an object, up to its closing brace. -/
def parseEntries : ℕ → Str → Option (List (Str × JsonValue) × Str)
  | 0, _ => none
  | fuel + 1, text =>
      match skipWhitespace text with
      | '"' :: rest =>
          (parseString rest).bind fun (key, rest) =>
            match skipWhitespace rest with
            | ':' :: rest =>
                (parseValue fuel rest).bind fun (value, rest) =>
                  match skipWhitespace rest with
                  | ',' :: rest =>
                      (parseEntries fuel rest).map fun parsed =>
                        ((key, value) :: parsed.1, parsed.2)
                  | '}' :: rest => some ([(key, value)], rest)
                  | _ => none
            | _ => none
      | _ => none

end

/-! ### The budget -/

theorem skipWhitespace_length_le (text : Str) : (skipWhitespace text).length ≤ text.length :=
  List.length_dropWhile_le _ _

/-- Digits are not empty. -/
theorem parseDigits_length {text rest : Str} (h : parseDigits text = some rest) :
    rest.length < text.length := by
  cases text with
  | nil => cases h
  | cons c text =>
      rw [parseDigits] at h
      split at h
      · cases h
        have hle := List.length_dropWhile_le Char.isDigit text
        rw [List.length_cons]
        omega
      · cases h

/-- An integer is not empty. -/
theorem parseInteger_length {text rest : Str} (h : parseInteger text = some rest) :
    rest.length < text.length := by
  cases text with
  | nil => cases h
  | cons c text =>
      rw [parseInteger] at h
      split_ifs at h
      · cases h
        exact Nat.lt_succ_self _
      · exact parseDigits_length h

/-- A fraction leaves no more than there was. -/
theorem parseFraction_length {text rest : Str} (h : parseFraction text = some rest) :
    rest.length ≤ text.length := by
  cases text with
  | nil => cases h; exact le_rfl
  | cons c text =>
      rw [parseFraction] at h
      split_ifs at h
      · exact (parseDigits_length h).le.trans (Nat.le_succ _)
      · cases h
        exact le_rfl

theorem dropSign_length_le (text : Str) : (dropSign text).length ≤ text.length := by
  cases text with
  | nil => exact le_rfl
  | cons c text =>
      rw [dropSign]
      split_ifs
      · exact Nat.le_succ _
      · exact le_rfl

/-- An exponent leaves no more than there was. -/
theorem parseExponent_length {text rest : Str} (h : parseExponent text = some rest) :
    rest.length ≤ text.length := by
  cases text with
  | nil => cases h; exact le_rfl
  | cons c text =>
      rw [parseExponent] at h
      split_ifs at h
      · exact ((parseDigits_length h).le.trans (dropSign_length_le text)).trans (Nat.le_succ _)
      · cases h
        exact le_rfl

theorem stripPrefix_length {start text rest : Str} (h : stripPrefix start text = some rest) :
    rest.length ≤ text.length := by
  rw [stripPrefix_eq_some_iff.mp h, List.length_append]
  exact Nat.le_add_left _ _

/-- A number is not empty. -/
theorem parseNumber_length {text rest : Str} (h : parseNumber text = some rest) :
    rest.length < text.length := by
  obtain ⟨afterFraction, h, hexponent⟩ := Option.bind_eq_some_iff.mp h
  obtain ⟨afterInteger, hinteger, hfraction⟩ := Option.bind_eq_some_iff.mp h
  have hsign : ((stripPrefix ['-'] text).getD text).length ≤ text.length := by
    cases hstrip : stripPrefix ['-'] text with
    | none => exact le_rfl
    | some unsigned => exact stripPrefix_length hstrip
  have hinteger := parseInteger_length hinteger
  have hfraction := parseFraction_length hfraction
  have hexponent := parseExponent_length hexponent
  omega

/-- A string takes its closing quote at least. -/
theorem parseString_length {text : Str} {parsed : Str × Str} (h : parseString text = some parsed) :
    parsed.2.length < text.length := by
  fun_induction parseString text generalizing parsed with
  | case1 => cases h
  | case2 rest => cases h; exact Nat.lt_succ_self _
  | case3 a b c d rest ih =>
      obtain ⟨character, -, h⟩ := Option.bind_eq_some_iff.mp h
      obtain ⟨tail, htail, rfl⟩ := Option.map_eq_some_iff.mp h
      have hlt := ih htail
      simp only [List.length_cons]
      omega
  | case4 c rest _ ih =>
      obtain ⟨character, -, h⟩ := Option.bind_eq_some_iff.mp h
      obtain ⟨tail, htail, rfl⟩ := Option.map_eq_some_iff.mp h
      have hlt := ih htail
      simp only [List.length_cons]
      omega
  | case5 => cases h
  | case6 c rest _ _ _ _ ih =>
      obtain ⟨tail, htail, rfl⟩ := Option.map_eq_some_iff.mp h
      have hlt := ih htail
      simp only [List.length_cons]
      omega

/-- What a budget reads leaves less of the text than there was. -/
structure Progress (fuel : ℕ) : Prop where
  value : ∀ {text parsed}, parseValue fuel text = some parsed → parsed.2.length < text.length
  array : ∀ {text parsed}, parseArray fuel text = some parsed → parsed.2.length < text.length
  items : ∀ {text parsed}, parseItems fuel text = some parsed → parsed.2.length < text.length
  object : ∀ {text parsed}, parseObject fuel text = some parsed → parsed.2.length < text.length
  entries : ∀ {text parsed}, parseEntries fuel text = some parsed →
    parsed.2.length < text.length

/-- What stands behind the first character is shorter than the text. -/
theorem length_lt_of_skipWhitespace {text rest : Str} {c : Char}
    (h : skipWhitespace text = c :: rest) : rest.length < text.length := by
  have hle := skipWhitespace_length_le text
  rw [h, List.length_cons] at hle
  exact hle

/-- A keyword is not empty. -/
theorem parseKeyword_length {word : String} {value : JsonValue} {text : Str}
    {parsed : JsonValue × Str} (hword : word.toList ≠ [])
    (h : parseKeyword word value text = some parsed) : parsed.2.length < text.length := by
  obtain ⟨rest, hrest, rfl⟩ := Option.map_eq_some_iff.mp h
  rw [stripPrefix_eq_some_iff.mp hrest, List.length_append]
  exact Nat.lt_add_of_pos_left (List.length_pos_iff.mpr hword)

/-- A value is not empty. -/
theorem Progress.parseValue {fuel : ℕ} (ih : Progress fuel) {text : Str}
    {parsed : JsonValue × Str} (h : parseValue (fuel + 1) text = some parsed) :
    parsed.2.length < text.length := by
  have hkeyword : ∀ {word value c rest}, word.toList ≠ [] →
      skipWhitespace text = c :: rest → parseKeyword word value (c :: rest) = some parsed →
      parsed.2.length < text.length := by
    intro word value c rest hword hskip h
    exact (parseKeyword_length hword h).trans_le (hskip ▸ skipWhitespace_length_le text)
  rw [JsonParser.parseValue] at h
  split at h
  · cases h
  · next rest hskip => exact (ih.object h).trans (length_lt_of_skipWhitespace hskip)
  · next rest hskip => exact (ih.array h).trans (length_lt_of_skipWhitespace hskip)
  · next rest hskip =>
      obtain ⟨tail, htail, rfl⟩ := Option.map_eq_some_iff.mp h
      exact (parseString_length htail).trans (length_lt_of_skipWhitespace hskip)
  · next rest hskip => exact hkeyword (by decide) hskip h
  · next rest hskip => exact hkeyword (by decide) hskip h
  · next rest hskip => exact hkeyword (by decide) hskip h
  · next c rest _ _ _ _ _ _ hskip =>
      split at h
      · obtain ⟨tail, htail, rfl⟩ := Option.map_eq_some_iff.mp h
        exact (parseNumber_length htail).trans_le (hskip ▸ skipWhitespace_length_le text)
      · cases h

/-- An array takes its bracket at least. -/
theorem Progress.parseArray {fuel : ℕ} (ih : Progress fuel) {text : Str}
    {parsed : JsonValue × Str} (h : parseArray (fuel + 1) text = some parsed) :
    parsed.2.length < text.length := by
  rw [JsonParser.parseArray] at h
  split at h
  · next rest hskip =>
      cases h
      exact length_lt_of_skipWhitespace hskip
  · obtain ⟨items, hitems, rfl⟩ := Option.map_eq_some_iff.mp h
    exact (ih.items hitems).trans_le (skipWhitespace_length_le text)

/-- Items take a bracket at least. -/
theorem Progress.parseItems {fuel : ℕ} (ih : Progress fuel) {text : Str}
    {parsed : List JsonValue × Str} (h : parseItems (fuel + 1) text = some parsed) :
    parsed.2.length < text.length := by
  rw [JsonParser.parseItems] at h
  obtain ⟨⟨item, rest⟩, hitem, h⟩ := Option.bind_eq_some_iff.mp h
  have hrest := ih.value hitem
  dsimp only at h
  split at h
  · next tail hskip =>
      obtain ⟨items, hitems, rfl⟩ := Option.map_eq_some_iff.mp h
      exact ((ih.items hitems).trans (length_lt_of_skipWhitespace hskip)).trans hrest
  · next tail hskip =>
      cases h
      exact (length_lt_of_skipWhitespace hskip).trans hrest
  · cases h

/-- An object takes its brace at least. -/
theorem Progress.parseObject {fuel : ℕ} (ih : Progress fuel) {text : Str}
    {parsed : JsonValue × Str} (h : parseObject (fuel + 1) text = some parsed) :
    parsed.2.length < text.length := by
  rw [JsonParser.parseObject] at h
  split at h
  · next rest hskip =>
      cases h
      exact length_lt_of_skipWhitespace hskip
  · obtain ⟨entries, hentries, rfl⟩ := Option.map_eq_some_iff.mp h
    exact (ih.entries hentries).trans_le (skipWhitespace_length_le text)

/-- Entries take a brace at least. -/
theorem Progress.parseEntries {fuel : ℕ} (ih : Progress fuel) {text : Str}
    {parsed : List (Str × JsonValue) × Str} (h : parseEntries (fuel + 1) text = some parsed) :
    parsed.2.length < text.length := by
  rw [JsonParser.parseEntries] at h
  split at h
  · next afterQuote hquote =>
      obtain ⟨⟨key, afterKey⟩, hkey, h⟩ := Option.bind_eq_some_iff.mp h
      have hafterKey := (parseString_length hkey).trans (length_lt_of_skipWhitespace hquote)
      dsimp only at h
      split at h
      · next afterColon hcolon =>
          obtain ⟨⟨value, afterValue⟩, hvalue, h⟩ := Option.bind_eq_some_iff.mp h
          have hafterValue := ((ih.value hvalue).trans
            (length_lt_of_skipWhitespace hcolon)).trans hafterKey
          dsimp only at h
          split at h
          · next tail hskip =>
              obtain ⟨entries, hentries, rfl⟩ := Option.map_eq_some_iff.mp h
              exact ((ih.entries hentries).trans (length_lt_of_skipWhitespace hskip)).trans
                hafterValue
          · next tail hskip =>
              cases h
              exact (length_lt_of_skipWhitespace hskip).trans hafterValue
          · cases h
      · cases h
  · cases h

/-- **The parser makes progress**: whatever it reads is not empty. -/
theorem progress (fuel : ℕ) : Progress fuel := by
  induction fuel with
  | zero => constructor <;> intro text parsed h <;> cases h
  | succ fuel ih => exact ⟨ih.parseValue, ih.parseArray, ih.parseItems, ih.parseObject,
      ih.parseEntries⟩

/-- A larger budget reads what this one reads of a text it is enough for. -/
structure Settled (fuel : ℕ) : Prop where
  value : ∀ {text}, 3 * text.length < fuel → parseValue (fuel + 1) text = parseValue fuel text
  array : ∀ {text}, 3 * text.length + 2 < fuel →
    parseArray (fuel + 1) text = parseArray fuel text
  items : ∀ {text}, 3 * text.length + 1 < fuel →
    parseItems (fuel + 1) text = parseItems fuel text
  object : ∀ {text}, 3 * text.length + 2 < fuel →
    parseObject (fuel + 1) text = parseObject fuel text
  entries : ∀ {text}, 3 * text.length + 1 < fuel →
    parseEntries (fuel + 1) text = parseEntries fuel text

/-- More fuel than a value needs makes no difference. -/
theorem Settled.parseValue {fuel : ℕ} (ih : Settled fuel) {text : Str}
    (h : 3 * text.length < fuel + 1) :
    JsonParser.parseValue (fuel + 2) text = JsonParser.parseValue (fuel + 1) text := by
  rw [JsonParser.parseValue, JsonParser.parseValue]
  split
  · rfl
  · next rest hskip =>
      have hlt := length_lt_of_skipWhitespace hskip
      exact ih.object (by omega)
  · next rest hskip =>
      have hlt := length_lt_of_skipWhitespace hskip
      exact ih.array (by omega)
  all_goals rfl

/-- More fuel than an array needs makes no difference. -/
theorem Settled.parseArray {fuel : ℕ} (ih : Settled fuel) {text : Str}
    (h : 3 * text.length + 2 < fuel + 1) :
    JsonParser.parseArray (fuel + 2) text = JsonParser.parseArray (fuel + 1) text := by
  have hle := skipWhitespace_length_le text
  rw [JsonParser.parseArray, JsonParser.parseArray]
  split
  · rfl
  · rw [ih.items (by omega)]

/-- More fuel than items need makes no difference. -/
theorem Settled.parseItems {fuel : ℕ} (ih : Settled fuel) {text : Str}
    (h : 3 * text.length + 1 < fuel + 1) :
    JsonParser.parseItems (fuel + 2) text = JsonParser.parseItems (fuel + 1) text := by
  rw [JsonParser.parseItems, JsonParser.parseItems, ih.value (by omega)]
  refine Option.bind_congr fun ⟨item, rest⟩ hitem => ?_
  have hrest := (progress fuel).value hitem
  dsimp only at hrest ⊢
  split
  · next tail hskip =>
      have hlt := length_lt_of_skipWhitespace hskip
      rw [ih.items (by omega)]
  · rfl
  · rfl

/-- More fuel than an object needs makes no difference. -/
theorem Settled.parseObject {fuel : ℕ} (ih : Settled fuel) {text : Str}
    (h : 3 * text.length + 2 < fuel + 1) :
    JsonParser.parseObject (fuel + 2) text = JsonParser.parseObject (fuel + 1) text := by
  have hle := skipWhitespace_length_le text
  rw [JsonParser.parseObject, JsonParser.parseObject]
  split
  · rfl
  · rw [ih.entries (by omega)]

/-- More fuel than entries need makes no difference. -/
theorem Settled.parseEntries {fuel : ℕ} (ih : Settled fuel) {text : Str}
    (h : 3 * text.length + 1 < fuel + 1) :
    JsonParser.parseEntries (fuel + 2) text = JsonParser.parseEntries (fuel + 1) text := by
  rw [JsonParser.parseEntries, JsonParser.parseEntries]
  split
  · next afterQuote hquote =>
      have hquote := length_lt_of_skipWhitespace hquote
      refine Option.bind_congr fun ⟨key, afterKey⟩ hkey => ?_
      have hkey := parseString_length hkey
      dsimp only at hkey ⊢
      split
      · next afterColon hcolon =>
          have hcolon := length_lt_of_skipWhitespace hcolon
          rw [ih.value (by omega)]
          refine Option.bind_congr fun ⟨value, afterValue⟩ hvalue => ?_
          have hvalue := (progress fuel).value hvalue
          dsimp only at hvalue ⊢
          split
          · next tail hskip =>
              have hlt := length_lt_of_skipWhitespace hskip
              rw [ih.entries (by omega)]
          · rfl
          · rfl
      · rfl
  · rfl

/-- **Fuel**: a text that the fuel is enough for is read the same with more. -/
theorem settled (fuel : ℕ) : Settled fuel := by
  induction fuel with
  | zero => constructor <;> intro text h <;> exact absurd h (Nat.not_lt_zero _)
  | succ fuel ih => exact ⟨ih.parseValue, ih.parseArray, ih.parseItems, ih.parseObject,
      ih.parseEntries⟩

/-- Three times the length of the text is enough: a larger budget reads the same. -/
theorem parseValue_fuel {text : Str} {fuel : ℕ} (h : 3 * text.length + 1 ≤ fuel) :
    parseValue fuel text = parseValue (3 * text.length + 1) text := by
  induction fuel, h using Nat.le_induction with
  | base => rfl
  | succ fuel hle ih => rw [(settled fuel).value hle, ih]

/-- The value of a complete document (`JsonParser::parse`). -/
def parse (text : Str) : Option JsonValue :=
  (parseValue (3 * text.length + 1) text).bind fun (value, rest) =>
    if skipWhitespace rest = [] then some value else none

end JsonParser

end SovriAgent
