import SovriAgent.Text

/-!
# Compact JSON Texts

The grammar of JSON texts without insignificant white space, as syntax trees that keep
strings and numbers the way they are written, and a reader that inverts it. A tree is
well formed when its strings and tokens follow the grammar and the keys of every object
are distinct as written; a text is compact JSON when it is the text of a well-formed tree.

## Main results

* `splitString_body`: a string ends at the first quote that is not escaped.
* `readTree_text`: the reader finds the tree of a text, whatever follows it.
* `WellFormed.eq_of_text`: a text has at most one tree.
-/

namespace SovriAgent

/-! ### Strings and tokens -/

/-- The characters that stand after a backslash in a short escape. -/
def shortEscapes : List Char :=
  ['"', '\\', '/', 'b', 'f', 'n', 'r', 't']

/-- A hexadecimal digit of either case. -/
def isHexDigit (c : Char) : Bool :=
  (digitValue 16 c).isSome

/-- What stands between the quotes of a string: characters that are no quote, no backslash
and no control character, and escapes. -/
inductive StringBody : Str → Prop
  | nil : StringBody []
  | plain {c : Char} {s : Str} : c ≠ '"' → c ≠ '\\' → 0x20 ≤ c.toNat → StringBody s →
      StringBody (c :: s)
  | short {c : Char} {s : Str} : c ∈ shortEscapes → StringBody s → StringBody ('\\' :: c :: s)
  | code {digits s : Str} : digits.length = 4 → (∀ c ∈ digits, isHexDigit c = true) →
      StringBody s → StringBody ('\\' :: 'u' :: (digits ++ s))

/-- One decimal digit or more. -/
def Digits (s : Str) : Prop :=
  s ≠ [] ∧ ∀ c ∈ s, c.isDigit = true

/-- The fraction of a number, if it has one. -/
def FractionPart (s : Str) : Prop :=
  s = [] ∨ ∃ digits, Digits digits ∧ s = '.' :: digits

/-- The exponent of a number, if it has one. -/
def ExponentPart (s : Str) : Prop :=
  s = [] ∨ ∃ e sign digits, (e = 'e' ∨ e = 'E') ∧
    (sign = [] ∨ sign = ['+'] ∨ sign = ['-']) ∧ Digits digits ∧ s = e :: (sign ++ digits)

/-- A number: an optional minus, an integer without leading zeros, an optional fraction and
an optional exponent. -/
def NumberToken (t : Str) : Prop :=
  ∃ sign whole fraction exponent, t = sign ++ (whole ++ (fraction ++ exponent)) ∧
    (sign = [] ∨ sign = ['-']) ∧ Digits whole ∧ (whole.head? = some '0' → whole = ['0']) ∧
    FractionPart fraction ∧ ExponentPart exponent

/-- An unquoted value: a literal name or a number. -/
def IsToken (t : Str) : Prop :=
  t = "true".toList ∨ t = "false".toList ∨ t = "null".toList ∨ NumberToken t

/-- The characters of unquoted values. -/
def isTokenChar (c : Char) : Bool :=
  c.isAlphanum || c == '-' || c == '+' || c == '.'

theorem isTokenChar_of_isDigit {c : Char} (h : c.isDigit = true) : isTokenChar c = true := by
  simp [isTokenChar, Char.isAlphanum, h]

theorem Digits.chars {s : Str} (h : Digits s) : ∀ c ∈ s, isTokenChar c = true :=
  fun c hc => isTokenChar_of_isDigit (h.2 c hc)

/-- A token is a nonempty run of token characters. -/
theorem IsToken.chars {t : Str} (h : IsToken t) : t ≠ [] ∧ ∀ c ∈ t, isTokenChar c = true := by
  rcases h with rfl | rfl | rfl | ⟨sign, whole, fraction, exponent, rfl, hsign, hwhole, -, hfraction,
    hexponent⟩
  · exact ⟨by simp, by simp [isTokenChar]⟩
  · exact ⟨by simp, by simp [isTokenChar]⟩
  · exact ⟨by simp, by simp [isTokenChar]⟩
  · refine ⟨by simp [hwhole.1], ?_⟩
    intro c hc
    simp only [List.mem_append] at hc
    rcases hc with hc | hc | hc | hc
    · rcases hsign with rfl | rfl
      · simp at hc
      · obtain rfl := List.mem_singleton.mp hc
        rfl
    · exact hwhole.chars c hc
    · rcases hfraction with rfl | ⟨digits, hdigits, rfl⟩
      · simp at hc
      · rcases List.mem_cons.mp hc with rfl | hc
        · rfl
        · exact hdigits.chars c hc
    · rcases hexponent with rfl | ⟨e, sign, digits, he, hsign, hdigits, rfl⟩
      · simp at hc
      · rcases List.mem_cons.mp hc with rfl | hc
        · rcases he with rfl | rfl <;> rfl
        · rcases List.mem_append.mp hc with hc | hc
          · rcases hsign with rfl | rfl | rfl
            · simp at hc
            · obtain rfl := List.mem_singleton.mp hc
              rfl
            · obtain rfl := List.mem_singleton.mp hc
              rfl
          · exact hdigits.chars c hc

/-! ### What strings and numbers stand for -/

/-- The character of a short escape. -/
def shortEscape (c : Char) : Option Char :=
  if c = '"' then some '"'
  else if c = '\\' then some '\\'
  else if c = '/' then some '/'
  else if c = 'b' then some '\x08'
  else if c = 'f' then some '\x0c'
  else if c = 'n' then some '\n'
  else if c = 'r' then some '\r'
  else if c = 't' then some '\t'
  else none

/-- The codes a string body writes: of a character, of an escaped character, or a code in
four hexadecimal digits. -/
def codes : Str → Option (List ℕ)
  | [] => some []
  | '\\' :: 'u' :: a :: b :: c :: d :: rest =>
      (digitsValue 16 0 [a, b, c, d]).bind fun code => (codes rest).map (code :: ·)
  | '\\' :: c :: rest => (shortEscape c).bind fun ch => (codes rest).map (ch.toNat :: ·)
  | c :: rest =>
      if c = '"' ∨ c = '\\' ∨ c.toNat < 0x20 then none else (codes rest).map (c.toNat :: ·)

/-- The characters of codes: two surrogates make one character, half a pair makes none. -/
def characters : List ℕ → Option Str
  | [] => some []
  | code :: rest =>
      if 0xd800 ≤ code ∧ code < 0xdc00 then
        match rest with
        | [] => none
        | low :: rest =>
            if 0xdc00 ≤ low ∧ low < 0xe000 then
              (characters rest).map
                (Char.ofNat (0x10000 + (code - 0xd800) * 0x400 + (low - 0xdc00)) :: ·)
            else none
      else if code.isValidChar then (characters rest).map (Char.ofNat code :: ·)
      else none

/-- The text a string body stands for. -/
def stringValue (raw : Str) : Option Str :=
  (codes raw).bind characters

/-- The value of a run of decimal digits. -/
def digitsNumber (s : Str) : Option ℕ :=
  if s = [] then none else digitsValue 10 0 s

/-- The value of an integer token. -/
def integerValue : Str → Option ℤ
  | '-' :: digits => (digitsNumber digits).map fun n => -(n : ℤ)
  | digits => (digitsNumber digits).map fun n => (n : ℤ)

/-- A code that is no surrogate stands for its character. -/
theorem characters_of_not_surrogate {code : ℕ} (hnot : ¬ (0xd800 ≤ code ∧ code < 0xdc00))
    (hvalid : code.isValidChar) (rest : List ℕ) :
    characters (code :: rest) = (characters rest).map (Char.ofNat code :: ·) := by
  cases rest <;> simp only [characters, if_neg hnot, if_pos hvalid]

/-- Codes of characters stand for these characters. -/
theorem characters_map_toNat (text : Str) : characters (text.map Char.toNat) = some text := by
  induction text with
  | nil => rfl
  | cons c text ih =>
      have hvalid : c.toNat.isValidChar := c.valid
      have hnot : ¬ (0xd800 ≤ c.toNat ∧ c.toNat < 0xdc00) := by
        have hrange := hvalid
        simp only [Nat.isValidChar] at hrange
        omega
      rw [List.map_cons, characters_of_not_surrogate hnot hvalid, ih, Char.ofNat_toNat]
      rfl

/-! ### Trees -/

/-- The syntax tree of a compact JSON text. Strings, keys and tokens are as written. -/
inductive JsonTree where
  | str (raw : Str)
  | token (text : Str)
  | array (items : List JsonTree)
  | object (members : List (Str × JsonTree))

namespace JsonTree

/-- A string as written. -/
def quoted (raw : Str) : Str :=
  '"' :: (raw ++ ['"'])

/-- A member as written. -/
def memberLine (member : Str × Str) : Str :=
  quoted member.1 ++ ':' :: member.2

mutual

/-- The text of a tree. -/
def text : JsonTree → Str
  | .str raw => quoted raw
  | .token text => text
  | .array items => '[' :: (joinComma (itemTexts items) ++ [']'])
  | .object members => '{' :: (joinComma ((memberTexts members).map memberLine) ++ ['}'])

/-- The texts of items. -/
def itemTexts : List JsonTree → List Str
  | [] => []
  | item :: items => text item :: itemTexts items

/-- The members of an object with their values as texts. -/
def memberTexts : List (Str × JsonTree) → List (Str × Str)
  | [] => []
  | (key, value) :: members => (key, text value) :: memberTexts members

end

/-- A tree whose strings and tokens follow the grammar, with distinct keys in every object. -/
inductive WellFormed : JsonTree → Prop
  | str {raw : Str} : StringBody raw → WellFormed (.str raw)
  | token {t : Str} : IsToken t → WellFormed (.token t)
  | array {items : List JsonTree} : (∀ item ∈ items, WellFormed item) → WellFormed (.array items)
  | object {members : List (Str × JsonTree)} : (members.map Prod.fst).Nodup →
      (∀ m ∈ members, StringBody m.1) → (∀ m ∈ members, WellFormed m.2) →
      WellFormed (.object members)

theorem itemTexts_eq_map (items : List JsonTree) : itemTexts items = items.map text := by
  induction items with
  | nil => rw [itemTexts, List.map_nil]
  | cons item items ih => rw [itemTexts, ih, List.map_cons]

theorem memberTexts_eq_map (members : List (Str × JsonTree)) :
    memberTexts members = members.map fun m => (m.1, m.2.text) := by
  induction members with
  | nil => rw [memberTexts, List.map_nil]
  | cons m members ih => rw [memberTexts, ih, List.map_cons]

/-- The line of a member of a tree. -/
def line (m : Str × JsonTree) : Str :=
  memberLine (m.1, m.2.text)

theorem text_array (items : List JsonTree) :
    (array items).text = '[' :: (joinComma (items.map text) ++ [']']) := by
  rw [text, itemTexts_eq_map]

theorem text_object (members : List (Str × JsonTree)) :
    (object members).text = '{' :: (joinComma (members.map line) ++ ['}']) := by
  rw [text, memberTexts_eq_map, List.map_map]
  rfl

/-! ### Reading -/

/-- The body of a string and what follows its closing quote. -/
def splitString : Str → Option (Str × Str)
  | [] => none
  | '"' :: rest => some ([], rest)
  | '\\' :: c :: rest => (splitString rest).map fun p => ('\\' :: c :: p.1, p.2)
  | c :: rest => (splitString rest).map fun p => (c :: p.1, p.2)

mutual

/-- The tree a text starts with, and what follows it. -/
def readTree : ℕ → Str → Option (JsonTree × Str)
  | 0, _ => none
  | _ + 1, [] => none
  | fuel + 1, c :: rest =>
      if c = '"' then (splitString rest).map fun p => (.str p.1, p.2)
      else if c = '[' then
        if rest.head? = some ']' then some (.array [], rest.tail)
        else (readItems fuel rest).map fun p => (.array p.1, p.2)
      else if c = '{' then
        if rest.head? = some '}' then some (.object [], rest.tail)
        else (readMembers fuel rest).map fun p => (.object p.1, p.2)
      else if isTokenChar c then
        some (.token ((c :: rest).takeWhile isTokenChar), (c :: rest).dropWhile isTokenChar)
      else none

/-- The items of an array up to its closing bracket, and what follows it. -/
def readItems : ℕ → Str → Option (List JsonTree × Str)
  | 0, _ => none
  | fuel + 1, s =>
      (readTree fuel s).bind fun item =>
        match item.2 with
        | ',' :: rest => (readItems fuel rest).map fun p => (item.1 :: p.1, p.2)
        | ']' :: rest => some ([item.1], rest)
        | _ => none

/-- The members of an object up to its closing brace, and what follows it. -/
def readMembers : ℕ → Str → Option (List (Str × JsonTree) × Str)
  | 0, _ => none
  | fuel + 1, s =>
      match s with
      | '"' :: s =>
          (splitString s).bind fun key =>
            match key.2 with
            | ':' :: s =>
                (readTree fuel s).bind fun value =>
                  match value.2 with
                  | ',' :: rest =>
                      (readMembers fuel rest).map fun p => ((key.1, value.1) :: p.1, p.2)
                  | '}' :: rest => some ([(key.1, value.1)], rest)
                  | _ => none
            | _ => none
      | _ => none

end

/-- A text that an unquoted value cannot be continued by. -/
def EndsToken (rest : Str) : Prop :=
  ∀ c, rest.head? = some c → isTokenChar c = false

@[simp] theorem endsToken_nil : EndsToken [] := by
  intro c h
  cases h

@[simp] theorem endsToken_cons {c : Char} {rest : Str} :
    EndsToken (c :: rest) ↔ isTokenChar c = false := by
  simp [EndsToken]

theorem splitString_plain {c : Char} (hquote : c ≠ '"') (hslash : c ≠ '\\') (rest : Str) :
    splitString (c :: rest) = (splitString rest).map fun p => (c :: p.1, p.2) := by
  cases rest with
  | nil => simp [splitString]
  | cons d rest => simp [splitString, hslash]

/-- **A string ends at the first quote that is not escaped.** -/
theorem splitString_body {raw : Str} (h : StringBody raw) (rest : Str) :
    splitString (raw ++ '"' :: rest) = some (raw, rest) := by
  induction h with
  | nil => rfl
  | @plain c s hq hb _ _ ih =>
      rw [List.cons_append, splitString_plain hq hb, ih]
      rfl
  | @short c s _ _ ih =>
      rw [List.cons_append, List.cons_append, splitString, ih]
      rfl
  | @code digits s hlen hhex _ ih =>
      have hdigits : ∀ (digits : Str), (∀ c ∈ digits, isHexDigit c = true) →
          splitString (digits ++ (s ++ '"' :: rest)) = some (digits ++ s, rest) := by
        intro digits hhex
        induction digits with
        | nil => exact ih
        | cons c digits ihd =>
            have hc : c ≠ '"' ∧ c ≠ '\\' := by
              have hhexc := hhex c List.mem_cons_self
              refine ⟨?_, ?_⟩ <;> (rintro rfl; exact absurd hhexc (by decide))
            rw [List.cons_append, splitString_plain hc.1 hc.2,
              ihd fun d hd => hhex d (List.mem_cons_of_mem _ hd)]
            rfl
      rw [List.cons_append, List.cons_append, List.append_assoc, splitString, hdigits digits hhex]
      rfl

/-! ### The round trip -/

/-- A run of token characters is cut off where a token ends. -/
theorem cut_token {t rest : Str} (h : ∀ c ∈ t, isTokenChar c = true) (hrest : EndsToken rest) :
    (t ++ rest).takeWhile isTokenChar = t ∧ (t ++ rest).dropWhile isTokenChar = rest := by
  rw [List.takeWhile_append_of_pos h, List.dropWhile_append_of_pos h]
  cases rest with
  | nil => simp
  | cons c rest => simp [endsToken_cons.mp hrest]

/-- A tree is read from its text, whatever follows it, by every budget above a bound. -/
def ReadsBack (tree : JsonTree) : Prop :=
  ∀ fuel rest, EndsToken rest → 2 * tree.text.length < fuel →
    readTree fuel (tree.text ++ rest) = some (tree, rest)

/-- No value starts with a closing bracket. -/
theorem WellFormed.head_ne {tree : JsonTree} (h : tree.WellFormed) (rest : Str) :
    (tree.text ++ rest).head? ≠ some ']' := by
  cases h with
  | str => simp [text, quoted]
  | @token t ht =>
      obtain ⟨hne, hchars⟩ := ht.chars
      obtain ⟨c, t, rfl⟩ := List.exists_cons_of_ne_nil hne
      have hc := hchars c List.mem_cons_self
      rw [text, List.cons_append, List.head?_cons]
      rintro heq
      rw [Option.some.inj heq] at hc
      exact absurd hc (by decide)
  | array => simp [text]
  | object => simp [text]

theorem readsBack_str {raw : Str} (h : StringBody raw) : ReadsBack (.str raw) := by
  intro fuel rest _ hfuel
  obtain ⟨fuel, rfl⟩ : ∃ n, fuel = n + 1 := ⟨fuel - 1, by omega⟩
  have hshape : text (.str raw) ++ rest = '"' :: (raw ++ '"' :: rest) := by simp [text, quoted]
  rw [hshape, readTree, if_pos rfl, splitString_body h]
  rfl

theorem readsBack_token {t : Str} (h : IsToken t) : ReadsBack (.token t) := by
  intro fuel rest hrest hfuel
  obtain ⟨fuel, rfl⟩ : ∃ n, fuel = n + 1 := ⟨fuel - 1, by omega⟩
  obtain ⟨hne, hchars⟩ := h.chars
  obtain ⟨htake, hdrop⟩ := cut_token hchars hrest
  obtain ⟨c, t, rfl⟩ := List.exists_cons_of_ne_nil hne
  have hc := hchars c List.mem_cons_self
  have hnot : c ≠ '"' ∧ c ≠ '[' ∧ c ≠ '{' := by
    refine ⟨?_, ?_, ?_⟩ <;> (rintro rfl; exact absurd hc (by decide))
  rw [text, List.cons_append] at *
  rw [readTree, if_neg hnot.1, if_neg hnot.2.1, if_neg hnot.2.2, if_pos hc, htake, hdrop]

/-- The items of an array are read one after the other. -/
theorem readItems_text {items : List JsonTree} (hne : items ≠ [])
    (h : ∀ item ∈ items, ReadsBack item) {fuel : ℕ} (rest : Str)
    (hfuel : 2 * (joinComma (items.map text)).length + 1 < fuel) :
    readItems fuel (joinComma (items.map text) ++ ']' :: rest) = some (items, rest) := by
  induction items generalizing fuel with
  | nil => exact absurd rfl hne
  | cons item items ih =>
      obtain ⟨fuel, rfl⟩ : ∃ n, fuel = n + 1 := ⟨fuel - 1, by omega⟩
      have hitem := h item List.mem_cons_self
      cases items with
      | nil =>
          simp only [List.map_cons, List.map_nil, joinComma] at hfuel ⊢
          rw [readItems, hitem fuel _ (by simp; rfl) (by omega)]
          rfl
      | cons next items =>
          simp only [List.map_cons, joinComma, List.append_assoc, List.cons_append,
            List.length_append, List.length_cons] at hfuel ih ⊢
          rw [readItems, hitem fuel _ (by simp; rfl) (by omega), Option.bind_some]
          simp only
          rw [ih (by simp) (fun i hi => h i (List.mem_cons_of_mem _ hi)) (by omega)]
          rfl

/-- The members of an object are read one after the other. -/
theorem readMembers_text {members : List (Str × JsonTree)} (hne : members ≠ [])
    (hkeys : ∀ m ∈ members, StringBody m.1) (h : ∀ m ∈ members, ReadsBack m.2) {fuel : ℕ}
    (rest : Str) (hfuel : 2 * (joinComma (members.map line)).length + 1 < fuel) :
    readMembers fuel (joinComma (members.map line) ++ '}' :: rest) = some (members, rest) := by
  induction members generalizing fuel with
  | nil => exact absurd rfl hne
  | cons m members ih =>
      obtain ⟨fuel, rfl⟩ : ∃ n, fuel = n + 1 := ⟨fuel - 1, by omega⟩
      have hkey := hkeys m List.mem_cons_self
      have hvalue := h m List.mem_cons_self
      have hshape : ∀ s, line m ++ s = '"' :: (m.1 ++ '"' :: ':' :: (m.2.text ++ s)) := by
        intro s
        simp [line, memberLine, quoted]
      have hlen : (line m).length = m.1.length + m.2.text.length + 3 := by
        simp only [line, memberLine, quoted, List.length_append, List.length_cons,
          List.length_nil]
        omega
      cases members with
      | nil =>
          simp only [List.map_cons, List.map_nil, joinComma] at hfuel ⊢
          rw [hshape, readMembers, splitString_body hkey, Option.bind_some]
          simp only
          rw [hvalue fuel _ (by simp; rfl) (by omega)]
          rfl
      | cons next members =>
          simp only [List.map_cons, joinComma, List.append_assoc, List.cons_append,
            List.length_append, List.length_cons] at hfuel ih ⊢
          rw [hshape, readMembers, splitString_body hkey, Option.bind_some]
          simp only
          rw [hvalue fuel _ (by simp; rfl) (by omega), Option.bind_some]
          simp only
          rw [ih (by simp) (fun n hn => hkeys n (List.mem_cons_of_mem _ hn))
            (fun n hn => h n (List.mem_cons_of_mem _ hn)) (by omega)]
          rfl

/-- **The reader finds the tree of a text, whatever follows it.** -/
theorem readTree_text {tree : JsonTree} (h : tree.WellFormed) : ReadsBack tree := by
  induction h with
  | str hraw => exact readsBack_str hraw
  | token ht => exact readsBack_token ht
  | @array items hitems ih =>
      intro fuel rest _ hfuel
      rw [text_array] at hfuel ⊢
      simp only [List.length_cons, List.length_append, List.length_nil] at hfuel
      obtain ⟨fuel, rfl⟩ : ∃ n, fuel = n + 1 := ⟨fuel - 1, by omega⟩
      rw [List.cons_append, List.append_assoc, List.singleton_append, readTree, if_neg (by decide),
        if_pos rfl]
      cases items with
      | nil => rfl
      | cons item items =>
          have hhead : (joinComma ((item :: items).map text) ++ ']' :: rest).head? ≠ some ']' := by
            have hitem := hitems item List.mem_cons_self
            cases items with
            | nil => exact hitem.head_ne _
            | cons next items =>
                simp only [List.map_cons, joinComma, List.append_assoc]
                exact hitem.head_ne _
          rw [if_neg hhead, readItems_text (by simp) ih rest (by omega)]
          rfl
  | @object members _ hkeys _ ih =>
      intro fuel rest _ hfuel
      rw [text_object] at hfuel ⊢
      simp only [List.length_cons, List.length_append, List.length_nil] at hfuel
      obtain ⟨fuel, rfl⟩ : ∃ n, fuel = n + 1 := ⟨fuel - 1, by omega⟩
      rw [List.cons_append, List.append_assoc, List.singleton_append, readTree, if_neg (by decide),
        if_neg (by decide), if_pos rfl]
      cases members with
      | nil => rfl
      | cons m members =>
          have hhead : (joinComma ((m :: members).map line) ++ '}' :: rest).head? ≠ some '}' := by
            cases members <;> simp [joinComma, line, memberLine, quoted]
          rw [if_neg hhead, readMembers_text (by simp) hkeys ih rest (by omega)]
          rfl

/-- **A text has at most one tree.** -/
theorem WellFormed.eq_of_text {tree tree' : JsonTree} (h : tree.WellFormed)
    (h' : tree'.WellFormed) (heq : tree.text = tree'.text) : tree = tree' := by
  have hread := readTree_text h (2 * tree.text.length + 1) [] endsToken_nil (by omega)
  rw [heq, readTree_text h' _ [] endsToken_nil (by omega)] at hread
  exact (Prod.mk.inj (Option.some.inj hread)).1.symm

end JsonTree

end SovriAgent
