import SovriAgent.CompactJson

/-!
# JSON Texts

The grammar of JSON texts with white space between the tokens, and what their strings stand
for. A text has the syntax trees of compact texts: strings and tokens as they are written,
white space left out, repeated keys kept.

A string is a sequence of codes, one for each character and each escape. Two escapes of
surrogates make one character, and an escape of half a pair makes none. The texts without
such escapes are those whose codes are characters, each by itself.

## Main results

* `StringBody.scalars`: a string has a text by itself exactly if no escape is a surrogate.
* `IsJsonValue.head`: a value starts with no white space and no closing bracket.
-/

namespace SovriAgent

/-! ### The grammar -/

/-- White space (`ws`). -/
def JsonSpace (s : Str) : Prop :=
  ∀ c ∈ s, c = ' ' ∨ c = '\t' ∨ c = '\n' ∨ c = '\r'

/-- A value with the white space around it. -/
structure SpacedValue where
  before : Str
  text : Str
  tree : JsonTree
  after : Str

/-- A member with the white space around its key and its value. -/
structure SpacedMember where
  before : Str
  key : Str
  after : Str
  value : SpacedValue

/-- The text of a value with its white space. -/
def SpacedValue.written (item : SpacedValue) : Str :=
  item.before ++ (item.text ++ item.after)

/-- The text of a member with its white space. -/
def SpacedMember.written (entry : SpacedMember) : Str :=
  entry.before ++ (JsonTree.quoted entry.key ++ (entry.after ++ ':' :: entry.value.written))

/-- The white space of a value is white space. -/
def SpacedValue.Spaced (item : SpacedValue) : Prop :=
  JsonSpace item.before ∧ JsonSpace item.after

/-- The white space of a member is white space, and its key a string. -/
def SpacedMember.Spaced (entry : SpacedMember) : Prop :=
  JsonSpace entry.before ∧ StringBody entry.key ∧ JsonSpace entry.after ∧ entry.value.Spaced

/-- The member in the tree of an object. -/
def SpacedMember.tree (entry : SpacedMember) : Str × JsonTree :=
  (entry.key, entry.value.tree)

/-- A value (`value`) and its tree. -/
inductive IsJsonValue : Str → JsonTree → Prop
  | str {raw : Str} : StringBody raw → IsJsonValue (JsonTree.quoted raw) (.str raw)
  | token {t : Str} : IsToken t → IsJsonValue t (.token t)
  | emptyArray {space : Str} : JsonSpace space →
      IsJsonValue ('[' :: (space ++ [']'])) (.array [])
  | array {items : List SpacedValue} : items ≠ [] → (∀ item ∈ items, item.Spaced) →
      (∀ item ∈ items, IsJsonValue item.text item.tree) →
      IsJsonValue ('[' :: (joinComma (items.map SpacedValue.written) ++ [']']))
        (.array (items.map SpacedValue.tree))
  | emptyObject {space : Str} : JsonSpace space →
      IsJsonValue ('{' :: (space ++ ['}'])) (.object [])
  | object {entries : List SpacedMember} : entries ≠ [] → (∀ entry ∈ entries, entry.Spaced) →
      (∀ entry ∈ entries, IsJsonValue entry.value.text entry.value.tree) →
      IsJsonValue ('{' :: (joinComma (entries.map SpacedMember.written) ++ ['}']))
        (.object (entries.map SpacedMember.tree))

/-- A JSON text (`JSON-text`): one value with white space around it. -/
def IsJsonText (text : Str) (tree : JsonTree) : Prop :=
  ∃ before value after, JsonSpace before ∧ IsJsonValue value tree ∧ JsonSpace after ∧
    text = before ++ (value ++ after)

theorem JsonSpace.nil : JsonSpace [] :=
  fun _ hc => absurd hc List.not_mem_nil

/-- A value starts with no white space, and no closing bracket or brace. -/
theorem IsJsonValue.head {text : Str} {tree : JsonTree} (h : IsJsonValue text tree) :
    ∃ c rest, text = c :: rest ∧ ¬ (c = ' ' ∨ c = '\t' ∨ c = '\n' ∨ c = '\r') ∧ c ≠ ']' ∧
      c ≠ '}' := by
  cases h with
  | str => exact ⟨_, _, rfl, by decide, by decide, by decide⟩
  | token ht =>
      obtain ⟨hne, hchars⟩ := ht.chars
      obtain ⟨c, rest, rfl⟩ := List.exists_cons_of_ne_nil hne
      have hc := hchars c List.mem_cons_self
      refine ⟨c, rest, rfl, ?_, ?_, ?_⟩
      · rintro (rfl | rfl | rfl | rfl) <;> exact absurd hc (by decide)
      · rintro rfl
        exact absurd hc (by decide)
      · rintro rfl
        exact absurd hc (by decide)
  | emptyArray => exact ⟨_, _, rfl, by decide, by decide, by decide⟩
  | array => exact ⟨_, _, rfl, by decide, by decide, by decide⟩
  | emptyObject => exact ⟨_, _, rfl, by decide, by decide, by decide⟩
  | object => exact ⟨_, _, rfl, by decide, by decide, by decide⟩

/-! ### What strings stand for -/

/-- The text of codes that are characters, each by itself. -/
def scalars : List ℕ → Option Str
  | [] => some []
  | code :: rest =>
      if code.isValidChar then (scalars rest).map (Char.ofNat code :: ·) else none

/-- The text of a string none of whose escapes is a surrogate. -/
def scalarText (raw : Str) : Option Str :=
  (codes raw).bind scalars

/-- A code of a surrogate: half a character. -/
def IsSurrogate (code : ℕ) : Prop :=
  0xd800 ≤ code ∧ code < 0xe000

/-- A string with an escape of a surrogate. -/
def SurrogateString (raw : Str) : Prop :=
  ∃ written, codes raw = some written ∧ ∃ code ∈ written, IsSurrogate code

theorem codes_plain {c : Char} (hquote : c ≠ '"') (hslash : c ≠ '\\') (hcontrol : 0x20 ≤ c.toNat)
    (s : Str) : codes (c :: s) = (codes s).map (c.toNat :: ·) := by
  have hplain : ¬ (c = '"' ∨ c = '\\' ∨ c.toNat < 0x20) := by
    rintro (h | h | h)
    · exact hquote h
    · exact hslash h
    · omega
  rw [codes.eq_4 _ _ (by simp_all) (by simp_all), if_neg hplain]

theorem codes_short {c : Char} (h : c ∈ shortEscapes) (s : Str) :
    ∃ ch, shortEscape c = some ch ∧ codes ('\\' :: c :: s) = (codes s).map (ch.toNat :: ·) := by
  have hu : c ≠ 'u' := by
    rintro rfl
    exact absurd h (by decide)
  have hsome : (shortEscape c).isSome = true := by
    simp only [shortEscapes, List.mem_cons, List.not_mem_nil, or_false] at h
    rcases h with rfl | rfl | rfl | rfl | rfl | rfl | rfl | rfl <;> rfl
  obtain ⟨ch, hch⟩ := Option.isSome_iff_exists.mp hsome
  refine ⟨ch, hch, ?_⟩
  rw [codes.eq_3 _ _ (by simp_all), hch, Option.bind_some]

/-- The value of digits is bounded by their number. -/
theorem digitsValue_lt {acc n : ℕ} {digits : Str} (h : digitsValue 16 acc digits = some n) :
    n < (acc + 1) * 16 ^ digits.length := by
  induction digits generalizing acc with
  | nil =>
      obtain rfl := Option.some.inj h
      simp
  | cons c digits ih =>
      obtain ⟨d, hd, h⟩ := Option.bind_eq_some_iff.mp h
      have hlt : d < 16 := by
        have hfilter := (Option.filter_eq_some_iff.mp hd).2
        simpa using hfilter
      have hbound := ih h
      have hacc : 16 * acc + d + 1 ≤ (acc + 1) * 16 := by omega
      calc n < (16 * acc + d + 1) * 16 ^ digits.length := hbound
        _ ≤ (acc + 1) * 16 * 16 ^ digits.length := Nat.mul_le_mul_right _ hacc
        _ = (acc + 1) * 16 ^ (digits.length + 1) := by rw [pow_succ, mul_assoc, mul_comm 16]

theorem digitsValue_isSome {digits : Str} (h : ∀ c ∈ digits, isHexDigit c = true) (acc : ℕ) :
    ∃ n, digitsValue 16 acc digits = some n := by
  induction digits generalizing acc with
  | nil => exact ⟨acc, rfl⟩
  | cons c digits ih =>
      obtain ⟨d, hd⟩ := Option.isSome_iff_exists.mp (h c List.mem_cons_self)
      obtain ⟨n, hn⟩ := ih (fun e he => h e (List.mem_cons_of_mem c he)) (16 * acc + d)
      exact ⟨n, by rw [digitsValue, hd, Option.bind_some, hn]⟩

/-- The code of an escape of four digits. -/
theorem codes_code {digits : Str} (hlen : digits.length = 4)
    (hdigits : ∀ c ∈ digits, isHexDigit c = true) (s : Str) :
    ∃ code, code < 0x10000 ∧ digitsValue 16 0 digits = some code ∧
      codes ('\\' :: 'u' :: (digits ++ s)) = (codes s).map (code :: ·) := by
  obtain ⟨code, hcode⟩ := digitsValue_isSome hdigits 0
  have hlt := digitsValue_lt hcode
  rw [hlen] at hlt
  refine ⟨code, by simpa using hlt, hcode, ?_⟩
  match digits, hlen with
  | [a, b, c, d], _ =>
      simp only [List.cons_append, List.nil_append, codes, hcode, Option.bind_some]

/-- Every code of a string is a character or a surrogate. -/
theorem StringBody.codes {raw : Str} (h : StringBody raw) :
    ∃ written, SovriAgent.codes raw = some written ∧
      ∀ code ∈ written, code.isValidChar ∨ IsSurrogate code := by
  induction h with
  | nil => exact ⟨[], rfl, by simp⟩
  | @plain c s hquote hslash hcontrol _ ih =>
      obtain ⟨written, hs, hall⟩ := ih
      refine ⟨c.toNat :: written, by rw [codes_plain hquote hslash hcontrol, hs]; rfl, ?_⟩
      exact List.forall_mem_cons.mpr ⟨.inl c.valid, hall⟩
  | @short c s hc _ ih =>
      obtain ⟨written, hs, hall⟩ := ih
      obtain ⟨ch, -, hcodes⟩ := codes_short hc s
      refine ⟨ch.toNat :: written, by rw [hcodes, hs]; rfl, ?_⟩
      exact List.forall_mem_cons.mpr ⟨.inl ch.valid, hall⟩
  | @code digits s hlen hdigits _ ih =>
      obtain ⟨written, hs, hall⟩ := ih
      obtain ⟨code, hlt, -, hcodes⟩ := codes_code hlen hdigits s
      refine ⟨code :: written, by rw [hcodes, hs]; rfl, ?_⟩
      refine List.forall_mem_cons.mpr ⟨?_, hall⟩
      by_cases hsurrogate : IsSurrogate code
      · exact .inr hsurrogate
      · refine .inl ?_
        simp only [IsSurrogate, not_and, not_lt] at hsurrogate
        simp only [Nat.isValidChar]
        omega

theorem not_isValidChar {code : ℕ} (h : IsSurrogate code) : ¬ code.isValidChar := by
  obtain ⟨hlow, hhigh⟩ := h
  simp only [Nat.isValidChar]
  omega

theorem scalars_eq_none {written : List ℕ} {code : ℕ} (hmem : code ∈ written)
    (h : IsSurrogate code) : scalars written = none := by
  induction written with
  | nil => exact absurd hmem List.not_mem_nil
  | cons first written ih =>
      rcases List.mem_cons.mp hmem with rfl | hmem
      · exact if_neg (not_isValidChar h)
      · rw [scalars, ih hmem]
        split_ifs <;> rfl

theorem scalars_eq_characters {written : List ℕ} (h : ∀ code ∈ written, code.isValidChar) :
    ∃ text, scalars written = some text ∧ characters written = some text := by
  induction written with
  | nil => exact ⟨[], rfl, rfl⟩
  | cons code written ih =>
      obtain ⟨hcode, hall⟩ := List.forall_mem_cons.mp h
      obtain ⟨text, hscalars, hcharacters⟩ := ih hall
      have hnot : ¬ (0xd800 ≤ code ∧ code < 0xdc00) := by
        rintro ⟨hlow, hhigh⟩
        exact not_isValidChar ⟨hlow, hhigh.trans (by decide)⟩ hcode
      refine ⟨Char.ofNat code :: text, ?_, ?_⟩
      · rw [scalars, if_pos hcode, hscalars]
        rfl
      · rw [characters_of_not_surrogate hnot hcode, hcharacters]
        rfl

/-- **A string has a text by itself** exactly if no escape of it is a surrogate, and then it is
the text the string stands for. -/
theorem StringBody.scalars {raw : Str} (h : StringBody raw) :
    (SurrogateString raw ∧ scalarText raw = none) ∨
      (¬ SurrogateString raw ∧ ∃ text, scalarText raw = some text ∧
        stringValue raw = some text) := by
  obtain ⟨written, hcodes, hall⟩ := h.codes
  by_cases hsurrogate : ∃ code ∈ written, IsSurrogate code
  · obtain ⟨code, hmem, hcode⟩ := hsurrogate
    refine .inl ⟨⟨written, hcodes, code, hmem, hcode⟩, ?_⟩
    rw [scalarText, hcodes, Option.bind_some, scalars_eq_none hmem hcode]
  · have hvalid : ∀ code ∈ written, code.isValidChar := fun code hmem =>
      (hall code hmem).resolve_right fun hcode => hsurrogate ⟨code, hmem, hcode⟩
    obtain ⟨text, hscalars, hcharacters⟩ := scalars_eq_characters hvalid
    refine .inr ⟨?_, text, ?_, ?_⟩
    · rintro ⟨written', hcodes', hmem⟩
      rw [hcodes, Option.some.injEq] at hcodes'
      exact hsurrogate (hcodes' ▸ hmem)
    · rw [scalarText, hcodes, Option.bind_some, hscalars]
    · rw [stringValue, hcodes, Option.bind_some, hcharacters]

/-- A tree with an escape of a surrogate in one of its strings or keys. -/
inductive JsonTree.SurrogateEscape : JsonTree → Prop
  | str {raw : Str} : SurrogateString raw → SurrogateEscape (.str raw)
  | item {items : List JsonTree} {item : JsonTree} : item ∈ items → SurrogateEscape item →
      SurrogateEscape (.array items)
  | key {members : List (Str × JsonTree)} {m : Str × JsonTree} : m ∈ members →
      SurrogateString m.1 → SurrogateEscape (.object members)
  | value {members : List (Str × JsonTree)} {m : Str × JsonTree} : m ∈ members →
      SurrogateEscape m.2 → SurrogateEscape (.object members)

end SovriAgent
