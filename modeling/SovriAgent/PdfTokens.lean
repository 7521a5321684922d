import SovriAgent.Decimal

/-!
# The Tokens of a PDF Content Stream

A reader of the lexical conventions of PDF, one byte at a time: white space and comments
between the tokens, runs of regular characters as numbers, keywords and names, strings in
parentheses and in angle brackets, and the remaining delimiters.

Inside a string in parentheses the reader keeps the depth of the parentheses and where it
stands in an escape. An escape of up to three octal digits ends at the first byte that is no
digit, a line end reads as a line feed unless a backslash stands before it, and a backslash
before any other byte is dropped.

The reader is a step function on states, so that what is read of two texts is what is read
of one and then of the other.

## Main results

* `Reads.append`: the tokens of a text, from those of its parts.
* `reads_word`, `reads_name`, `reads_string`: a token, from the bytes it is written with.
* `inString_plain`, `inString_escape`: what one byte or escape adds to a string.
-/

namespace Pdf

open SovriAgent

/-! ### Bytes -/

/-- White space. -/
def isSpace (byte : UInt8) : Bool :=
  byte = 0 || byte = 9 || byte = 10 || byte = 12 || byte = 13 || byte = 32

/-- The delimiters. -/
def isDelimiter (byte : UInt8) : Bool :=
  byte = '('.toUInt8 || byte = ')'.toUInt8 || byte = '<'.toUInt8 || byte = '>'.toUInt8 ||
    byte = '['.toUInt8 || byte = ']'.toUInt8 || byte = '{'.toUInt8 || byte = '}'.toUInt8 ||
    byte = '/'.toUInt8 || byte = '%'.toUInt8

/-- The bytes that numbers, keywords and names are runs of. -/
def isRegular (byte : UInt8) : Bool :=
  !isSpace byte && !isDelimiter byte

/-- The octal digits. -/
def isOctal (byte : UInt8) : Bool :=
  '0'.toUInt8 ≤ byte && byte ≤ '7'.toUInt8

/-- The hexadecimal digits. -/
def isHex (byte : UInt8) : Bool :=
  ('0'.toUInt8 ≤ byte && byte ≤ '9'.toUInt8) || ('a'.toUInt8 ≤ byte && byte ≤ 'f'.toUInt8) ||
    ('A'.toUInt8 ≤ byte && byte ≤ 'F'.toUInt8)

/-- The byte an escape of one character stands for. -/
def shortEscape (byte : UInt8) : Option UInt8 :=
  if byte = 'n'.toUInt8 then some 10
  else if byte = 'r'.toUInt8 then some 13
  else if byte = 't'.toUInt8 then some 9
  else if byte = 'b'.toUInt8 then some 8
  else if byte = 'f'.toUInt8 then some 12
  else if byte = '('.toUInt8 ∨ byte = ')'.toUInt8 ∨ byte = '\\'.toUInt8 then some byte
  else none

/-! ### Tokens -/

/-- A token. Strings in parentheses are decoded, the others kept as they are written. -/
inductive Token where
  | integer (value : ℤ)
  | word (text : List UInt8)
  | name (text : List UInt8)
  | string (bytes : List UInt8)
  | hexString (digits : List UInt8)
  | delimiter (text : List UInt8)
  deriving DecidableEq

/-- The value of a run of decimal digits. -/
def digitsInteger (digits : List UInt8) : Option ℕ :=
  if digits = [] then none else digitsValue 10 0 (digits.map fun byte => Char.ofNat byte.toNat)

/-- The value of an integer: digits, which a sign may stand before. -/
def integerOf : List UInt8 → Option ℤ
  | [] => none
  | byte :: digits =>
      if byte = '-'.toUInt8 then (digitsInteger digits).map fun n => -(n : ℤ)
      else if byte = '+'.toUInt8 then (digitsInteger digits).map fun n => (n : ℤ)
      else (digitsInteger (byte :: digits)).map fun n => (n : ℤ)

/-- A run of regular characters: an integer, or a real number or a keyword as written. -/
def wordToken (text : List UInt8) : Token :=
  ((integerOf text).map Token.integer).getD (.word text)

/-! ### The reader -/

/-- Where the reader stands inside a string in parentheses. -/
inductive StringMode where
  | plain
  | escape
  | octal (value count : ℕ)
  | lineEnd

/-- Where the reader stands. -/
inductive State where
  | between
  | comment
  | word (text : List UInt8)
  | name (text : List UInt8)
  | string (depth : ℕ) (mode : StringMode) (bytes : List UInt8)
  | less
  | greater
  | hex (digits : List UInt8)

/-- The reader: the tokens it has read and where it stands. -/
structure Lexer where
  tokens : List Token
  state : State

/-- Reads the first byte after a token. -/
def start (tokens : List Token) (byte : UInt8) : Option Lexer :=
  if isSpace byte then some ⟨tokens, .between⟩
  else if byte = '%'.toUInt8 then some ⟨tokens, .comment⟩
  else if byte = '('.toUInt8 then some ⟨tokens, .string 0 .plain []⟩
  else if byte = '/'.toUInt8 then some ⟨tokens, .name []⟩
  else if byte = '<'.toUInt8 then some ⟨tokens, .less⟩
  else if byte = '>'.toUInt8 then some ⟨tokens, .greater⟩
  else if byte = ')'.toUInt8 then none
  else if isDelimiter byte then some ⟨tokens ++ [.delimiter [byte]], .between⟩
  else some ⟨tokens, .word [byte]⟩

/-- Reads a byte of a string that no backslash stands before. -/
def plainByte (tokens : List Token) (depth : ℕ) (bytes : List UInt8) (byte : UInt8) : Lexer :=
  if byte = '('.toUInt8 then ⟨tokens, .string (depth + 1) .plain (bytes ++ [byte])⟩
  else if byte = ')'.toUInt8 then
    match depth with
    | 0 => ⟨tokens ++ [.string bytes], .between⟩
    | depth + 1 => ⟨tokens, .string depth .plain (bytes ++ [byte])⟩
  else if byte = '\\'.toUInt8 then ⟨tokens, .string depth .escape bytes⟩
  else if byte = 13 then ⟨tokens, .string depth .lineEnd (bytes ++ [10])⟩
  else ⟨tokens, .string depth .plain (bytes ++ [byte])⟩

/-- Reads the byte after a backslash. -/
def escapedByte (tokens : List Token) (depth : ℕ) (bytes : List UInt8) (byte : UInt8) : Lexer :=
  match shortEscape byte with
  | some value => ⟨tokens, .string depth .plain (bytes ++ [value])⟩
  | none =>
      if isOctal byte then ⟨tokens, .string depth (.octal (byte.toNat - '0'.toNat) 1) bytes⟩
      else if byte = 10 then ⟨tokens, .string depth .plain bytes⟩
      else if byte = 13 then ⟨tokens, .string depth .lineEnd bytes⟩
      else ⟨tokens, .string depth .plain (bytes ++ [byte])⟩

/-- Reads a byte of a string. -/
def stringByte (tokens : List Token) (depth : ℕ) (mode : StringMode) (bytes : List UInt8)
    (byte : UInt8) : Lexer :=
  match mode with
  | .plain => plainByte tokens depth bytes byte
  | .escape => escapedByte tokens depth bytes byte
  | .octal value count =>
      if isOctal byte ∧ count < 3 then
        ⟨tokens, .string depth (.octal (8 * value + (byte.toNat - '0'.toNat)) (count + 1)) bytes⟩
      else plainByte tokens depth (bytes ++ [UInt8.ofNat value]) byte
  | .lineEnd =>
      if byte = 10 then ⟨tokens, .string depth .plain bytes⟩
      else plainByte tokens depth bytes byte

/-- Reads a byte of a string in angle brackets. -/
def hexByte (tokens : List Token) (digits : List UInt8) (byte : UInt8) : Option Lexer :=
  if byte = '>'.toUInt8 then some ⟨tokens ++ [.hexString digits], .between⟩
  else if isSpace byte then some ⟨tokens, .hex digits⟩
  else if isHex byte then some ⟨tokens, .hex (digits ++ [byte])⟩
  else none

/-- Reads one byte. -/
def step (lexer : Lexer) (byte : UInt8) : Option Lexer :=
  match lexer.state with
  | .between => start lexer.tokens byte
  | .comment =>
      if byte = 10 ∨ byte = 13 then some ⟨lexer.tokens, .between⟩
      else some ⟨lexer.tokens, .comment⟩
  | .word text =>
      if isRegular byte then some ⟨lexer.tokens, .word (text ++ [byte])⟩
      else start (lexer.tokens ++ [wordToken text]) byte
  | .name text =>
      if isRegular byte then some ⟨lexer.tokens, .name (text ++ [byte])⟩
      else start (lexer.tokens ++ [.name text]) byte
  | .string depth mode bytes => some (stringByte lexer.tokens depth mode bytes byte)
  | .less =>
      if byte = '<'.toUInt8 then
        some ⟨lexer.tokens ++ [.delimiter ['<'.toUInt8, '<'.toUInt8]], .between⟩
      else hexByte lexer.tokens [] byte
  | .greater =>
      if byte = '>'.toUInt8 then
        some ⟨lexer.tokens ++ [.delimiter ['>'.toUInt8, '>'.toUInt8]], .between⟩
      else none
  | .hex digits => hexByte lexer.tokens digits byte

/-- Reads a text. -/
def run (lexer : Lexer) (text : List UInt8) : Option Lexer :=
  text.foldlM step lexer

/-- The tokens when the text ends: inside a string it may not. -/
def finish (lexer : Lexer) : Option (List Token) :=
  match lexer.state with
  | .between => some lexer.tokens
  | .comment => some lexer.tokens
  | .word text => some (lexer.tokens ++ [wordToken text])
  | .name text => some (lexer.tokens ++ [.name text])
  | _ => none

/-- The tokens of a text, if it follows the conventions. -/
def tokens (text : List UInt8) : Option (List Token) :=
  (run ⟨[], .between⟩ text).bind finish

/-! ### Reading in parts -/

@[simp] theorem run_nil (lexer : Lexer) : run lexer [] = some lexer := rfl

@[simp] theorem run_cons (lexer : Lexer) (byte : UInt8) (text : List UInt8) :
    run lexer (byte :: text) = (step lexer byte).bind fun lexer => run lexer text := rfl

theorem run_append (lexer : Lexer) (s t : List UInt8) :
    run lexer (s ++ t) = (run lexer s).bind fun lexer => run lexer t :=
  List.foldlM_append

/-- A text that is read as some tokens, between two others. -/
def Reads (text : List UInt8) (read : List Token) : Prop :=
  ∀ before, run ⟨before, .between⟩ text = some ⟨before ++ read, .between⟩

theorem Reads.append {s t : List UInt8} {read read' : List Token} (hs : Reads s read)
    (ht : Reads t read') : Reads (s ++ t) (read ++ read') := by
  intro before
  rw [run_append, hs, Option.bind_some, ht, List.append_assoc]

theorem Reads.nil : Reads [] [] := by
  intro before
  rw [run_nil, List.append_nil]

/-- The texts of a list, one after the other. -/
theorem Reads.flatMap {α : Type} {text : α → List UInt8} {read : α → List Token} (items : List α)
    (h : ∀ item ∈ items, Reads (text item) (read item)) :
    Reads (items.flatMap text) (items.flatMap read) :=
  related_flatMap Reads.nil Reads.append h

/-- The tokens of a text that is read as a whole. -/
theorem Reads.tokens_eq {text : List UInt8} {read : List Token} (h : Reads text read) :
    tokens text = some read := by
  rw [tokens, h]
  rfl

/-! ### Words and names -/

theorem start_space {byte : UInt8} (h : isSpace byte = true) (before : List Token) :
    start before byte = some ⟨before, .between⟩ :=
  if_pos h

theorem start_regular {byte : UInt8} (h : isRegular byte = true) (before : List Token) :
    start before byte = some ⟨before, .word [byte]⟩ := by
  simp only [isRegular, Bool.and_eq_true, Bool.not_eq_true'] at h
  obtain ⟨hspace, hdelimiter⟩ := h
  have hnot := hdelimiter
  simp only [isDelimiter, Bool.or_eq_false_iff, decide_eq_false_iff_not] at hnot
  simp [start, hspace, hdelimiter, hnot]

theorem not_regular_of_space {byte : UInt8} (h : isSpace byte = true) :
    isRegular byte = false := by
  simp [isRegular, h]

theorem step_word_regular {byte : UInt8} (h : isRegular byte = true) (before : List Token)
    (text : List UInt8) :
    step ⟨before, .word text⟩ byte = some ⟨before, .word (text ++ [byte])⟩ :=
  if_pos h

theorem step_word_space {byte : UInt8} (h : isSpace byte = true) (before : List Token)
    (text : List UInt8) :
    step ⟨before, .word text⟩ byte = some ⟨before ++ [wordToken text], .between⟩ :=
  (if_neg (by simp [not_regular_of_space h])).trans (start_space h _)

theorem step_name_regular {byte : UInt8} (h : isRegular byte = true) (before : List Token)
    (text : List UInt8) :
    step ⟨before, .name text⟩ byte = some ⟨before, .name (text ++ [byte])⟩ :=
  if_pos h

theorem step_name_space {byte : UInt8} (h : isSpace byte = true) (before : List Token)
    (text : List UInt8) :
    step ⟨before, .name text⟩ byte = some ⟨before ++ [.name text], .between⟩ :=
  (if_neg (by simp [not_regular_of_space h])).trans (start_space h _)

/-- A run of regular characters is read into the token that has begun, if each of them is. -/
theorem run_regular {state : List UInt8 → State}
    (hstep : ∀ {byte}, isRegular byte = true → ∀ before text,
      step ⟨before, state text⟩ byte = some ⟨before, state (text ++ [byte])⟩)
    {text : List UInt8} (h : ∀ byte ∈ text, isRegular byte = true) (before : List Token)
    (begun : List UInt8) :
    run ⟨before, state begun⟩ text = some ⟨before, state (begun ++ text)⟩ := by
  induction text generalizing begun with
  | nil => rw [run_nil, List.append_nil]
  | cons byte text ih =>
      rw [run_cons, hstep (h byte List.mem_cons_self), Option.bind_some,
        ih fun b hb => h b (List.mem_cons_of_mem byte hb), List.append_assoc]
      rfl

/-- A run of regular characters and white space. -/
theorem reads_word {text : List UInt8} {space : UInt8} (hne : text ≠ [])
    (h : ∀ byte ∈ text, isRegular byte = true) (hspace : isSpace space = true) :
    Reads (text ++ [space]) [wordToken text] := by
  intro before
  obtain ⟨byte, text, rfl⟩ := List.exists_cons_of_ne_nil hne
  have hstart : step ⟨before, .between⟩ byte = some ⟨before, .word [byte]⟩ :=
    start_regular (h byte List.mem_cons_self) before
  rw [run_append, run_cons, hstart, Option.bind_some,
    run_regular step_word_regular fun b hb => h b (List.mem_cons_of_mem byte hb),
    Option.bind_some, run_cons,
    step_word_space hspace]
  rfl

/-- A solidus, a run of regular characters and white space. -/
theorem reads_name {text : List UInt8} {space : UInt8}
    (h : ∀ byte ∈ text, isRegular byte = true) (hspace : isSpace space = true) :
    Reads ('/'.toUInt8 :: (text ++ [space])) [.name text] := by
  intro before
  have hstart : step ⟨before, .between⟩ '/'.toUInt8 = some ⟨before, .name []⟩ := rfl
  rw [run_cons, hstart, Option.bind_some, run_append, run_regular step_name_regular h, List.nil_append,
    Option.bind_some, run_cons, step_name_space hspace]
  rfl

theorem reads_space {space : UInt8} (h : isSpace space = true) : Reads [space] [] := by
  intro before
  have hstep : step ⟨before, .between⟩ space = some ⟨before, .between⟩ := start_space h before
  rw [run_cons, hstep, List.append_nil]
  rfl

/-! ### Strings -/

/-- A text that adds some bytes to a string, inside it. -/
def InString (text bytes : List UInt8) : Prop :=
  ∀ before depth begun, run ⟨before, .string depth .plain begun⟩ text =
    some ⟨before, .string depth .plain (begun ++ bytes)⟩

theorem InString.append {s t bytes bytes' : List UInt8} (hs : InString s bytes)
    (ht : InString t bytes') : InString (s ++ t) (bytes ++ bytes') := by
  intro before depth begun
  rw [run_append, hs, Option.bind_some, ht, List.append_assoc]

theorem InString.nil : InString [] [] := by
  intro before depth begun
  rw [run_nil, List.append_nil]

theorem InString.flatMap {α : Type} {text bytes : α → List UInt8} (items : List α)
    (h : ∀ item ∈ items, InString (text item) (bytes item)) :
    InString (items.flatMap text) (items.flatMap bytes) :=
  related_flatMap InString.nil InString.append h

/-- The bytes of a string that stand for themselves, whatever follows them. -/
def isPlain (byte : UInt8) : Bool :=
  byte ≠ '('.toUInt8 && byte ≠ ')'.toUInt8 && byte ≠ '\\'.toUInt8 && byte ≠ 13

/-- Plain bytes stand for themselves. -/
theorem inString_plain {text : List UInt8} (h : ∀ byte ∈ text, isPlain byte = true) :
    InString text text := by
  intro before depth begun
  induction text generalizing begun with
  | nil => rw [run_nil, List.append_nil]
  | cons byte text ih =>
      have hbyte := h byte List.mem_cons_self
      simp only [isPlain, Bool.and_eq_true, decide_eq_true_eq] at hbyte
      obtain ⟨⟨⟨hopen, hclose⟩, hbackslash⟩, hreturn⟩ := hbyte
      have hstep : step ⟨before, .string depth .plain begun⟩ byte =
          some ⟨before, .string depth .plain (begun ++ [byte])⟩ := by
        change some (plainByte before depth begun byte) = _
        rw [plainByte.eq_def, if_neg hopen, if_neg hclose, if_neg hbackslash, if_neg hreturn]
      rw [run_cons, hstep, Option.bind_some, ih fun b hb => h b (List.mem_cons_of_mem byte hb),
        List.append_assoc]
      rfl

/-- A backslash and a character it escapes. -/
theorem inString_escape {byte value : UInt8} (h : shortEscape byte = some value) :
    InString ['\\'.toUInt8, byte] [value] := by
  intro before depth begun
  have hstep : step ⟨before, .string depth .plain begun⟩ '\\'.toUInt8 =
      some ⟨before, .string depth .escape begun⟩ := rfl
  have hescaped : escapedByte before depth begun byte =
      ⟨before, .string depth .plain (begun ++ [value])⟩ := by
    rw [escapedByte, h]
  rw [run_cons, hstep, Option.bind_some, run_cons]
  change (some (escapedByte before depth begun byte)).bind _ = _
  rw [hescaped]
  rfl

/-- The string itself: what stands in it, between parentheses. -/
theorem reads_string {text bytes : List UInt8} (h : InString text bytes) :
    Reads ('('.toUInt8 :: (text ++ [')'.toUInt8])) [.string bytes] := by
  intro before
  have hstart : step ⟨before, .between⟩ '('.toUInt8 = some ⟨before, .string 0 .plain []⟩ := rfl
  rw [run_cons, hstart, Option.bind_some, run_append, h, Option.bind_some, List.nil_append]
  rfl

/-! ### Written numbers -/

/-- A decimal digit is one byte, and a regular character. -/
private theorem digit_bytes {c : Char} (h : c.isDigit = true) :
    String.utf8EncodeChar c = [c.toUInt8] ∧ Char.ofNat c.toUInt8.toNat = c ∧
      isRegular c.toUInt8 = true ∧ c.toUInt8 ≠ '-'.toUInt8 ∧ c.toUInt8 ≠ '+'.toUInt8 := by
  have hascii : ∀ n < 128, (Char.ofNat n).isDigit = true →
      String.utf8EncodeChar (Char.ofNat n) = [(Char.ofNat n).toUInt8] ∧
        Char.ofNat (Char.ofNat n).toUInt8.toNat = Char.ofNat n ∧
        isRegular (Char.ofNat n).toUInt8 = true ∧ (Char.ofNat n).toUInt8 ≠ '-'.toUInt8 ∧
        (Char.ofNat n).toUInt8 ≠ '+'.toUInt8 := by
    decide +kernel
  have hlt : c.toNat < 128 := by
    simp only [Char.isDigit, Bool.and_eq_true, decide_eq_true_eq, UInt32.le_iff_toNat_le] at h
    have h9 : ('9' : Char).val.toNat = 57 := rfl
    have := h.2
    change c.val.toNat < 128
    omega
  have hc := hascii c.toNat hlt
  rw [Char.ofNat_toNat] at hc
  exact hc h

theorem utf8_digits {s : Str} (h : ∀ c ∈ s, c.isDigit = true) :
    (utf8 s).map (fun byte => Char.ofNat byte.toNat) = s ∧
      (∀ byte ∈ utf8 s, isRegular byte = true) ∧
      ∀ byte ∈ utf8 s, byte ≠ '-'.toUInt8 ∧ byte ≠ '+'.toUInt8 := by
  induction s with
  | nil => exact ⟨rfl, by simp [utf8], by simp [utf8]⟩
  | cons c s ih =>
      obtain ⟨hone, hback, hregular, hsign⟩ := digit_bytes (h c List.mem_cons_self)
      obtain ⟨hmap, hall, hsigns⟩ := ih fun d hd => h d (List.mem_cons_of_mem c hd)
      have hcons : utf8 (c :: s) = c.toUInt8 :: utf8 s := by
        rw [utf8, List.flatMap_cons, hone]
        rfl
      rw [hcons, List.map_cons, hmap, hback, List.forall_mem_cons, List.forall_mem_cons]
      exact ⟨rfl, ⟨hregular, hall⟩, hsign, hsigns⟩

theorem utf8_decimal_ne_nil (n : ℕ) : utf8 (decimal n) ≠ [] := by
  have hpos := byteLen_pos (decimal_ne_nil n)
  rw [← length_utf8] at hpos
  exact List.ne_nil_of_length_pos hpos

/-- The decimal digits of a number are read as its value. -/
theorem digitsInteger_decimal (n : ℕ) : digitsInteger (utf8 (decimal n)) = some n := by
  rw [digitsInteger, if_neg (utf8_decimal_ne_nil n),
    (utf8_digits fun _ hc => isDigit_of_mem_decimal hc).1, digitsValue_decimal]

/-- A number and white space. -/
theorem reads_decimal (n : ℕ) {space : UInt8} (hspace : isSpace space = true) :
    Reads (utf8 (decimal n) ++ [space]) [.integer n] := by
  obtain ⟨-, hregular, hsigns⟩ := utf8_digits fun c (hc : c ∈ decimal n) => isDigit_of_mem_decimal hc
  have htoken : wordToken (utf8 (decimal n)) = .integer n := by
    have hvalue := digitsInteger_decimal n
    obtain ⟨byte, digits, hcons⟩ := List.exists_cons_of_ne_nil (utf8_decimal_ne_nil n)
    obtain ⟨hminus, hplus⟩ := hsigns byte (by rw [hcons]; exact List.mem_cons_self)
    rw [hcons] at hvalue ⊢
    rw [wordToken, integerOf, if_neg hminus, if_neg hplus, hvalue]
    rfl
  rw [← htoken]
  exact reads_word (utf8_decimal_ne_nil n) hregular hspace

/-- A minus sign, a number and white space. -/
theorem reads_neg_decimal (n : ℕ) {space : UInt8} (hspace : isSpace space = true) :
    Reads ('-'.toUInt8 :: (utf8 (decimal n) ++ [space])) [.integer (-n)] := by
  obtain ⟨-, hregular, -⟩ := utf8_digits fun c (hc : c ∈ decimal n) => isDigit_of_mem_decimal hc
  have htoken : wordToken ('-'.toUInt8 :: utf8 (decimal n)) = .integer (-n) := by
    rw [wordToken, integerOf, if_pos rfl, digitsInteger_decimal]
    rfl
  have hall : ∀ byte ∈ '-'.toUInt8 :: utf8 (decimal n), isRegular byte = true :=
    List.forall_mem_cons.mpr ⟨rfl, hregular⟩
  rw [← htoken]
  exact reads_word (List.cons_ne_nil _ _) hall hspace

end Pdf
