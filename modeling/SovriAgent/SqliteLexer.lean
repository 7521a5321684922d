import Mathlib

/-!
# The Lexical Rules of SQLite

An SQL text as SQLite cuts it into lexemes: white space, comments, words, quoted names and
string literals, dots, semicolons, variables, and single other characters. Quotes of a kind
are doubled inside a quoted text; a bracket closes at the first closing bracket. A word may
hold any character beyond ASCII and, after its first character, dollar signs. A variable
that starts with a dollar sign, an at sign, a colon or a number sign may end in a suffix in
parentheses, of any text without white space.

Numbers are left in pieces (their digits are words and their point is a dot), and so are
blob literals (a word and a literal): neither moves the border of another lexeme.

## Main results

* `lexeme_length`: every lexeme takes at least one character.
* `lexemes_cons`: the lexemes of a text are its first one and those of what is left.
-/

namespace Sqlite

/-! ### Characters -/

/-- The single quote. -/
def apostrophe : Char := Char.ofNat 39

/-- The grave accent. -/
def graveAccent : Char := Char.ofNat 96

/-- White space. -/
def isSpace (c : Char) : Bool :=
  c == ' ' || (9 ≤ c.toNat && c.toNat ≤ 13)

/-- The byte order mark, which is white space where a lexeme starts. -/
def byteOrderMark : Char := Char.ofNat 0xfeff

/-- The characters a word goes on with. -/
def isIdChar (c : Char) : Bool :=
  c.isAlphanum || c == '_' || c == '$' || 128 ≤ c.toNat

/-- The character that closes a quoted text opened by a character. -/
def closing (c : Char) : Option Char :=
  if c = apostrophe ∨ c = '"' ∨ c = graveAccent then some c
  else if c = '[' then some ']'
  else none

/-- The characters a variable starts with. -/
def startsVariable (c : Char) : Bool :=
  c == '$' || c == '@' || c == ':' || c == '#'

/-! ### Lexemes -/

/-- A lexeme; a comment and a quoted text carry their contents, quotes undoubled. -/
inductive Lexeme where
  | space
  | lineComment (content : List Char)
  | blockComment (content : List Char)
  | word (text : List Char)
  | quoted (delimiter : Char) (content : List Char)
  | unterminated (delimiter : Char) (text : List Char)
  | dot
  | semicolon
  | variable (text : List Char)
  | other (c : Char)
  deriving DecidableEq

/-- The contents of a block comment, and what follows it. -/
def readBlockComment : List Char → List Char × List Char
  | [] => ([], [])
  | [c] => ([c], [])
  | c :: d :: text =>
      if c = '*' ∧ d = '/' then ([], text)
      else
        let rest := readBlockComment (d :: text)
        (c :: rest.1, rest.2)

/-- The contents of a quoted text and what follows it, unless it is never closed. -/
def readQuoted (close : Char) : List Char → Option (List Char × List Char)
  | [] => none
  | [c] => if c = close then some ([], []) else none
  | c :: d :: text =>
      if c = close then
        if close ≠ ']' ∧ d = close then
          (readQuoted close text).map fun rest => (close :: rest.1, rest.2)
        else some ([], d :: text)
      else (readQuoted close (d :: text)).map fun rest => (c :: rest.1, rest.2)

/-- The name of a variable after its first character, and what follows it. -/
def readVariableName : List Char → List Char × List Char
  | [] => ([], [])
  | [c] => if isIdChar c then ([c], []) else ([], [c])
  | c :: d :: text =>
      if isIdChar c then
        let rest := readVariableName (d :: text)
        (c :: rest.1, rest.2)
      else if c = ':' ∧ d = ':' then
        let rest := readVariableName text
        (c :: d :: rest.1, rest.2)
      else ([], c :: d :: text)

/-- Whether a character goes on with the suffix of a variable. -/
def inSuffix (c : Char) : Bool :=
  !isSpace c && c != ')'

/-- The suffix of a variable in parentheses, if there is one, and what follows it. -/
def readSuffix : List Char → List Char × List Char
  | [] => ([], [])
  | c :: text =>
      if c = '(' then
        let inner := text.takeWhile inSuffix
        let after := text.dropWhile inSuffix
        if after.head? = some ')' then (c :: inner ++ [')'], after.tail) else (c :: inner, after)
      else ([], c :: text)

/-- A variable, given its first character and what follows that. -/
def readVariable (c : Char) (text : List Char) : List Char × List Char :=
  let name := readVariableName text
  if name.1.any isIdChar then
    let suffix := readSuffix name.2
    (c :: name.1 ++ suffix.1, suffix.2)
  else (c :: name.1, name.2)

/-- The first lexeme of a text, given its first character, and what is left. -/
def lexeme (c : Char) (text : List Char) : Lexeme × List Char :=
  if isSpace c ∨ c = byteOrderMark then (.space, text)
  else if c = '-' ∧ text.head? = some '-' then
    (.lineComment (text.tail.takeWhile (· ≠ '\n')), text.tail.dropWhile (· ≠ '\n'))
  else if c = '/' ∧ text.head? = some '*' then
    let comment := readBlockComment text.tail
    (.blockComment comment.1, comment.2)
  else
    match closing c with
    | some close =>
        match readQuoted close text with
        | some (content, rest) => (.quoted c content, rest)
        | none => (.unterminated c text, [])
    | none =>
        if c = '.' then (.dot, text)
        else if c = ';' then (.semicolon, text)
        else if startsVariable c then
          let rest := readVariable c text
          (.variable rest.1, rest.2)
        else if isIdChar c then (.word (c :: text.takeWhile isIdChar), text.dropWhile isIdChar)
        else (.other c, text)

/-- The lexemes of a text, as far as the fuel goes. -/
def lexemesFrom : ℕ → List Char → List Lexeme
  | 0, _ => []
  | _ + 1, [] => []
  | fuel + 1, c :: text => (lexeme c text).1 :: lexemesFrom fuel (lexeme c text).2

/-- The lexemes of a text: each takes a character, so that its length is enough fuel. -/
def lexemes (text : List Char) : List Lexeme :=
  lexemesFrom text.length text

/-! ### Every lexeme takes a character -/

theorem length_readBlockComment (text : List Char) :
    (readBlockComment text).2.length ≤ text.length := by
  fun_induction readBlockComment text with
  | case1 => simp
  | case2 => simp
  | case3 c d text _ => simp only [List.length_cons]; omega
  | case4 c d text _ rest ih => exact ih.trans (Nat.le_succ _)

theorem length_readQuoted {close : Char} {text content rest : List Char}
    (h : readQuoted close text = some (content, rest)) : rest.length ≤ text.length := by
  fun_induction readQuoted close text generalizing content with
  | case1 => cases h
  | case2 =>
      obtain ⟨-, rfl⟩ := Prod.mk.inj (Option.some.inj h)
      simp
  | case3 => cases h
  | case4 d text _ ih =>
      obtain ⟨found, hfound, heq⟩ := Option.map_eq_some_iff.mp h
      obtain ⟨-, rfl⟩ := Prod.mk.inj heq
      have hlength := ih hfound
      simp only [List.length_cons]
      omega
  | case5 d text _ =>
      obtain ⟨-, rfl⟩ := Prod.mk.inj (Option.some.inj h)
      simp
  | case6 c d text _ ih =>
      obtain ⟨found, hfound, heq⟩ := Option.map_eq_some_iff.mp h
      obtain ⟨-, rfl⟩ := Prod.mk.inj heq
      have hlength := ih hfound
      simp only [List.length_cons] at hlength ⊢
      omega

theorem length_readVariableName (text : List Char) :
    (readVariableName text).2.length ≤ text.length := by
  fun_induction readVariableName text with
  | case1 => simp
  | case2 => simp
  | case3 => simp
  | case4 c d text _ rest ih => exact ih.trans (Nat.le_succ _)
  | case5 c d text _ _ rest ih => exact ih.trans (Nat.le_add_right _ 2)
  | case6 => simp

theorem length_readSuffix (text : List Char) : (readSuffix text).2.length ≤ text.length := by
  rcases text with _ | ⟨c, text⟩
  · simp [readSuffix]
  · have hdrop := (List.dropWhile_sublist inSuffix (l := text)).length_le
    rw [readSuffix]
    split
    · dsimp only
      split
      · simp only [List.length_tail, List.length_cons]
        omega
      · simp only [List.length_cons]
        omega
    · simp

theorem length_readVariable (c : Char) (text : List Char) :
    (readVariable c text).2.length ≤ text.length := by
  have hname := length_readVariableName text
  have hsuffix := length_readSuffix (readVariableName text).2
  rw [readVariable]
  split
  · exact hsuffix.trans hname
  · exact hname

/-- What is left after a lexeme is no longer than what follows its first character. -/
theorem length_lexeme (c : Char) (text : List Char) :
    (lexeme c text).2.length ≤ text.length := by
  have htail : text.tail.length ≤ text.length := by simp
  rw [lexeme]
  split
  · exact le_rfl
  · split
    · exact ((List.dropWhile_sublist _).length_le).trans htail
    · split
      · exact (length_readBlockComment _).trans htail
      · split
        · split
          · next hquoted => exact length_readQuoted hquoted
          · simp
        · split
          · exact le_rfl
          · split
            · exact le_rfl
            · split
              · exact length_readVariable c text
              · split
                · exact (List.dropWhile_sublist _).length_le
                · exact le_rfl

/-- More fuel than the text is long does not matter. -/
theorem lexemesFrom_of_le {fuel : ℕ} {text : List Char} (h : text.length ≤ fuel) :
    lexemesFrom fuel text = lexemes text := by
  induction fuel using Nat.strong_induction_on generalizing text with
  | _ fuel ih =>
      rcases text with _ | ⟨c, text⟩
      · cases fuel <;> rfl
      · obtain ⟨fuel, rfl⟩ : ∃ n, fuel = n + 1 := ⟨fuel - 1, by simp at h; omega⟩
        have hleft := length_lexeme c text
        simp only [List.length_cons, Nat.add_le_add_iff_right] at h
        rw [lexemes, List.length_cons, lexemesFrom, lexemesFrom,
          ih fuel (by omega) (hleft.trans h)]
        by_cases hfuel : text.length = fuel
        · rw [hfuel, ih fuel (by omega) (hleft.trans h)]
        · rw [ih text.length (by omega) hleft]

@[simp] theorem lexemes_nil : lexemes [] = [] := rfl

/-- The first lexeme, and the lexemes of what is left. -/
theorem lexemes_cons (c : Char) (text : List Char) :
    lexemes (c :: text) = (lexeme c text).1 :: lexemes (lexeme c text).2 := by
  rw [lexemes, List.length_cons, lexemesFrom, lexemesFrom_of_le (length_lexeme c text)]

end Sqlite
