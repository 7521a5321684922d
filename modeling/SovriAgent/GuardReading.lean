import SovriAgent.SqliteLexer
import SovriAgent.SqlGuard

/-!
# The Guard's Tokens and SQLite's Lexemes

The guard cuts a migration's text with a tokenizer of its own. It agrees with SQLite on
comments and quotes, but it knows no variables, and its bare tokens hold ASCII letters,
digits and underscores only. So a bare name with other characters is cut into pieces, and a
quote inside the parentheses of a variable puts the guard out of step.

As long as the variables of a text are plain, the guard's tokens are those of SQLite's
lexemes one after the other (`Lexeme.readings`).

## Main results

* `guardTokens_plain`: a plain piece of text is cut into its words and dots.
* `guardTokens_lexeme`: the tokens of one lexeme.
* `sqlTokens_eq_flatMap`: the guard's tokens are those of the lexemes.
-/

namespace SovriAgent

open Sqlite (Lexeme)

/-! ### One turn of the tokenizer -/

/-- The token being read, unless it is empty. -/
def flush (token : Str) : List Str :=
  if token = [] then [] else [token]

/-- The token of a quoted text. -/
def quotedToken (delimiter : Char) (content : Str) : Str :=
  if delimiter = singleQuote then singleQuote :: (content ++ [singleQuote]) else content

/-- What one turn of the tokenizer's loop pushes, the token it goes on with, and the text
left. -/
def guardStep (token : Str) (character : Char) (characters : Str) : List Str × Str × Str :=
  if character = '-' ∧ characters.head? = some '-' then
    (flush token, [], skipLineComment characters.tail)
  else if character = '/' ∧ characters.head? = some '*' then
    (flush token, [], skipBlockComment characters.tail)
  else
    match Sqlite.closing character with
    | some terminator =>
        let quoted := collectQuotedIdentifier terminator characters
        (flush token ++ [quotedToken character quoted.1], [], quoted.2)
    | none =>
        if character = '.' then (flush token ++ [['.']], [], characters)
        else if isSqlTokenCharacter character then ([], token ++ [character], characters)
        else (flush token, [], characters)

/-- A token is pushed unless it is empty. -/
theorem pushSqlToken_eq (tokens : List Str) (token : Str) :
    pushSqlToken tokens token = tokens ++ flush token := by
  rw [pushSqlToken, flush]
  split
  · rw [List.append_nil]
  · rfl

/-- A character that opens a quoted text does so for the guard as for SQLite. -/
theorem closing_eq (character : Char) :
    Sqlite.closing character =
      if character = singleQuote then some singleQuote else nameTerminator character := by
  rw [Sqlite.closing, nameTerminator]
  by_cases hsingle : character = singleQuote
  · subst hsingle
    rfl
  · have hsingle' : character ≠ Sqlite.apostrophe := hsingle
    by_cases hdouble : character = '"'
    · subst hdouble
      rfl
    · by_cases hback : character = backquote
      · subst hback
        rfl
      · have hback' : character ≠ Sqlite.graveAccent := hback
        simp [hsingle, hsingle', hdouble, hback, hback']

/-- The tokens after one step of the guard. -/
theorem sqlTokensFrom_cons (fuel : ℕ) (tokens : List Str) (token : Str) (character : Char)
    (characters : Str) :
    sqlTokensFrom (fuel + 1) tokens token (character :: characters) =
      sqlTokensFrom fuel (tokens ++ (guardStep token character characters).1)
        (guardStep token character characters).2.1 (guardStep token character characters).2.2 := by
  rw [sqlTokensFrom, guardStep, closing_eq]
  simp only [pushSqlToken_eq]
  split
  · rfl
  · split
    · rfl
    · by_cases hsingle : character = singleQuote
      · simp only [hsingle, if_true, quotedToken, List.append_assoc]
      · simp only [hsingle, if_false]
        rcases nameTerminator character with _ | terminator
        · simp only
          split
          · rw [List.append_assoc]
          · split
            · rw [List.append_nil]
            · rfl
        · simp only [quotedToken, hsingle, if_false, List.append_assoc]

/-! ### The text gets shorter -/

/-- A line comment leaves no more than there was. -/
theorem length_skipLineComment (text : Str) : (skipLineComment text).length ≤ text.length := by
  induction text with
  | nil => simp [skipLineComment]
  | cons character characters ih =>
      rw [skipLineComment]
      split
      · simp
      · exact ih.trans (Nat.le_succ _)

/-- The guard ends a block comment where SQLite does. -/
theorem skipBlockComment_eq (text : Str) :
    skipBlockComment text = (Sqlite.readBlockComment text).2 := by
  fun_induction skipBlockComment text with
  | case1 => rfl
  | case2 => rfl
  | case3 character next characters hclose => rw [Sqlite.readBlockComment, if_pos hclose]
  | case4 character next characters hopen ih =>
      rw [Sqlite.readBlockComment, if_neg hopen]
      exact ih

/-- The guard collects the quoted texts SQLite reads; one that is never closed goes to the
end. -/
theorem collectQuotedIdentifier_eq {opening terminator : Char}
    (h : Sqlite.closing opening = some terminator) (text : Str) :
    (∀ content rest, Sqlite.readQuoted terminator text = some (content, rest) →
      collectQuotedIdentifier terminator text = (content, rest)) ∧
    (Sqlite.readQuoted terminator text = none →
      (collectQuotedIdentifier terminator text).2 = []) := by
  have hdoubles : terminatorDoubles terminator = true ↔ terminator ≠ ']' := by
    rw [closing_eq, nameTerminator] at h
    split at h
    · obtain rfl := Option.some.inj h
      decide
    · split at h
      · obtain rfl := Option.some.inj h
        decide
      · split at h
        · obtain rfl := Option.some.inj h
          decide
        · split at h
          · obtain rfl := Option.some.inj h
            decide
          · cases h
  fun_induction Sqlite.readQuoted terminator text with
  | case1 => simp [collectQuotedIdentifier]
  | case2 => simp [collectQuotedIdentifier]
  | case3 character hclose => simp [collectQuotedIdentifier, hclose]
  | case4 next characters hdouble ih =>
      rw [collectQuotedIdentifier, if_pos rfl, if_pos ⟨hdoubles.mpr hdouble.1, hdouble.2⟩]
      refine ⟨fun content rest hread => ?_, fun hread => ?_⟩
      · obtain ⟨found, hfound, heq⟩ := Option.map_eq_some_iff.mp hread
        rw [ih.1 found.1 found.2 hfound]
        exact heq
      · exact ih.2 (Option.map_eq_none_iff.mp hread)
  | case5 next characters hdouble =>
      rw [collectQuotedIdentifier, if_pos rfl, if_neg fun hd => hdouble ⟨hdoubles.mp hd.1, hd.2⟩]
      simp
  | case6 character next characters hclose ih =>
      rw [collectQuotedIdentifier, if_neg hclose]
      refine ⟨fun content rest hread => ?_, fun hread => ?_⟩
      · obtain ⟨found, hfound, heq⟩ := Option.map_eq_some_iff.mp hread
        rw [ih.1 found.1 found.2 hfound]
        exact heq
      · exact ih.2 (Option.map_eq_none_iff.mp hread)

/-- A step leaves no more than there was. -/
theorem length_guardStep (token : Str) (character : Char) (characters : Str) :
    (guardStep token character characters).2.2.length ≤ characters.length := by
  have htail : characters.tail.length ≤ characters.length := by simp
  rw [guardStep]
  split
  · exact (length_skipLineComment _).trans htail
  · split
    · rw [skipBlockComment_eq]
      exact (Sqlite.length_readBlockComment _).trans htail
    · split
      · next terminator hclosing =>
          obtain ⟨hsome, hnone⟩ := collectQuotedIdentifier_eq hclosing characters
          rcases hread : Sqlite.readQuoted terminator characters with _ | ⟨content, rest⟩
          · simp [hnone hread]
          · simp only [hsome content rest hread]
            exact Sqlite.length_readQuoted hread
      · split
        · exact le_rfl
        · split <;> exact le_rfl

/-! ### The tokenizer without its accumulator -/

/-- The tokens of a text, after a token that is being read. -/
def guardTokens (token text : Str) : List Str :=
  sqlTokensFrom (text.length + 1) [] token text

/-- The length of the text is fuel enough. -/
theorem sqlTokensFrom_eq {fuel : ℕ} {text : Str} (h : text.length < fuel) (tokens : List Str)
    (token : Str) : sqlTokensFrom fuel tokens token text = tokens ++ guardTokens token text := by
  induction fuel using Nat.strong_induction_on generalizing text tokens token with
  | _ fuel ih =>
      obtain ⟨fuel, rfl⟩ : ∃ n, fuel = n + 1 := ⟨fuel - 1, by omega⟩
      rcases text with _ | ⟨character, characters⟩
      · rw [guardTokens, List.length_nil, sqlTokensFrom, sqlTokensFrom, pushSqlToken_eq,
          pushSqlToken_eq, List.nil_append]
      · have hstep := length_guardStep token character characters
        simp only [List.length_cons, Nat.add_lt_add_iff_right] at h
        rw [guardTokens, List.length_cons, sqlTokensFrom_cons, sqlTokensFrom_cons,
          ih fuel (by omega) (by omega), List.nil_append]
        by_cases hfuel : characters.length + 1 = fuel
        · rw [hfuel, ih fuel (by omega) (by omega), List.append_assoc]
        · rw [ih (characters.length + 1) (by omega) (by omega), List.append_assoc]

@[simp] theorem guardTokens_nil (token : Str) : guardTokens token [] = flush token := by
  rw [guardTokens, List.length_nil, sqlTokensFrom, pushSqlToken_eq, List.nil_append]

/-- The tokens of a text, step by step. -/
theorem guardTokens_cons (token : Str) (character : Char) (characters : Str) :
    guardTokens token (character :: characters) =
      (guardStep token character characters).1 ++
        guardTokens (guardStep token character characters).2.1
          (guardStep token character characters).2.2 := by
  have hstep := length_guardStep token character characters
  rw [guardTokens, sqlTokensFrom_cons, List.length_cons, sqlTokensFrom_eq (by omega),
    List.nil_append]

theorem sqlTokens_eq (sql : Str) : sqlTokens sql = guardTokens [] sql := rfl

/-! ### Plain text -/

/-- The words and dots of a text in which nothing is quoted and no comment starts, after a
word that is being read. -/
def cutFrom (token : Str) : Str → List Str
  | [] => flush token
  | character :: characters =>
      if character = '.' then flush token ++ ['.'] :: cutFrom [] characters
      else if isSqlTokenCharacter character then cutFrom (token ++ [character]) characters
      else flush token ++ cutFrom [] characters

/-- The words and dots of a plain text. -/
def cut (text : Str) : List Str :=
  cutFrom [] text

/-- Whether nothing is quoted in a text and no comment starts. -/
def isPlain : Str → Bool
  | [] => true
  | character :: characters =>
      (Sqlite.closing character).isNone && !(character == '-' && characters.head? == some '-') &&
        !(character == '/' && characters.head? == some '*') && isPlain characters

/-- Where a piece of text ends and the next one starts, no word goes on and no comment
starts. -/
def Separated (piece rest : Str) : Prop :=
  ∀ last first, piece.getLast? = some last → rest.head? = some first →
    (isSqlTokenCharacter last = true → isSqlTokenCharacter first = false) ∧
      (last = '-' → first ≠ '-') ∧ (last = '/' → first ≠ '*')

theorem isSqlTokenCharacter_dot : isSqlTokenCharacter '.' = false := by
  simp [isSqlTokenCharacter]

/-- A word ends where a character is no part of it. -/
theorem guardTokens_flush {token text : Str}
    (h : ∀ first, text.head? = some first → isSqlTokenCharacter first = true → token = []) :
    guardTokens token text = flush token ++ guardTokens [] text := by
  rcases text with _ | ⟨character, characters⟩
  · rw [guardTokens_nil, guardTokens_nil, flush, flush, if_pos rfl, List.append_nil]
  · by_cases htoken : token = []
    · rw [htoken, flush, if_pos rfl, List.nil_append]
    · have hcharacter : isSqlTokenCharacter character = false :=
        Bool.eq_false_iff.mpr fun hc => htoken (h character rfl hc)
      have hnil : flush [] = [] := rfl
      rw [guardTokens_cons, guardTokens_cons, guardStep, guardStep]
      split
      · simp [hnil]
      · split
        · simp [hnil]
        · split
          · simp [hnil]
          · split
            · simp [hnil]
            · simp [hcharacter, hnil]

/-- A character of a plain text: no quote, no start of a comment. -/
theorem guardStep_plain {character : Char} {characters : Str}
    (hquote : Sqlite.closing character = none)
    (hline : ¬ (character = '-' ∧ characters.head? = some '-'))
    (hblock : ¬ (character = '/' ∧ characters.head? = some '*')) (token : Str) :
    guardTokens token (character :: characters) =
      if character = '.' then flush token ++ ['.'] :: guardTokens [] characters
      else if isSqlTokenCharacter character then guardTokens (token ++ [character]) characters
      else flush token ++ guardTokens [] characters := by
  rw [guardTokens_cons, guardStep, if_neg hline, if_neg hblock, hquote]
  simp only
  split
  · rw [List.append_assoc]
    rfl
  · split
    · rw [List.nil_append]
    · rfl

/-- **Plain text** is cut into its words and dots, whatever follows it. -/
theorem guardTokens_plain {piece rest : Str} (hplain : isPlain piece = true)
    (hseparated : Separated piece rest) (token : Str)
    (htoken : piece = [] → ∀ first, rest.head? = some first →
      isSqlTokenCharacter first = true → token = []) :
    guardTokens token (piece ++ rest) = cutFrom token piece ++ guardTokens [] rest := by
  induction piece generalizing token with
  | nil => exact guardTokens_flush (htoken rfl)
  | cons character characters ih =>
      simp only [isPlain, Bool.and_eq_true, Bool.not_eq_true', Bool.and_eq_false_iff,
        beq_eq_false_iff_ne, Option.isNone_iff_eq_none] at hplain
      obtain ⟨⟨⟨hquote, hline⟩, hblock⟩, hrest⟩ := hplain
      -- the next character, in the piece or after it
      have hlast : ∀ last first, characters.getLast? = some last → rest.head? = some first → _ :=
        fun last first hl hf => hseparated last first
          (by rw [List.getLast?_cons, hl, Option.getD_some]) hf
      have hend : characters = [] → ∀ first, rest.head? = some first → _ :=
        fun hnil first hf => hseparated character first (by rw [hnil]; rfl) hf
      have hnext : ∀ d, (characters ++ rest).head? = some d →
          characters.head? = some d ∨ characters = [] ∧ rest.head? = some d := by
        intro d hd
        rcases characters with _ | ⟨c, characters⟩
        · exact .inr ⟨rfl, hd⟩
        · exact .inl hd
      have hline' : ¬ (character = '-' ∧ (characters ++ rest).head? = some '-') := by
        rintro ⟨rfl, hhead⟩
        rcases hnext _ hhead with hin | ⟨hnil, hafter⟩
        · exact hline.elim (fun hne => hne rfl) (fun hne => hne hin)
        · exact (hend hnil _ hafter).2.1 rfl rfl
      have hblock' : ¬ (character = '/' ∧ (characters ++ rest).head? = some '*') := by
        rintro ⟨rfl, hhead⟩
        rcases hnext _ hhead with hin | ⟨hnil, hafter⟩
        · exact hblock.elim (fun hne => hne rfl) (fun hne => hne hin)
        · exact (hend hnil _ hafter).2.2 rfl rfl
      rw [List.cons_append, guardStep_plain hquote hline' hblock', cutFrom]
      split
      · rw [ih hrest hlast [] fun _ _ _ _ => rfl, List.append_assoc, List.cons_append]
      · split
        · next hcharacter =>
            refine ih hrest hlast _ fun hnil first hf hfirst => ?_
            rw [(hend hnil first hf).1 hcharacter] at hfirst
            cases hfirst
        · rw [ih hrest hlast [] fun _ _ _ _ => rfl, List.append_assoc]

/-! ### The tokens of a lexeme -/

/-- The guard's tokens of a lexeme. -/
def readings : Lexeme → List Str
  | .space => []
  | .lineComment _ => []
  | .blockComment _ => []
  | .word text => cut text
  | .quoted delimiter content => [quotedToken delimiter content]
  | .unterminated delimiter text =>
      [quotedToken delimiter
        (collectQuotedIdentifier ((Sqlite.closing delimiter).getD delimiter) text).1]
  | .dot => [['.']]
  | .semicolon => []
  | .variable text => cut text
  | .other _ => []

/-- Whether a lexeme is no variable with quotes or comments in it. -/
def isPlainLexeme : Lexeme → Bool
  | .variable text => isPlain text
  | _ => true

/-- What is part of no name for SQLite is part of no token. -/
theorem isSqlTokenCharacter_of_not_idChar {c : Char} (h : Sqlite.isIdChar c = false) :
    isSqlTokenCharacter c = false := by
  simp only [Sqlite.isIdChar, Bool.or_eq_false_iff] at h
  rw [isSqlTokenCharacter, h.1.1.1, h.1.1.2]
  rfl

/-- White space is no part of any token. -/
theorem of_isSpace {c : Char} (h : Sqlite.isSpace c = true ∨ c = Sqlite.byteOrderMark) :
    Sqlite.closing c = none ∧ c ≠ '-' ∧ c ≠ '/' ∧ c ≠ '*' ∧ c ≠ '.' ∧
      isSqlTokenCharacter c = false := by
  rcases h with hspace | rfl
  · simp only [Sqlite.isSpace, Bool.or_eq_true, beq_iff_eq, Bool.and_eq_true,
      decide_eq_true_eq] at hspace
    rcases hspace with rfl | ⟨hle, hge⟩
    · decide
    · have hvalue : c.toNat = 9 ∨ c.toNat = 10 ∨ c.toNat = 11 ∨ c.toNat = 12 ∨ c.toNat = 13 := by
        omega
      have hchar : ∀ d : Char, c.toNat = d.toNat → c = d := fun d hd => Char.toNat_inj.mp hd
      rcases hvalue with hv | hv | hv | hv | hv
      · rw [hchar '\t' hv]
        decide
      · rw [hchar '\n' hv]
        decide
      · rw [hchar (Char.ofNat 11) hv]
        decide
      · rw [hchar (Char.ofNat 12) hv]
        decide
      · rw [hchar '\r' hv]
        decide
  · exact ⟨by decide, by decide, by decide, by decide, by decide, rfl⟩

/-- A character that is part of no token. -/
theorem guardTokens_skip {c : Char} {text : Str} (hquote : Sqlite.closing c = none)
    (hline : ¬ (c = '-' ∧ text.head? = some '-')) (hblock : ¬ (c = '/' ∧ text.head? = some '*'))
    (hdot : c ≠ '.') (hword : isSqlTokenCharacter c = false) :
    guardTokens [] (c :: text) = guardTokens [] text := by
  rw [guardStep_plain hquote hline hblock, if_neg hdot, if_neg (Bool.eq_false_iff.mp hword)]
  rfl

/-- White space is no token. -/
theorem guardTokens_space {c : Char} (h : Sqlite.isSpace c = true ∨ c = Sqlite.byteOrderMark)
    (text : Str) : guardTokens [] (c :: text) = guardTokens [] text := by
  obtain ⟨hquote, hminus, hslash, -, hdot, hword⟩ := of_isSpace h
  exact guardTokens_skip hquote (fun hl => hminus hl.1) (fun hb => hslash hb.1) hdot hword

/-- SQLite leaves the line break after a line comment, the guard takes it along. -/
theorem guardTokens_skipLineComment (text : Str) :
    guardTokens [] (skipLineComment text) = guardTokens [] (text.dropWhile (· ≠ '\n')) := by
  induction text with
  | nil => rfl
  | cons character characters ih =>
      rw [skipLineComment]
      by_cases hend : character = '\n'
      · subst hend
        rw [if_pos rfl, List.dropWhile_cons_of_neg (by simp),
          guardTokens_space (.inl (by decide))]
      · rw [if_neg hend, List.dropWhile_cons_of_pos (by simpa using hend)]
        exact ih

/-! ### Words -/

/-- The characters of a word open nothing. -/
theorem of_isIdChar {c : Char} (h : Sqlite.isIdChar c = true) :
    Sqlite.closing c = none ∧ c ≠ '-' ∧ c ≠ '/' ∧ c ≠ '.' := by
  refine ⟨?_, ?_, ?_, ?_⟩
  · rw [closing_eq, nameTerminator]
    have hne : c ≠ singleQuote ∧ c ≠ '"' ∧ c ≠ backquote ∧ c ≠ '[' := by
      refine ⟨?_, ?_, ?_, ?_⟩ <;> (rintro rfl; revert h; decide)
    simp [hne]
  · rintro rfl
    revert h
    decide
  · rintro rfl
    revert h
    decide
  · rintro rfl
    revert h
    decide

/-- A text of name characters is plain. -/
theorem isPlain_of_idChars {text : Str} (h : ∀ c ∈ text, Sqlite.isIdChar c = true) :
    isPlain text = true := by
  induction text with
  | nil => rfl
  | cons c text ih =>
      obtain ⟨hquote, hminus, hslash, -⟩ := of_isIdChar (h c List.mem_cons_self)
      rw [isPlain, ih fun d hd => h d (List.mem_cons_of_mem c hd)]
      simp [hquote, hminus, hslash]

/-- A piece that ends with a character of a word, before one that is none. -/
theorem separated_of_idChar {piece rest : Str}
    (hlast : ∀ c, piece.getLast? = some c → Sqlite.isIdChar c = true)
    (hrest : ∀ c, rest.head? = some c → Sqlite.isIdChar c = false) : Separated piece rest := by
  intro last first hl hf
  obtain ⟨-, hminus, hslash, -⟩ := of_isIdChar (hlast last hl)
  exact ⟨fun _ => isSqlTokenCharacter_of_not_idChar (hrest first hf),
    fun heq => absurd heq hminus, fun heq => absurd heq hslash⟩

/-- No name character follows a name. -/
theorem head_dropWhile_idChar (text : Str) (c : Char)
    (h : (text.dropWhile Sqlite.isIdChar).head? = some c) : Sqlite.isIdChar c = false := by
  have hnot := List.head?_dropWhile_not Sqlite.isIdChar text
  rw [h] at hnot
  exact hnot

/-- A word is cut into tokens, and the rest is read after it. -/
theorem guardTokens_word {c : Char} (h : Sqlite.isIdChar c = true) (text : Str) :
    guardTokens [] (c :: text) = cut (c :: text.takeWhile Sqlite.isIdChar) ++
      guardTokens [] (text.dropWhile Sqlite.isIdChar) := by
  have hall : ∀ d ∈ c :: text.takeWhile Sqlite.isIdChar, Sqlite.isIdChar d = true := by
    intro d hd
    rcases List.mem_cons.mp hd with rfl | htaken
    · exact h
    · exact List.mem_takeWhile_imp htaken
  have hseparated : Separated (c :: text.takeWhile Sqlite.isIdChar)
      (text.dropWhile Sqlite.isIdChar) :=
    separated_of_idChar (fun d hd => hall d (List.mem_of_getLast? hd)) (head_dropWhile_idChar text)
  have hcut := guardTokens_plain (isPlain_of_idChars hall) hseparated []
    (fun _ _ _ _ => rfl)
  rw [List.cons_append, List.takeWhile_append_dropWhile] at hcut
  exact hcut

/-! ### Variables -/

/-- The name of a variable is what is in front of the rest. -/
theorem readVariableName_append (text : Str) :
    (Sqlite.readVariableName text).1 ++ (Sqlite.readVariableName text).2 = text := by
  fun_induction Sqlite.readVariableName text with
  | case1 => rfl
  | case2 => rfl
  | case3 => rfl
  | case4 c d text _ rest ih => exact congrArg (c :: ·) ih
  | case5 c d text _ _ rest ih => exact congrArg (c :: d :: ·) ih
  | case6 => rfl

/-- The name of a variable ends before a character that is none of a word. -/
theorem head_readVariableName {text : Str} {c : Char}
    (h : (Sqlite.readVariableName text).2.head? = some c) : Sqlite.isIdChar c = false := by
  fun_induction Sqlite.readVariableName text with
  | case1 => cases h
  | case2 => cases h
  | case3 d hd =>
      obtain rfl := Option.some.inj h
      exact Bool.not_eq_true _ ▸ hd
  | case4 d e text _ rest ih => exact ih h
  | case5 d e text _ _ rest ih => exact ih h
  | case6 d e text hd _ =>
      obtain rfl := Option.some.inj h
      exact Bool.not_eq_true _ ▸ hd

/-- The name of a variable has characters of names and colons. -/
theorem mem_readVariableName {text : Str} {c : Char} (h : c ∈ (Sqlite.readVariableName text).1) :
    Sqlite.isIdChar c = true ∨ c = ':' := by
  fun_induction Sqlite.readVariableName text with
  | case1 => cases h
  | case2 d hd =>
      obtain rfl := List.mem_singleton.mp h
      exact .inl hd
  | case3 => cases h
  | case4 d e text hd rest ih =>
      rcases List.mem_cons.mp h with rfl | hrest
      · exact .inl hd
      · exact ih hrest
  | case5 d e text _ hcolons rest ih =>
      rcases List.mem_cons.mp h with rfl | hmem
      · exact .inr hcolons.1
      · rcases List.mem_cons.mp hmem with rfl | hrest
        · exact .inr hcolons.2
        · exact ih hrest
  | case6 => cases h

/-- The suffix of a variable is what is in front of the rest. -/
theorem readSuffix_append (text : Str) :
    (Sqlite.readSuffix text).1 ++ (Sqlite.readSuffix text).2 = text := by
  rcases text with _ | ⟨c, text⟩
  · rfl
  · rw [Sqlite.readSuffix]
    split
    · dsimp only
      split
      · next hclose =>
          obtain ⟨after, hafter⟩ := List.head?_eq_some_iff.mp hclose
          rw [List.cons_append, List.cons_append, List.append_assoc, hafter, List.tail_cons]
          change c :: (text.takeWhile Sqlite.inSuffix ++ ')' :: after) = _
          rw [← hafter, List.takeWhile_append_dropWhile]
      · rw [List.cons_append, List.takeWhile_append_dropWhile]
    · rfl

/-- A variable is what is in front of the rest. -/
theorem readVariable_append (c : Char) (text : Str) :
    (Sqlite.readVariable c text).1 ++ (Sqlite.readVariable c text).2 = c :: text := by
  rw [Sqlite.readVariable]
  dsimp only
  split
  · rw [List.append_assoc, readSuffix_append, List.cons_append, readVariableName_append]
  · rw [List.cons_append, readVariableName_append]

/-- The last character of a variable without a suffix opens nothing. -/
theorem separated_variableName {c : Char} (hc : Sqlite.startsVariable c = true) (text : Str) :
    Separated (c :: (Sqlite.readVariableName text).1) (Sqlite.readVariableName text).2 := by
  intro last first hlast hfirst
  have hminus : last ≠ '-' ∧ last ≠ '/' := by
    rcases List.mem_cons.mp (List.mem_of_getLast? hlast) with rfl | hname
    · constructor
      · rintro rfl
        revert hc
        decide
      · rintro rfl
        revert hc
        decide
    · rcases mem_readVariableName hname with hid | rfl
      · obtain ⟨-, hminus, hslash, -⟩ := of_isIdChar hid
        exact ⟨hminus, hslash⟩
      · decide
  exact ⟨fun _ => isSqlTokenCharacter_of_not_idChar (head_readVariableName hfirst),
    fun heq => absurd heq hminus.1, fun heq => absurd heq hminus.2⟩

/-- A suffix ends with its parenthesis, or before white space. -/
theorem separated_suffix {name text : Str} (hname : Separated name text) :
    Separated (name ++ (Sqlite.readSuffix text).1) (Sqlite.readSuffix text).2 := by
  rcases text with _ | ⟨c, text⟩
  · rwa [Sqlite.readSuffix, List.append_nil]
  · rw [Sqlite.readSuffix]
    split
    · dsimp only
      split
      · intro last first hlast _
        dsimp only at hlast
        rw [← List.append_assoc, List.getLast?_concat] at hlast
        obtain rfl := Option.some.inj hlast
        exact ⟨fun h => absurd h (by decide), fun h => absurd h (by decide),
          fun h => absurd h (by decide)⟩
      · next hopen =>
          intro last first _ hfirst
          have hnot := List.head?_dropWhile_not Sqlite.inSuffix text
          rw [hfirst] at hnot hopen
          have hspace : Sqlite.isSpace first = true := by
            have hne : first ≠ ')' := fun heq => hopen (congrArg some heq)
            simpa [Sqlite.inSuffix, hne] using hnot
          obtain ⟨-, hminus, -, hstar, -, hword⟩ := of_isSpace (.inl hspace)
          exact ⟨fun _ => hword, fun _ => hminus, fun _ => hstar⟩
    · rwa [List.append_nil]

/-- A variable is separated from what follows. -/
theorem separated_variable {c : Char} (hc : Sqlite.startsVariable c = true) (text : Str) :
    Separated (Sqlite.readVariable c text).1 (Sqlite.readVariable c text).2 := by
  rw [Sqlite.readVariable]
  dsimp only
  split
  · exact separated_suffix (separated_variableName hc text)
  · exact separated_variableName hc text

/-! ### Agreement -/

/-- **One lexeme**: the guard reads the tokens of a plain lexeme, and goes on where SQLite
does. -/
theorem guardTokens_lexeme (c : Char) (text : Str)
    (hplain : isPlainLexeme (Sqlite.lexeme c text).1 = true) :
    guardTokens [] (c :: text) =
      readings (Sqlite.lexeme c text).1 ++ guardTokens [] (Sqlite.lexeme c text).2 := by
  revert hplain
  rw [Sqlite.lexeme]
  split
  · next hspace => exact fun _ => guardTokens_space hspace text
  · next hspace =>
    split
    · next hline =>
        intro _
        rw [guardTokens_cons, guardStep, if_pos hline]
        exact guardTokens_skipLineComment text.tail
    · next hline =>
      split
      · next hblock =>
          intro _
          rw [guardTokens_cons, guardStep, if_neg hline, if_pos hblock, skipBlockComment_eq]
          rfl
      · next hblock =>
        rcases hclosing : Sqlite.closing c with _ | terminator
        · dsimp only
          split
          · next hdot =>
              intro _
              subst hdot
              rw [guardTokens_cons, guardStep, if_neg hline, if_neg hblock, hclosing]
              rfl
          · next hdot =>
            split
            · next hsemicolon =>
                intro _
                subst hsemicolon
                exact guardTokens_skip hclosing hline hblock hdot (by decide)
            · split
              · next hvariable =>
                  intro hplain
                  have hcut := guardTokens_plain hplain (separated_variable hvariable text) []
                    (fun _ _ _ _ => rfl)
                  rwa [readVariable_append] at hcut
              · split
                · next hid => exact fun _ => guardTokens_word hid text
                · next hid =>
                    intro _
                    exact guardTokens_skip hclosing hline hblock hdot
                      (isSqlTokenCharacter_of_not_idChar (Bool.not_eq_true _ ▸ hid))
        · dsimp only
          obtain ⟨hsome, hnone⟩ := collectQuotedIdentifier_eq hclosing text
          rcases hread : Sqlite.readQuoted terminator text with _ | ⟨content, rest⟩
          · intro _
            rw [guardTokens_cons, guardStep, if_neg hline, if_neg hblock, hclosing]
            simp only [hnone hread, readings, hclosing, Option.getD_some]
            rfl
          · intro _
            rw [guardTokens_cons, guardStep, if_neg hline, if_neg hblock, hclosing]
            simp only [hsome content rest hread, readings]
            rfl

/-- **The guard's tokens are those of SQLite's lexemes**, one after the other, as long as the
variables of the text are plain. -/
theorem sqlTokens_eq_flatMap {sql : Str} (h : (Sqlite.lexemes sql).all isPlainLexeme = true) :
    sqlTokens sql = (Sqlite.lexemes sql).flatMap readings := by
  rw [sqlTokens_eq]
  induction hlength : sql.length using Nat.strong_induction_on generalizing sql with
  | _ n ih =>
      rcases sql with _ | ⟨c, text⟩
      · rfl
      · rw [Sqlite.lexemes_cons, List.all_cons, Bool.and_eq_true] at h
        have hleft := Sqlite.length_lexeme c text
        rw [List.length_cons] at hlength
        rw [guardTokens_lexeme c text h.1, Sqlite.lexemes_cons, List.flatMap_cons,
          ih (Sqlite.lexeme c text).2.length (by omega) h.2 rfl]

end SovriAgent
