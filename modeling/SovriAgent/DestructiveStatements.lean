import SovriAgent.GuardReading

/-!
# Destructive Statements

A statement of a text is destructive when, as SQLite lexes it, it drops or renames a table
of the persisted corpus or drops one of its columns. The guard looks for such statements in
the words it reads. The words of a text are those of its lexemes (`words`), where a bare
name with a dollar sign or with characters beyond ASCII is cut, and so the guard misses some
statements that have such a name in them.

## Main results

* `destructiveOperationFrom_isSome_iff`: what the guard's search finds.
* `Destructive.asksDestruction`: a statement whose names are read whole is read as one.
* `showsDestruction_of_readWhole`: names that are read whole are enough.
-/

namespace SovriAgent

open Sqlite (Lexeme)

/-! ### Statements of a text -/

/-- White space and comments. -/
def isSkipped : Lexeme → Bool
  | .space => true
  | .lineComment _ => true
  | .blockComment _ => true
  | _ => false

/-- The lexemes of a text but for white space and comments. -/
def significant (sql : Str) : List Lexeme :=
  (Sqlite.lexemes sql).filter fun lexeme => !isSkipped lexeme

/-- The name a lexeme stands for: a word that starts with no digit, or a text in any of the
four kinds of quotes. -/
def nameOf : Lexeme → Option Str
  | .word [] => none
  | .word (c :: text) => if c.isDigit then none else some (c :: text)
  | .quoted _ content => some content
  | _ => none

/-- The lexeme is a keyword, in any case. -/
def IsWord (keyword : String) (lexeme : Lexeme) : Prop :=
  ∃ text, lexeme = .word text ∧ isKeyword keyword text = true

/-- The lexeme names a table of the persisted corpus, in any case. -/
def NamesCorpusTable (lexeme : Lexeme) : Prop :=
  ∃ name, nameOf lexeme = some name ∧ asciiLowercase name ∈ persistedCorpusTables

/-- A table of the persisted corpus, with or without its schema; the schema is the second
index. -/
inductive TableReference : List Lexeme → List Lexeme → Prop
  | bare {table : Lexeme} (htable : NamesCorpusTable table) : TableReference [table] []
  | qualified {schema table : Lexeme} (hschema : (nameOf schema).isSome = true)
      (htable : NamesCorpusTable table) : TableReference [schema, .dot, table] [schema]

/-- A destructive statement, with the names in it that may be any: the schema, and the
column where it follows `DROP`. -/
inductive Destructive : List Lexeme → List Lexeme → Prop
  | dropTable {drop table : Lexeme} {reference names : List Lexeme} (hdrop : IsWord "DROP" drop)
      (htable : IsWord "TABLE" table) (href : TableReference reference names) :
      Destructive (drop :: table :: reference) names
  | dropTableIfExists {drop table condition exist : Lexeme} {reference names : List Lexeme}
      (hdrop : IsWord "DROP" drop) (htable : IsWord "TABLE" table) (hif : IsWord "IF" condition)
      (hexists : IsWord "EXISTS" exist) (href : TableReference reference names) :
      Destructive (drop :: table :: condition :: exist :: reference) names
  | dropColumn {alter table drop column : Lexeme} {reference names rest : List Lexeme} {name : Str}
      (halter : IsWord "ALTER" alter) (htable : IsWord "TABLE" table)
      (href : TableReference reference names) (hdrop : IsWord "DROP" drop)
      (hcolumn : nameOf column = some name) (hname : isKeyword "CONSTRAINT" name = false) :
      Destructive (alter :: table :: (reference ++ drop :: column :: rest)) (column :: names)
  | dropColumnKeyword {alter table drop keyword column : Lexeme}
      {reference names rest : List Lexeme} (halter : IsWord "ALTER" alter)
      (htable : IsWord "TABLE" table) (href : TableReference reference names)
      (hdrop : IsWord "DROP" drop) (hkeyword : IsWord "COLUMN" keyword)
      (hcolumn : (nameOf column).isSome = true) :
      Destructive (alter :: table :: (reference ++ drop :: keyword :: column :: rest)) names
  | rename {alter table renamed : Lexeme} {reference names rest : List Lexeme}
      (halter : IsWord "ALTER" alter) (htable : IsWord "TABLE" table)
      (href : TableReference reference names) (hrename : IsWord "RENAME" renamed) :
      Destructive (alter :: table :: (reference ++ renamed :: rest)) names

/-- A destructive statement stands in a text, between semicolons or the ends of it. -/
structure StandsIn (sql : Str) (statement names after : List Lexeme) : Prop where
  place : ∃ before, significant sql = before ++ statement ++ after ∧
    (before = [] ∨ before.getLast? = some .semicolon)
  ends : after = [] ∨ after.head? = some .semicolon
  destructive : Destructive statement names

/-- The text contains a destructive statement, as SQLite lexes it. -/
def ContainsDestructive (sql : Str) : Prop :=
  ∃ statement names after, StandsIn sql statement names after

/-- The guard misses no statement: it finds an operation if there is one. -/
def NoFalseNegative (sql : Str) : Prop :=
  ContainsDestructive sql → (destructiveMigrationOperation sql).isSome = true

/-! ### The words of a text -/

/-- The words the guard reads in the lexemes of a text. -/
def words (sql : Str) : List Str :=
  (Sqlite.lexemes sql).flatMap readings

/-- The words begin with a table of the persisted corpus, with or without a schema; the second
index is what follows. -/
inductive CorpusTable : List Str → List Str → Prop
  | bare {table : Str} {rest : List Str} (hdot : rest.head? ≠ some ['.'])
      (htable : canonicalSqlIdentifier table ∈ persistedCorpusTables) :
      CorpusTable (table :: rest) rest
  | qualified {schema table : Str} {rest : List Str}
      (htable : canonicalSqlIdentifier table ∈ persistedCorpusTables) :
      CorpusTable (schema :: ['.'] :: table :: rest) rest

/-- The words begin with a destructive operation. -/
inductive AsksDestruction : List Str → Prop
  | dropTable {drop table : Str} {named rest : List Str} (hdrop : isKeyword "DROP" drop = true)
      (htable : isKeyword "TABLE" table = true) (hnamed : CorpusTable (skipIfExists named) rest) :
      AsksDestruction (drop :: table :: named)
  | dropColumn {alter table drop column : Str} {named rest : List Str}
      (halter : isKeyword "ALTER" alter = true) (htable : isKeyword "TABLE" table = true)
      (hnamed : CorpusTable named (drop :: column :: rest)) (hdrop : isKeyword "DROP" drop = true)
      (hcolumn : isKeyword "CONSTRAINT" column = false) :
      AsksDestruction (alter :: table :: named)
  | rename {alter table renamed : Str} {named rest : List Str}
      (halter : isKeyword "ALTER" alter = true) (htable : isKeyword "TABLE" table = true)
      (hnamed : CorpusTable named (renamed :: rest)) (hrename : isKeyword "RENAME" renamed = true) :
      AsksDestruction (alter :: table :: named)

/-- Somewhere in the words there is a destructive operation. -/
def ShowsDestruction (words : List Str) : Prop :=
  ∃ before asked, words = before ++ asked ∧ AsksDestruction asked

/-! ### What the search finds -/

theorem isKeyword_exclusive {token : Str} {keyword other : String}
    (h : isKeyword keyword token = true) (hother : isKeyword other token = true) :
    asciiLowercase keyword.toList = asciiLowercase other.toList := by
  simp only [isKeyword, eqIgnoreAsciiCase, beq_iff_eq] at h hother
  exact h.symm.trans hother

theorem corpusTable_iff {named rest : List Str} :
    CorpusTable named rest ↔
      ∃ table, sqlTableName named = some (table, rest) ∧ table ∈ persistedCorpusTables := by
  constructor
  · rintro (⟨hdot, htable⟩ | htable)
    · exact ⟨_, by rw [sqlTableName, if_neg hdot], htable⟩
    · exact ⟨_, rfl, htable⟩
  · rintro ⟨table, hnamed, htable⟩
    rcases named with _ | ⟨first, rest'⟩
    · cases hnamed
    · rw [sqlTableName] at hnamed
      split at hnamed
      · next hdot =>
          obtain ⟨tail, rfl⟩ := List.head?_eq_some_iff.mp hdot
          rcases tail with _ | ⟨second, tail⟩
          · cases hnamed
          · obtain ⟨rfl, rfl⟩ := Prod.mk.inj (Option.some.inj hnamed)
            exact .qualified htable
      · next hdot =>
          obtain ⟨rfl, rfl⟩ := Prod.mk.inj (Option.some.inj hnamed)
          exact .bare hdot htable

theorem not_corpusTable {named : List Str} (h : sqlTableName named = none) (rest : List Str) :
    ¬ CorpusTable named rest := by
  intro hcorpus
  obtain ⟨table, hnamed, -⟩ := corpusTable_iff.mp hcorpus
  rw [h] at hnamed
  cases hnamed

theorem corpusTable_of_some {named rest : List Str} {table : Str}
    (h : sqlTableName named = some (table, rest)) (after : List Str) :
    CorpusTable named after ↔ after = rest ∧ table ∈ persistedCorpusTables := by
  rw [corpusTable_iff, h]
  constructor
  · rintro ⟨table', heq, hcorpus⟩
    obtain ⟨rfl, rfl⟩ := Prod.mk.inj (Option.some.inj heq)
    exact ⟨rfl, hcorpus⟩
  · rintro ⟨rfl, hcorpus⟩
    exact ⟨table, rfl, hcorpus⟩

theorem dropTableOperation_isSome_iff {named : List Str} :
    (dropTableOperation named).isSome = true ↔ ∃ rest, CorpusTable (skipIfExists named) rest := by
  rw [dropTableOperation]
  rcases htable : sqlTableName (skipIfExists named) with _ | ⟨table, rest⟩
  · exact iff_of_false Bool.false_ne_true fun ⟨rest, hnamed⟩ => not_corpusTable htable rest hnamed
  · rw [Option.bind_some]
    by_cases hcorpus : table ∈ persistedCorpusTables
    · rw [if_pos hcorpus]
      exact iff_of_true rfl ⟨rest, (corpusTable_of_some htable rest).mpr ⟨rfl, hcorpus⟩⟩
    · rw [if_neg hcorpus]
      exact iff_of_false Bool.false_ne_true fun ⟨after, hnamed⟩ =>
        hcorpus ((corpusTable_of_some htable after).mp hnamed).2

/-- What follows the table in a destructive `ALTER TABLE`. -/
def AltersTable (rest : List Str) : Prop :=
  (∃ drop column tail, rest = drop :: column :: tail ∧ isKeyword "DROP" drop = true ∧
    isKeyword "CONSTRAINT" column = false) ∨
  ∃ renamed tail, rest = renamed :: tail ∧ isKeyword "RENAME" renamed = true

theorem altersTable_iff {rest : List Str} :
    AltersTable rest ↔
      (rest.head?.any (isKeyword "DROP") = true ∧
        (rest.tail.head?.any fun token => !isKeyword "CONSTRAINT" token) = true) ∨
      rest.head?.any (isKeyword "RENAME") = true := by
  rcases rest with _ | ⟨first, _ | ⟨second, tail⟩⟩
  · simp [AltersTable]
  · simp [AltersTable]
  · simp [AltersTable]

theorem alterTableOperation_isSome_iff {named : List Str} :
    (alterTableOperation named).isSome = true ↔
      ∃ rest, CorpusTable named rest ∧ AltersTable rest := by
  rw [alterTableOperation]
  rcases htable : sqlTableName named with _ | ⟨table, rest⟩
  · exact iff_of_false Bool.false_ne_true fun ⟨rest, hnamed, _⟩ =>
      not_corpusTable htable rest hnamed
  · rw [Option.bind_some]
    by_cases hcorpus : table ∈ persistedCorpusTables
    · have hnamed : (∃ after, CorpusTable named after ∧ AltersTable after) ↔ AltersTable rest := by
        constructor
        · rintro ⟨after, hafter, halters⟩
          rwa [((corpusTable_of_some htable after).mp hafter).1] at halters
        · exact fun halters =>
            ⟨rest, (corpusTable_of_some htable rest).mpr ⟨rfl, hcorpus⟩, halters⟩
      rw [if_pos hcorpus, hnamed, altersTable_iff]
      split
      · next hdrop => exact iff_of_true rfl (.inl hdrop)
      · next hdrop =>
          split
          · next hrename => exact iff_of_true rfl (.inr hrename)
          · next hrename =>
              exact iff_of_false Bool.false_ne_true fun h => h.elim hdrop hrename
    · rw [if_neg hcorpus]
      exact iff_of_false Bool.false_ne_true fun ⟨after, hnamed, _⟩ =>
        hcorpus ((corpusTable_of_some htable after).mp hnamed).2

/-- The operation at the front of the words. -/
theorem operationAt_isSome_iff {first second : Str} {named : List Str} :
    (operationAt first second named).isSome = true ↔
      AsksDestruction (first :: second :: named) := by
  rw [operationAt]
  by_cases hdrop : isKeyword "DROP" first = true ∧ isKeyword "TABLE" second = true
  · rw [if_pos hdrop, dropTableOperation_isSome_iff]
    constructor
    · rintro ⟨rest, hnamed⟩
      exact .dropTable hdrop.1 hdrop.2 hnamed
    · intro h
      cases h with
      | dropTable _ _ hnamed => exact ⟨_, hnamed⟩
      | dropColumn halter =>
          exact absurd (isKeyword_exclusive hdrop.1 halter) (by decide)
      | rename halter =>
          exact absurd (isKeyword_exclusive hdrop.1 halter) (by decide)
  · rw [if_neg hdrop]
    by_cases halter : isKeyword "ALTER" first = true ∧ isKeyword "TABLE" second = true
    · rw [if_pos halter, alterTableOperation_isSome_iff]
      constructor
      · rintro ⟨rest, hnamed, hrest⟩
        rcases hrest with ⟨drop, column, tail, rfl, hkeyword, hcolumn⟩ | ⟨renamed, tail, rfl, hrename⟩
        · exact .dropColumn halter.1 halter.2 hnamed hkeyword hcolumn
        · exact .rename halter.1 halter.2 hnamed hrename
      · intro h
        cases h with
        | dropTable hfirst htable => exact absurd ⟨hfirst, htable⟩ hdrop
        | dropColumn _ _ hnamed hkeyword hcolumn =>
            exact ⟨_, hnamed, .inl ⟨_, _, _, rfl, hkeyword, hcolumn⟩⟩
        | rename _ _ hnamed hrename => exact ⟨_, hnamed, .inr ⟨_, _, rfl, hrename⟩⟩
    · rw [if_neg halter]
      constructor
      · exact fun h => absurd h (by simp)
      · intro h
        cases h with
        | dropTable hfirst htable => exact absurd ⟨hfirst, htable⟩ hdrop
        | dropColumn hfirst htable => exact absurd ⟨hfirst, htable⟩ halter
        | rename hfirst htable => exact absurd ⟨hfirst, htable⟩ halter

/-- A destructive operation has three words at least. -/
theorem AsksDestruction.exists_cons {asked : List Str} (h : AsksDestruction asked) :
    ∃ first second third rest, asked = first :: second :: third :: rest := by
  have hnamed : ∀ {named rest : List Str}, CorpusTable named rest → named ≠ [] := by
    rintro named rest (_ | _) <;> simp
  cases h with
  | @dropTable drop table named rest _ _ hcorpus =>
      rcases named with _ | ⟨third, tail⟩
      · exact absurd rfl (hnamed hcorpus)
      · exact ⟨_, _, _, _, rfl⟩
  | @dropColumn alter table drop column named rest _ _ hcorpus =>
      rcases named with _ | ⟨third, tail⟩
      · exact absurd rfl (hnamed hcorpus)
      · exact ⟨_, _, _, _, rfl⟩
  | @rename alter table renamed named rest _ _ hcorpus =>
      rcases named with _ | ⟨third, tail⟩
      · exact absurd rfl (hnamed hcorpus)
      · exact ⟨_, _, _, _, rfl⟩

/-- One word off the front. -/
theorem showsDestruction_cons {word : Str} {rest : List Str} :
    ShowsDestruction (word :: rest) ↔ AsksDestruction (word :: rest) ∨ ShowsDestruction rest := by
  constructor
  · rintro ⟨before, asked, heq, hasked⟩
    rcases before with _ | ⟨first, before⟩
    · exact .inl (heq ▸ hasked)
    · obtain ⟨rfl, rfl⟩ := List.cons.inj heq
      exact .inr ⟨before, asked, rfl, hasked⟩
  · rintro (hasked | ⟨before, asked, rfl, hasked⟩)
    · exact ⟨[], _, rfl, hasked⟩
    · exact ⟨word :: before, asked, rfl, hasked⟩

/-- **The search** finds an operation exactly when the words show one. -/
theorem destructiveOperationFrom_isSome_iff {words : List Str} :
    (destructiveOperationFrom words).isSome = true ↔ ShowsDestruction words := by
  fun_induction destructiveOperationFrom words with
  | case1 first second third rest ih =>
      rw [Option.isSome_or, Bool.or_eq_true, operationAt_isSome_iff, ih, ← showsDestruction_cons]
  | case2 words hshort =>
      constructor
      · exact fun h => absurd h (by simp)
      · rintro ⟨before, asked, rfl, hasked⟩
        obtain ⟨first, second, third, rest, rfl⟩ := hasked.exists_cons
        rcases before with _ | ⟨a, _ | ⟨b, _ | ⟨c, before⟩⟩⟩
        · exact absurd rfl (hshort _ _ _ _)
        · exact absurd rfl (hshort _ _ _ _)
        · exact absurd rfl (hshort _ _ _ _)
        · exact absurd rfl (hshort _ _ _ _)

/-! ### Names that are read whole -/

/-- The guard reads the lexeme as one word: the text of a bare name is of ASCII letters, digits
and underscores. -/
def Whole : Lexeme → Prop
  | .word text => ∀ character ∈ text, isSqlTokenCharacter character = true
  | .quoted _ _ => True
  | _ => False

/-- A destructive statement stands in the text whose names are read whole, and no dot follows
it. -/
def ReadWhole (sql : Str) : Prop :=
  ∃ statement names after, StandsIn sql statement names after ∧ (∀ name ∈ names, Whole name) ∧
    (after.flatMap readings).head? ≠ some ['.']

theorem isSqlTokenCharacter_toLower (character : Char) :
    isSqlTokenCharacter character.toLower = isSqlTokenCharacter character := by
  by_cases hupper : character.isUpper = true
  · have halpha : character.isAlpha = true := by rw [Char.isAlpha, hupper, Bool.true_or]
    have hlower : character.toLower.isAlpha = true := by
      rw [Char.isAlpha_toLower_eq_isAlpha, halpha]
    rw [isSqlTokenCharacter, isSqlTokenCharacter, Char.isAlphanum, Char.isAlphanum, halpha, hlower]
    rfl
  · rw [Char.toLower_eq_of_not_isUpper hupper]

/-- The case of the letters does not matter. -/
theorem tokenCharacters_of_asciiLowercase {text : Str}
    (h : (asciiLowercase text).all isSqlTokenCharacter = true) :
    ∀ character ∈ text, isSqlTokenCharacter character = true := by
  intro character hmem
  have hlower := List.all_eq_true.mp h _ (List.mem_map_of_mem hmem)
  rwa [isSqlTokenCharacter_toLower] at hlower

theorem tokenCharacters_of_corpusTable {name : Str}
    (h : asciiLowercase name ∈ persistedCorpusTables) :
    ∀ character ∈ name, isSqlTokenCharacter character = true := by
  have hall : ∀ table ∈ persistedCorpusTables, table.all isSqlTokenCharacter = true := by
    decide +kernel
  exact tokenCharacters_of_asciiLowercase (hall _ h)

theorem cutFrom_of_tokenCharacters {text : Str}
    (h : ∀ character ∈ text, isSqlTokenCharacter character = true) (token : Str) :
    cutFrom token text = flush (token ++ text) := by
  induction text generalizing token with
  | nil => rw [cutFrom, List.append_nil]
  | cons character characters ih =>
      have hcharacter := h character List.mem_cons_self
      have hdot : character ≠ '.' := by
        rintro rfl
        rw [isSqlTokenCharacter_dot] at hcharacter
        cases hcharacter
      rw [cutFrom, if_neg hdot, if_pos hcharacter,
        ih (fun d hd => h d (List.mem_cons_of_mem character hd)), List.append_assoc]
      rfl

/-- A word of ASCII letters, digits and underscores is one word. -/
theorem cut_of_tokenCharacters {text : Str}
    (h : ∀ character ∈ text, isSqlTokenCharacter character = true) (hne : text ≠ []) :
    cut text = [text] := by
  rw [cut, cutFrom_of_tokenCharacters h, List.nil_append, flush, if_neg hne]

theorem not_isIdentifierQuote {character : Char} (h : isSqlTokenCharacter character = true) :
    isIdentifierQuote character = false := by
  rw [Bool.eq_false_iff]
  intro hquote
  simp only [isIdentifierQuote, Bool.or_eq_true, beq_iff_eq] at hquote
  rcases hquote with (((rfl | rfl) | rfl) | rfl) | rfl <;> exact absurd h (by decide)

theorem dropWhile_isIdentifierQuote {text : Str}
    (h : ∀ character ∈ text, isSqlTokenCharacter character = true) :
    text.dropWhile isIdentifierQuote = text := by
  rcases text with _ | ⟨character, characters⟩
  · rfl
  · rw [List.dropWhile_cons_of_neg]
    rw [not_isIdentifierQuote (h character List.mem_cons_self)]
    exact Bool.false_ne_true

theorem canonicalSqlIdentifier_of_tokenCharacters {text : Str}
    (h : ∀ character ∈ text, isSqlTokenCharacter character = true) :
    canonicalSqlIdentifier text = asciiLowercase text := by
  rw [canonicalSqlIdentifier, dropWhile_isIdentifierQuote h,
    dropWhile_isIdentifierQuote fun c hc => h c (List.mem_reverse.mp hc), List.reverse_reverse]

/-- The quotes of a literal are trimmed off. -/
theorem canonicalSqlIdentifier_quotedToken (delimiter : Char) {content : Str}
    (h : ∀ character ∈ content, isSqlTokenCharacter character = true) (hne : content ≠ []) :
    canonicalSqlIdentifier (quotedToken delimiter content) = asciiLowercase content := by
  rw [quotedToken]
  split
  · obtain ⟨first, rest, rfl⟩ := List.exists_cons_of_ne_nil hne
    have hfirst : ¬ isIdentifierQuote first = true := by
      rw [not_isIdentifierQuote (h first List.mem_cons_self)]
      exact Bool.false_ne_true
    rw [canonicalSqlIdentifier, List.dropWhile_cons_of_pos (by decide), List.cons_append,
      List.dropWhile_cons_of_neg hfirst, ← List.cons_append, List.reverse_append,
      List.reverse_singleton, List.singleton_append, List.dropWhile_cons_of_pos (by decide),
      dropWhile_isIdentifierQuote fun c hc => h c (List.mem_reverse.mp hc), List.reverse_reverse]
  · exact canonicalSqlIdentifier_of_tokenCharacters h

/-! ### The words of a statement -/

theorem readings_of_isSkipped {lexeme : Lexeme} (h : isSkipped lexeme = true) : readings lexeme = [] := by
  cases lexeme with
  | space => rfl
  | lineComment => rfl
  | blockComment => rfl
  | _ => cases h

/-- White space and comments have no words. -/
theorem words_eq_significant (sql : Str) : words sql = (significant sql).flatMap readings := by
  rw [words, significant]
  induction Sqlite.lexemes sql with
  | nil => rfl
  | cons lexeme rest ih =>
      rw [List.flatMap_cons, ih, List.filter_cons]
      split
      · rw [List.flatMap_cons]
      · next hskipped =>
          rw [readings_of_isSkipped (by simpa using hskipped), List.nil_append]

theorem IsWord.readings_eq {keyword : String} {lexeme : Lexeme} (h : IsWord keyword lexeme)
    (hall : (asciiLowercase keyword.toList).all isSqlTokenCharacter = true)
    (hne : asciiLowercase keyword.toList ≠ []) :
    ∃ word, readings lexeme = [word] ∧ isKeyword keyword word = true := by
  obtain ⟨text, rfl, hkeyword⟩ := h
  have hlower : asciiLowercase text = asciiLowercase keyword.toList := beq_iff_eq.mp hkeyword
  have htext : text ≠ [] := by
    rintro rfl
    exact hne hlower.symm
  exact ⟨text, cut_of_tokenCharacters (tokenCharacters_of_asciiLowercase (hlower ▸ hall)) htext,
    hkeyword⟩

/-- A table of the corpus is one word, with its name. -/
theorem NamesCorpusTable.readings_eq {lexeme : Lexeme} (h : NamesCorpusTable lexeme) :
    ∃ word, readings lexeme = [word] ∧ canonicalSqlIdentifier word ∈ persistedCorpusTables := by
  obtain ⟨name, hname, htable⟩ := h
  have hall := tokenCharacters_of_corpusTable htable
  have hne : name ≠ [] := by
    rintro rfl
    exact absurd htable (by decide)
  cases lexeme with
  | word text =>
      have heq : name = text := by
        rcases text with _ | ⟨c, text⟩
        · cases hname
        · rw [nameOf] at hname
          split at hname
          · cases hname
          · exact (Option.some.inj hname).symm
      subst heq
      exact ⟨name, cut_of_tokenCharacters hall hne, by
        rwa [canonicalSqlIdentifier_of_tokenCharacters hall]⟩
  | quoted delimiter content =>
      obtain rfl := Option.some.inj hname
      exact ⟨_, rfl, by rwa [canonicalSqlIdentifier_quotedToken delimiter hall hne]⟩
  | _ => cases hname

/-- A name that is read whole is one word; it is `CONSTRAINT` only if the name is. -/
theorem Whole.readings_eq {lexeme : Lexeme} {name : Str} (h : Whole lexeme)
    (hname : nameOf lexeme = some name) :
    ∃ word, readings lexeme = [word] ∧
      (isKeyword "CONSTRAINT" name = false → isKeyword "CONSTRAINT" word = false) := by
  cases lexeme with
  | word text =>
      rcases text with _ | ⟨c, text⟩
      · cases hname
      · rw [nameOf] at hname
        split at hname
        · cases hname
        · obtain rfl := Option.some.inj hname
          exact ⟨_, cut_of_tokenCharacters h (List.cons_ne_nil c text), id⟩
  | quoted delimiter content =>
      obtain rfl := Option.some.inj hname
      refine ⟨_, rfl, fun hcolumn => ?_⟩
      rw [quotedToken]
      split
      · rfl
      · exact hcolumn
  | _ => cases hname

theorem CorpusTable.ne_ifExists {named rest : List Str} (h : CorpusTable named rest) :
    skipIfExists named = named := by
  rw [skipIfExists, if_neg]
  rintro ⟨hif, hexists⟩
  cases h with
  | bare hdot htable =>
      have hlower := beq_iff_eq.mp hif
      rw [canonicalSqlIdentifier_of_tokenCharacters
        (tokenCharacters_of_asciiLowercase (by rw [hlower]; decide)), hlower] at htable
      exact absurd htable (by decide)
  | qualified htable => exact absurd hexists (show ¬ isKeyword "EXISTS" ['.'] = true by decide)

/-- No keyword is a dot. -/
theorem head_ne_dot {keyword : String} {word : Str} (h : isKeyword keyword word = true)
    (hkeyword : isKeyword keyword ['.'] = false) (rest : List Str) :
    (word :: rest).head? ≠ some ['.'] := by
  intro heq
  obtain rfl := Option.some.inj heq
  rw [hkeyword] at h
  cases h

/-- The words of a reference to a table of the corpus. -/
theorem TableReference.corpusTable {reference schemas : List Lexeme}
    (h : TableReference reference schemas) (hwhole : ∀ schema ∈ schemas, Whole schema)
    {rest : List Str} (hdot : rest.head? ≠ some ['.']) :
    CorpusTable (reference.flatMap readings ++ rest) rest := by
  cases h with
  | bare htable =>
      obtain ⟨word, hword, hcorpus⟩ := htable.readings_eq
      rw [List.flatMap_singleton, hword]
      exact .bare hdot hcorpus
  | qualified hschema htable =>
      obtain ⟨name, hname⟩ := Option.isSome_iff_exists.mp hschema
      obtain ⟨schema, hread, -⟩ := (hwhole _ List.mem_cons_self).readings_eq hname
      obtain ⟨word, hword, hcorpus⟩ := htable.readings_eq
      rw [List.flatMap_cons, List.flatMap_cons, List.flatMap_singleton, hread, hword]
      exact .qualified hcorpus

/-- **A destructive statement is read as one** where its names are read whole and no dot
follows it. -/
theorem Destructive.asksDestruction {statement names : List Lexeme}
    (h : Destructive statement names) (hwhole : ∀ name ∈ names, Whole name) {after : List Str}
    (hdot : after.head? ≠ some ['.']) :
    AsksDestruction (statement.flatMap readings ++ after) := by
  cases h with
  | dropTable hdrop htable href =>
      obtain ⟨drop, hread, hkeyword⟩ := hdrop.readings_eq (by decide) (by decide)
      obtain ⟨table, hread', htable'⟩ := htable.readings_eq (by decide) (by decide)
      have hnamed := href.corpusTable hwhole hdot
      have hskip := hnamed
      rw [← hnamed.ne_ifExists] at hskip
      simp only [List.flatMap_cons, hread, hread', List.cons_append, List.nil_append]
      exact .dropTable hkeyword htable' hskip
  | @dropTableIfExists _ _ _ _ reference _ hdrop htable hif hexists href =>
      obtain ⟨drop, hread, hkeyword⟩ := hdrop.readings_eq (by decide) (by decide)
      obtain ⟨table, hread', htable'⟩ := htable.readings_eq (by decide) (by decide)
      obtain ⟨condition, hreadIf, hif'⟩ := hif.readings_eq (by decide) (by decide)
      obtain ⟨exist, hreadExists, hexists'⟩ := hexists.readings_eq (by decide) (by decide)
      have hnamed := href.corpusTable hwhole hdot
      simp only [List.flatMap_cons, hread, hread', hreadIf, hreadExists, List.cons_append,
        List.nil_append]
      have hskip : skipIfExists (condition :: exist :: (reference.flatMap readings ++ after)) =
          reference.flatMap readings ++ after := if_pos ⟨hif', hexists'⟩
      rw [← hskip] at hnamed
      exact .dropTable hkeyword htable' hnamed
  | @dropColumn _ _ _ column _ _ rest _ halter htable href hdrop hcolumn hname =>
      obtain ⟨alter, hread, hkeyword⟩ := halter.readings_eq (by decide) (by decide)
      obtain ⟨table, hread', htable'⟩ := htable.readings_eq (by decide) (by decide)
      obtain ⟨drop, hreadDrop, hdrop'⟩ := hdrop.readings_eq (by decide) (by decide)
      obtain ⟨word, hreadColumn, hword⟩ :=
        (hwhole column List.mem_cons_self).readings_eq hcolumn
      have hnamed := href.corpusTable (fun s hs => hwhole s (List.mem_cons_of_mem column hs))
        (head_ne_dot hdrop' (by decide) (word :: (rest.flatMap readings ++ after)))
      simp only [List.flatMap_cons, List.flatMap_append, hread, hread', hreadDrop, hreadColumn,
        List.cons_append, List.nil_append, List.append_assoc]
      exact .dropColumn hkeyword htable' hnamed hdrop' (hword hname)
  | @dropColumnKeyword _ _ _ keyword column _ _ rest halter htable href hdrop hcolumn _ =>
      obtain ⟨alter, hread, hkeyword⟩ := halter.readings_eq (by decide) (by decide)
      obtain ⟨table, hread', htable'⟩ := htable.readings_eq (by decide) (by decide)
      obtain ⟨drop, hreadDrop, hdrop'⟩ := hdrop.readings_eq (by decide) (by decide)
      obtain ⟨word, hreadColumn, hword⟩ := hcolumn.readings_eq (by decide) (by decide)
      have hnamed := href.corpusTable hwhole (head_ne_dot hdrop' (by decide)
        (word :: (readings column ++ (rest.flatMap readings ++ after))))
      simp only [List.flatMap_cons, List.flatMap_append, hread, hread', hreadDrop, hreadColumn,
        List.cons_append, List.nil_append, List.append_assoc]
      refine .dropColumn hkeyword htable' hnamed hdrop' (Bool.eq_false_iff.mpr fun hconstraint => ?_)
      exact absurd (isKeyword_exclusive hword hconstraint) (by decide)
  | @rename _ _ _ _ _ rest halter htable href hrename =>
      obtain ⟨alter, hread, hkeyword⟩ := halter.readings_eq (by decide) (by decide)
      obtain ⟨table, hread', htable'⟩ := htable.readings_eq (by decide) (by decide)
      obtain ⟨renamed, hreadRename, hrename'⟩ := hrename.readings_eq (by decide) (by decide)
      have hnamed := href.corpusTable hwhole
        (head_ne_dot hrename' (by decide) (rest.flatMap readings ++ after))
      simp only [List.flatMap_cons, List.flatMap_append, hread, hread', hreadRename,
        List.cons_append, List.nil_append, List.append_assoc]
      exact .rename hkeyword htable' hnamed hrename'

/-- **Names that are read whole are enough.** -/
theorem showsDestruction_of_readWhole {sql : Str} (h : ReadWhole sql) :
    ShowsDestruction (words sql) := by
  obtain ⟨statement, names, after, ⟨⟨before, hsql, -⟩, -, hdestructive⟩, hwhole, hdot⟩ := h
  refine ⟨before.flatMap readings, statement.flatMap readings ++ after.flatMap readings, ?_,
    hdestructive.asksDestruction hwhole hdot⟩
  rw [words_eq_significant, hsql, List.flatMap_append, List.flatMap_append, List.append_assoc]

end SovriAgent
