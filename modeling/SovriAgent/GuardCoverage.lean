import SovriAgent.DestructiveStatements
import SovriAgent.SqliteLiterals

/-!
# What the Guard Catches

The guard skips comments, and it looks into a string literal only where it reads the name of
a table. A literal that stands directly after the word `TABLE`, the word `EXISTS` or a dot
may be such a name; the others should not matter. But the guard does not see everything that
stands between these and a literal: in `TABLE ('t')` it reads a name that SQLite does not.
So a text is stable if the literals that should not matter are idle (`LiteralsIdle`).

## Main results

* `ShowsDestruction.likewise`, `ShowsDestruction.idle`: words that may be exchanged.
* `stable_iff`: the texts whose comments and literals do not matter.
* `literalsIdle_of_apart`: literals that the guard sees apart from the names are idle.
* `guard_catches_iff`: when the guard misses no statement of a text, and does not depend on
  comments and literals.
-/

namespace SovriAgent

open Sqlite (Lexeme)

/-! ### Replacing comments and literals -/

/-- The word `TABLE`, the word `EXISTS` or a dot. -/
def opensName : Lexeme → Bool
  | .word text => isKeyword "TABLE" text || isKeyword "EXISTS" text
  | .dot => true
  | _ => false

/-- Whether what follows a lexeme stands directly after one that opens a name, given whether
the lexeme does. -/
def nameNext (named : Bool) (lexeme : Lexeme) : Bool :=
  if isSkipped lexeme then named else opensName lexeme

/-- The lexemes with comments replaced, and literals that do not stand directly after a lexeme
that opens a name. -/
inductive Replaced : Bool → List Lexeme → List Lexeme → Prop
  | nil {named : Bool} : Replaced named [] []
  | keep {named : Bool} {lexeme : Lexeme} {rest rest' : List Lexeme}
      (hrest : Replaced (nameNext named lexeme) rest rest') :
      Replaced named (lexeme :: rest) (lexeme :: rest')
  | lineComment {named : Bool} (content content' : Str) {rest rest' : List Lexeme}
      (hrest : Replaced named rest rest') :
      Replaced named (.lineComment content :: rest) (.lineComment content' :: rest')
  | blockComment {named : Bool} (content content' : Str) {rest rest' : List Lexeme}
      (hrest : Replaced named rest rest') :
      Replaced named (.blockComment content :: rest) (.blockComment content' :: rest')
  | literal (content content' : Str) {rest rest' : List Lexeme}
      (hrest : Replaced false rest rest') :
      Replaced false (.quoted singleQuote content :: rest) (.quoted singleQuote content' :: rest')

/-- Whether the guard finds an operation does not depend on the contents of comments, and of
literals that do not stand directly after a lexeme that opens a name. -/
def Stable (sql : Str) : Prop :=
  ∀ sql', Replaced false (Sqlite.lexemes sql) (Sqlite.lexemes sql') →
    (destructiveMigrationOperation sql').isSome = (destructiveMigrationOperation sql).isSome

/-- Whether a lexeme is a text in single quotes. -/
def isStringLiteral : Lexeme → Bool
  | .quoted delimiter _ => delimiter == singleQuote
  | _ => false

/-- The lexemes with these contents in all literals that may be replaced. -/
def withLiterals (content : Str) : Bool → List Lexeme → List Lexeme
  | _, [] => []
  | named, lexeme :: rest =>
      (if isStringLiteral lexeme && !named then .quoted singleQuote content else lexeme) ::
        withLiterals content (nameNext named lexeme) rest

/-- The words of a text with these contents in all literals that may be replaced. -/
def wordsWith (content sql : Str) : List Str :=
  (withLiterals content false (Sqlite.lexemes sql)).flatMap readings

/-- The literals that may be replaced are idle: were they all to name a table of the corpus, the
words would show no destruction that they do not show with empty literals. -/
def LiteralsIdle (sql : Str) : Prop :=
  ShowsDestruction (wordsWith "scan_runs".toList sql) → ShowsDestruction (wordsWith [] sql)

/-! ### Words that may be exchanged -/

/-- The keywords the guard looks for. -/
def guardKeywords : List String :=
  ["DROP", "TABLE", "ALTER", "IF", "EXISTS", "CONSTRAINT", "RENAME"]

/-- The guard tells two words apart at most as names of tables, and the second is one if the
first is. -/
structure Likewise (word word' : Str) : Prop where
  keyword : ∀ keyword ∈ guardKeywords, isKeyword keyword word' = isKeyword keyword word
  dot : word' = ['.'] ↔ word = ['.']
  table : canonicalSqlIdentifier word ∈ persistedCorpusTables →
    canonicalSqlIdentifier word' ∈ persistedCorpusTables

/-- A word stands for itself. -/
theorem Likewise.refl (word : Str) : Likewise word word :=
  ⟨fun _ _ => rfl, Iff.rfl, id⟩

/-- The guard's token of a literal. -/
def literalToken (content : Str) : Str :=
  singleQuote :: (content ++ [singleQuote])

/-- A literal is no keyword of the guard. -/
theorem isKeyword_literalToken (content : Str) :
    ∀ keyword ∈ guardKeywords, isKeyword keyword (literalToken content) = false := by
  simp only [guardKeywords, List.forall_mem_cons]
  exact ⟨rfl, rfl, rfl, rfl, rfl, rfl, rfl, fun _ h => absurd h List.not_mem_nil⟩

/-- A literal is no dot. -/
theorem literalToken_ne_dot (content : Str) : literalToken content ≠ ['.'] := by
  intro heq
  exact absurd (List.cons.inj heq).1 (by decide)

/-- Literals are exchanged for ones that name a table if they do. -/
theorem likewise_literalToken {content content' : Str}
    (h : canonicalSqlIdentifier (literalToken content) ∈ persistedCorpusTables →
      canonicalSqlIdentifier (literalToken content') ∈ persistedCorpusTables) :
    Likewise (literalToken content) (literalToken content') where
  keyword keyword hmem := by
    rw [isKeyword_literalToken content keyword hmem, isKeyword_literalToken content' keyword hmem]
  dot := iff_of_false (literalToken_ne_dot content') (literalToken_ne_dot content)
  table := h

/-- Exchanged words begin with the same keywords. -/
theorem Likewise.any_head {words words' : List Str} (h : List.Forall₂ Likewise words words')
    {keyword : String} (hmem : keyword ∈ guardKeywords) :
    words'.head?.any (isKeyword keyword) = words.head?.any (isKeyword keyword) := by
  cases h with
  | nil => rfl
  | cons hword _ => exact hword.keyword keyword hmem

/-- `IF EXISTS` is skipped in both. -/
theorem Likewise.skipIfExists {words words' : List Str}
    (h : List.Forall₂ Likewise words words') :
    List.Forall₂ Likewise (skipIfExists words) (skipIfExists words') := by
  have htail := List.forall₂_drop 1 h
  rw [List.drop_one, List.drop_one] at htail
  rw [SovriAgent.skipIfExists, SovriAgent.skipIfExists, Likewise.any_head h (by decide),
    Likewise.any_head htail (by decide)]
  split
  · exact List.forall₂_drop 2 h
  · exact h

/-- Where no dot comes first, none does in the exchanged words. -/
theorem Likewise.head_ne_dot {words words' : List Str} (h : List.Forall₂ Likewise words words')
    (hdot : words.head? ≠ some ['.']) : words'.head? ≠ some ['.'] := by
  cases h with
  | nil => exact hdot
  | cons hword _ =>
      exact fun heq => hdot (congrArg some (hword.dot.mp (Option.some.inj heq)))

/-- A table of the corpus is still named by exchanged words. -/
theorem CorpusTable.likewise {named rest named' : List Str} (h : CorpusTable named rest)
    (hwords : List.Forall₂ Likewise named named') :
    ∃ rest', CorpusTable named' rest' ∧ List.Forall₂ Likewise rest rest' := by
  cases h with
  | bare hdot htable =>
      obtain ⟨table', rest', hword, hrest, rfl⟩ := List.forall₂_cons_left_iff.mp hwords
      exact ⟨rest', .bare (Likewise.head_ne_dot hrest hdot) (hword.table htable), hrest⟩
  | qualified htable =>
      obtain ⟨schema', tail, -, htail, rfl⟩ := List.forall₂_cons_left_iff.mp hwords
      obtain ⟨dot', tail', hdot, htail', rfl⟩ := List.forall₂_cons_left_iff.mp htail
      obtain ⟨table', rest', hword, hrest, rfl⟩ := List.forall₂_cons_left_iff.mp htail'
      obtain rfl := hdot.dot.mpr rfl
      exact ⟨rest', .qualified (hword.table htable), hrest⟩

/-- A destructive statement is still one with exchanged words. -/
theorem AsksDestruction.likewise {asked asked' : List Str} (h : AsksDestruction asked)
    (hwords : List.Forall₂ Likewise asked asked') : AsksDestruction asked' := by
  cases h with
  | dropTable hdrop htable hnamed =>
      obtain ⟨drop', tail, hword, htail, rfl⟩ := List.forall₂_cons_left_iff.mp hwords
      obtain ⟨table', named', hword', hnamed', rfl⟩ := List.forall₂_cons_left_iff.mp htail
      obtain ⟨rest', hcorpus, -⟩ := hnamed.likewise (Likewise.skipIfExists hnamed')
      exact .dropTable ((hword.keyword "DROP" (by decide)).trans hdrop)
        ((hword'.keyword "TABLE" (by decide)).trans htable) hcorpus
  | dropColumn halter htable hnamed hdrop hcolumn =>
      obtain ⟨alter', tail, hword, htail, rfl⟩ := List.forall₂_cons_left_iff.mp hwords
      obtain ⟨table', named', hword', hnamed', rfl⟩ := List.forall₂_cons_left_iff.mp htail
      obtain ⟨rest', hcorpus, hrest⟩ := hnamed.likewise hnamed'
      obtain ⟨drop', tail', hdrop', htail', rfl⟩ := List.forall₂_cons_left_iff.mp hrest
      obtain ⟨column', tail'', hcolumn', -, rfl⟩ := List.forall₂_cons_left_iff.mp htail'
      exact .dropColumn ((hword.keyword "ALTER" (by decide)).trans halter)
        ((hword'.keyword "TABLE" (by decide)).trans htable) hcorpus
        ((hdrop'.keyword "DROP" (by decide)).trans hdrop)
        ((hcolumn'.keyword "CONSTRAINT" (by decide)).trans hcolumn)
  | rename halter htable hnamed hrename =>
      obtain ⟨alter', tail, hword, htail, rfl⟩ := List.forall₂_cons_left_iff.mp hwords
      obtain ⟨table', named', hword', hnamed', rfl⟩ := List.forall₂_cons_left_iff.mp htail
      obtain ⟨rest', hcorpus, hrest⟩ := hnamed.likewise hnamed'
      obtain ⟨renamed', tail', hrename', -, rfl⟩ := List.forall₂_cons_left_iff.mp hrest
      exact .rename ((hword.keyword "ALTER" (by decide)).trans halter)
        ((hword'.keyword "TABLE" (by decide)).trans htable) hcorpus
        ((hrename'.keyword "RENAME" (by decide)).trans hrename)

/-- **Words that are exchanged for likes** go on showing a destruction. -/
theorem ShowsDestruction.likewise {words words' : List Str} (h : ShowsDestruction words)
    (hwords : List.Forall₂ Likewise words words') : ShowsDestruction words' := by
  induction hwords with
  | nil => exact h
  | cons hword hrest ih =>
      rcases showsDestruction_cons.mp h with hasked | hshown
      · exact showsDestruction_cons.mpr (.inl (hasked.likewise (.cons hword hrest)))
      · exact showsDestruction_cons.mpr (.inr (ih hshown))

/-! ### The words with other literals -/

theorem isStringLiteral_iff {lexeme : Lexeme} :
    isStringLiteral lexeme = true ↔ ∃ content, lexeme = .quoted singleQuote content := by
  constructor
  · intro h
    cases lexeme with
    | quoted delimiter content =>
        obtain rfl := beq_iff_eq.mp h
        exact ⟨content, rfl⟩
    | _ => cases h
  · rintro ⟨content, rfl⟩
    exact beq_self_eq_true singleQuote

/-- A lexeme keeps its kind when it gets other contents. -/
theorem withLiterals_cons (content : Str) (named : Bool) (lexeme : Lexeme) (rest : List Lexeme) :
    withLiterals content named (lexeme :: rest) =
      (if isStringLiteral lexeme = true ∧ named = false then .quoted singleQuote content
        else lexeme) :: withLiterals content (nameNext named lexeme) rest := by
  rw [withLiterals]
  simp only [Bool.and_eq_true, Bool.not_eq_true']

/-- Lexemes whose readings are exchanged. -/
theorem forall₂_flatMap {first second : List Lexeme}
    (h : List.Forall₂ (fun lexeme lexeme' =>
      List.Forall₂ Likewise (readings lexeme) (readings lexeme')) first second) :
    List.Forall₂ Likewise (first.flatMap readings) (second.flatMap readings) := by
  induction h with
  | nil => exact .nil
  | cons hfirst _ ih =>
      rw [List.flatMap_cons, List.flatMap_cons]
      exact List.rel_append hfirst ih

/-- Literals that name nothing are as weak as any. -/
theorem likewise_blank (lexemes : List Lexeme) (named : Bool) :
    List.Forall₂ Likewise ((withLiterals [] named lexemes).flatMap readings)
      (lexemes.flatMap readings) := by
  refine forall₂_flatMap ?_
  induction lexemes generalizing named with
  | nil => exact .nil
  | cons lexeme rest ih =>
      rw [withLiterals_cons]
      refine .cons ?_ (ih _)
      split
      · next hfree =>
          obtain ⟨content, rfl⟩ := isStringLiteral_iff.mp hfree.1
          exact .cons (likewise_literalToken fun h => absurd h (by decide)) .nil
      · exact List.forall₂_same.mpr fun word _ => Likewise.refl word

/-- Literals that name a table are as strong as any. -/
theorem likewise_named (lexemes : List Lexeme) (named : Bool) :
    List.Forall₂ Likewise (lexemes.flatMap readings)
      ((withLiterals "scan_runs".toList named lexemes).flatMap readings) := by
  have hcorpus : canonicalSqlIdentifier (literalToken "scan_runs".toList) ∈
      persistedCorpusTables := by decide
  refine forall₂_flatMap ?_
  induction lexemes generalizing named with
  | nil => exact .nil
  | cons lexeme rest ih =>
      rw [withLiterals_cons]
      refine .cons ?_ (ih _)
      split
      · next hfree =>
          obtain ⟨content, rfl⟩ := isStringLiteral_iff.mp hfree.1
          exact .cons (likewise_literalToken fun _ => hcorpus) .nil
      · exact List.forall₂_same.mpr fun word _ => Likewise.refl word

/-- What is replaced is lost when the literals get other contents. -/
theorem Replaced.withLiterals_eq {named : Bool} {lexemes lexemes' : List Lexeme}
    (h : Replaced named lexemes lexemes') (content : Str) :
    (withLiterals content named lexemes').flatMap readings =
      (withLiterals content named lexemes).flatMap readings := by
  induction h with
  | nil => rfl
  | keep _ ih =>
      rw [withLiterals_cons, withLiterals_cons, List.flatMap_cons, List.flatMap_cons, ih]
  | lineComment _ _ _ ih => exact ih
  | blockComment _ _ _ ih => exact ih
  | literal _ _ _ ih =>
      rw [withLiterals_cons, withLiterals_cons, if_pos ⟨rfl, rfl⟩, if_pos ⟨rfl, rfl⟩,
        List.flatMap_cons, List.flatMap_cons]
      exact congrArg _ ih

/-- Replacing contents leaves plain lexemes plain. -/
theorem Replaced.isPlainLexeme {named : Bool} {lexemes lexemes' : List Lexeme}
    (h : Replaced named lexemes lexemes') :
    lexemes'.all isPlainLexeme = lexemes.all isPlainLexeme := by
  induction h with
  | nil => rfl
  | keep _ ih => rw [List.all_cons, List.all_cons, ih]
  | lineComment _ _ _ ih => exact ih
  | blockComment _ _ _ ih => exact ih
  | literal _ _ _ ih => exact ih

/-- Contents of literals that may be replaced are replaced. -/
theorem replaced_withLiterals (content : Str) (named : Bool) (lexemes : List Lexeme) :
    Replaced named lexemes (withLiterals content named lexemes) := by
  induction lexemes generalizing named with
  | nil => exact .nil
  | cons lexeme rest ih =>
      rw [withLiterals_cons]
      split
      · next hfree =>
          obtain ⟨found, rfl⟩ := isStringLiteral_iff.mp hfree.1
          rw [hfree.2]
          exact .literal found content (ih _)
      · exact .keep (ih _)

/-- Nothing may be replaced. -/
theorem replaced_refl (lexemes : List Lexeme) (named : Bool) : Replaced named lexemes lexemes := by
  induction lexemes generalizing named with
  | nil => exact .nil
  | cons lexeme rest ih => exact .keep (ih _)

/-- The lexemes are of the same kinds. -/
theorem sameKind_withLiterals (content : Str) (named : Bool) (lexemes : List Lexeme) :
    List.Forall₂ Sqlite.SameKind lexemes (withLiterals content named lexemes) := by
  induction lexemes generalizing named with
  | nil => exact .nil
  | cons lexeme rest ih =>
      rw [withLiterals_cons]
      refine .cons ?_ (ih _)
      split
      · next hfree =>
          obtain ⟨found, rfl⟩ := isStringLiteral_iff.mp hfree.1
          exact .literal found content
      · exact .same lexeme

/-! ### Stability -/

/-- What the guard finds in a text with plain variables. -/
theorem isSome_iff_showsDestruction {sql : Str}
    (hplain : (Sqlite.lexemes sql).all isPlainLexeme = true) :
    (destructiveMigrationOperation sql).isSome = true ↔ ShowsDestruction (words sql) := by
  rw [destructiveMigrationOperation, sqlTokens_eq_flatMap hplain,
    destructiveOperationFrom_isSome_iff, words]

/-- There is a text with other literals, and it shows what its words show. -/
theorem exists_withLiterals {sql : Str} (hplain : (Sqlite.lexemes sql).all isPlainLexeme = true)
    (content : Str) :
    ∃ sql', Replaced false (Sqlite.lexemes sql) (Sqlite.lexemes sql') ∧
      ((destructiveMigrationOperation sql').isSome = true ↔
        ShowsDestruction (wordsWith content sql)) := by
  obtain ⟨sql', hlexemes, -⟩ :=
    Sqlite.exists_text (sameKind_withLiterals content false (Sqlite.lexemes sql))
  have hreplaced := replaced_withLiterals content false (Sqlite.lexemes sql)
  have hplain' := hreplaced.isPlainLexeme.trans hplain
  rw [← hlexemes] at hreplaced hplain'
  refine ⟨sql', hreplaced, ?_⟩
  rw [isSome_iff_showsDestruction hplain', words, hlexemes, wordsWith]

/-- One direction of stability: the words of a text and of another one with comments and
literals replaced. -/
theorem LiteralsIdle.shows {sql : Str} (h : LiteralsIdle sql) {lexemes' : List Lexeme}
    (hreplaced : Replaced false (Sqlite.lexemes sql) lexemes') :
    ShowsDestruction (lexemes'.flatMap readings) ↔ ShowsDestruction (wordsWith [] sql) := by
  constructor
  · intro hshown
    refine h (cast ?_ (hshown.likewise (likewise_named lexemes' false)))
    rw [hreplaced.withLiterals_eq, wordsWith]
  · intro hblank
    refine ShowsDestruction.likewise (cast ?_ hblank) (likewise_blank lexemes' false)
    rw [hreplaced.withLiterals_eq, wordsWith]

/-- **The texts whose comments and literals do not matter** are those whose literals are idle. -/
theorem stable_iff {sql : Str} (hplain : (Sqlite.lexemes sql).all isPlainLexeme = true) :
    Stable sql ↔ LiteralsIdle sql := by
  constructor
  · intro hstable hshown
    obtain ⟨sqlNamed, hnamed, hnamedIff⟩ := exists_withLiterals hplain "scan_runs".toList
    obtain ⟨sqlBlank, hblank, hblankIff⟩ := exists_withLiterals hplain []
    rw [← hblankIff, hstable sqlBlank hblank, ← hstable sqlNamed hnamed]
    exact hnamedIff.mpr hshown
  · intro hidle sql' hreplaced
    have hplain' := hreplaced.isPlainLexeme.trans hplain
    have hsame := hidle.shows (replaced_refl (Sqlite.lexemes sql) false)
    rw [Bool.eq_iff_iff, isSome_iff_showsDestruction hplain', isSome_iff_showsDestruction hplain,
      words, words, hidle.shows hreplaced, hsame]

/-! ### Literals apart from the names -/

/-- A word after which the guard reads a name of a table. -/
def opensWord (word : Str) : Bool :=
  isKeyword "TABLE" word || isKeyword "EXISTS" word || word == ['.']

/-- Whether the last word of a lexeme opens a name for the guard, or the last one before it if it
has none. -/
def wordNext (opened : Bool) (lexeme : Lexeme) : Bool :=
  ((readings lexeme).getLast?.map opensWord).getD opened

/-- The guard reads no literal after a word that opens a name but one that stands directly
after it. -/
def literalsApart : Bool → Bool → List Lexeme → Bool
  | _, _, [] => true
  | named, opened, lexeme :: rest =>
      (!isStringLiteral lexeme || !opened || named) &&
        literalsApart (nameNext named lexeme) (wordNext opened lexeme) rest

/-- Words in which literals are exchanged that stand after no word that opens a name. -/
inductive Idle : Bool → List Str → List Str → Prop
  | nil {opened : Bool} : Idle opened [] []
  | keep {opened : Bool} {word : Str} {rest rest' : List Str}
      (hrest : Idle (opensWord word) rest rest') : Idle opened (word :: rest) (word :: rest')
  | literal (content content' : Str) {rest rest' : List Str} (hrest : Idle false rest rest') :
      Idle false (literalToken content :: rest) (literalToken content' :: rest')

/-- The word after one that opens a name is kept. -/
theorem Idle.of_opened {word : Str} {rest words' : List Str} (h : Idle true (word :: rest) words') :
    ∃ rest', words' = word :: rest' ∧ Idle (opensWord word) rest rest' := by
  cases h with
  | keep hrest => exact ⟨_, rfl, hrest⟩

/-- A keyword is kept. -/
theorem Idle.of_keyword {opened : Bool} {keyword : String} {word : Str} {rest words' : List Str}
    (h : Idle opened (word :: rest) words') (hmem : keyword ∈ guardKeywords)
    (hkeyword : isKeyword keyword word = true) :
    ∃ rest', words' = word :: rest' ∧ Idle (opensWord word) rest rest' := by
  cases h with
  | keep hrest => exact ⟨_, rfl, hrest⟩
  | literal content _ _ =>
      rw [isKeyword_literalToken content keyword hmem] at hkeyword
      cases hkeyword

/-- A dot is kept. -/
theorem Idle.of_dot {opened : Bool} {rest words' : List Str}
    (h : Idle opened (['.'] :: rest) words') :
    ∃ rest', words' = ['.'] :: rest' ∧ Idle true rest rest' := by
  generalize hword : (['.'] :: rest : List Str) = words at h
  cases h with
  | nil => cases hword
  | keep hrest =>
      obtain ⟨rfl, rfl⟩ := List.cons.inj hword
      exact ⟨_, rfl, hrest⟩
  | literal content _ _ => exact absurd (List.cons.inj hword).1.symm (literalToken_ne_dot content)

/-- Where no dot comes first, none does in the exchanged words. -/
theorem Idle.head_ne_dot {opened : Bool} {words words' : List Str} (h : Idle opened words words')
    (hdot : words.head? ≠ some ['.']) : words'.head? ≠ some ['.'] := by
  cases h with
  | nil => exact hdot
  | keep _ => exact hdot
  | literal _ content' _ => exact fun heq => literalToken_ne_dot content' (Option.some.inj heq)

/-- A word that starts no constraint is exchanged for one that starts none. -/
theorem Idle.constraint {opened : Bool} {word : Str} {rest words' : List Str}
    (h : Idle opened (word :: rest) words') (hcolumn : isKeyword "CONSTRAINT" word = false) :
    ∃ word' rest', words' = word' :: rest' ∧ isKeyword "CONSTRAINT" word' = false := by
  cases h with
  | keep _ => exact ⟨_, _, rfl, hcolumn⟩
  | literal _ content' _ =>
      exact ⟨_, _, rfl, isKeyword_literalToken content' "CONSTRAINT" (by decide)⟩

/-- A name that is opened is kept, the schema and the table. -/
theorem CorpusTable.idle {named rest named' : List Str} (h : CorpusTable named rest)
    (hwords : Idle true named named') :
    ∃ rest' opened, CorpusTable named' rest' ∧ Idle opened rest rest' := by
  cases h with
  | bare hdot htable =>
      obtain ⟨rest', rfl, hrest⟩ := hwords.of_opened
      exact ⟨rest', _, .bare (hrest.head_ne_dot hdot) htable, hrest⟩
  | qualified htable =>
      obtain ⟨tail, rfl, htail⟩ := hwords.of_opened
      obtain ⟨tail', rfl, htail'⟩ := htail.of_dot
      obtain ⟨rest', rfl, hrest⟩ := htail'.of_opened
      exact ⟨rest', _, .qualified htable, hrest⟩

/-- The words in front of a name open it. -/
theorem opensWord_of_isKeyword {keyword : String} {word : Str}
    (h : isKeyword keyword word = true) (hkeyword : keyword = "TABLE" ∨ keyword = "EXISTS") :
    opensWord word = true := by
  rcases hkeyword with rfl | rfl
  · rw [opensWord, h, Bool.true_or, Bool.true_or]
  · rw [opensWord, h, Bool.or_true, Bool.true_or]

/-- The table of a `DROP TABLE` is kept, with or without `IF EXISTS`. -/
theorem CorpusTable.idle_skipIfExists {named rest named' : List Str}
    (h : CorpusTable (skipIfExists named) rest) (hwords : Idle true named named') :
    ∃ rest', CorpusTable (skipIfExists named') rest' := by
  by_cases hskip : named.head?.any (isKeyword "IF") = true ∧
      named.tail.head?.any (isKeyword "EXISTS") = true
  · rw [skipIfExists, if_pos hskip] at h
    rcases named with _ | ⟨condition, _ | ⟨exist, tail⟩⟩
    · exact absurd hskip.1 Bool.false_ne_true
    · exact absurd hskip.2 Bool.false_ne_true
    · have hexists : isKeyword "EXISTS" exist = true := hskip.2
      obtain ⟨others, rfl, hothers⟩ := hwords.of_opened
      obtain ⟨tail', rfl, htail'⟩ := hothers.of_keyword (by decide) hexists
      rw [opensWord_of_isKeyword hexists (.inr rfl)] at htail'
      obtain ⟨rest', _, hcorpus, -⟩ := CorpusTable.idle h htail'
      have hskip' : skipIfExists (condition :: exist :: tail') = tail' :=
        if_pos ⟨hskip.1, hexists⟩
      exact ⟨rest', by rwa [hskip']⟩
  · rw [skipIfExists, if_neg hskip] at h
    obtain ⟨rest', _, hcorpus, -⟩ := h.idle hwords
    exact ⟨rest', by rwa [hcorpus.ne_ifExists]⟩

/-- A destructive statement is one with idle literals exchanged. -/
theorem AsksDestruction.idle {opened : Bool} {asked asked' : List Str} (h : AsksDestruction asked)
    (hwords : Idle opened asked asked') : AsksDestruction asked' := by
  cases h with
  | dropTable hdrop htable hnamed =>
      obtain ⟨tail, rfl, htail⟩ := hwords.of_keyword (by decide) hdrop
      obtain ⟨named', rfl, hnamed'⟩ := htail.of_keyword (by decide) htable
      rw [opensWord_of_isKeyword htable (.inl rfl)] at hnamed'
      obtain ⟨rest', hcorpus⟩ := hnamed.idle_skipIfExists hnamed'
      exact .dropTable hdrop htable hcorpus
  | dropColumn halter htable hnamed hdrop hcolumn =>
      obtain ⟨tail, rfl, htail⟩ := hwords.of_keyword (by decide) halter
      obtain ⟨named', rfl, hnamed'⟩ := htail.of_keyword (by decide) htable
      rw [opensWord_of_isKeyword htable (.inl rfl)] at hnamed'
      obtain ⟨rest', _, hcorpus, hrest⟩ := hnamed.idle hnamed'
      obtain ⟨tail', rfl, htail'⟩ := hrest.of_keyword (by decide) hdrop
      obtain ⟨column', rest'', rfl, hcolumn'⟩ := htail'.constraint hcolumn
      exact .dropColumn halter htable hcorpus hdrop hcolumn'
  | rename halter htable hnamed hrename =>
      obtain ⟨tail, rfl, htail⟩ := hwords.of_keyword (by decide) halter
      obtain ⟨named', rfl, hnamed'⟩ := htail.of_keyword (by decide) htable
      rw [opensWord_of_isKeyword htable (.inl rfl)] at hnamed'
      obtain ⟨rest', _, hcorpus, hrest⟩ := hnamed.idle hnamed'
      obtain ⟨tail', rfl, -⟩ := hrest.of_keyword (by decide) hrename
      exact .rename halter htable hcorpus hrename

/-- **Literals after no word that opens a name** may be exchanged. -/
theorem ShowsDestruction.idle {opened : Bool} {words words' : List Str}
    (h : ShowsDestruction words) (hwords : Idle opened words words') :
    ShowsDestruction words' := by
  induction hwords with
  | nil => exact h
  | @keep opened _ _ _ hrest ih =>
      rcases showsDestruction_cons.mp h with hasked | hshown
      · exact showsDestruction_cons.mpr (.inl (hasked.idle (.keep hrest : Idle opened _ _)))
      · exact showsDestruction_cons.mpr (.inr (ih hshown))
  | literal content content' hrest ih =>
      rcases showsDestruction_cons.mp h with hasked | hshown
      · exact showsDestruction_cons.mpr (.inl (hasked.idle (.literal content content' hrest)))
      · exact showsDestruction_cons.mpr (.inr (ih hshown))

/-- Words that are kept in front. -/
theorem Idle.append {opened : Bool} {rest rest' : List Str} (kept : List Str)
    (h : Idle ((kept.getLast?.map opensWord).getD opened) rest rest') :
    Idle opened (kept ++ rest) (kept ++ rest') := by
  induction kept generalizing opened with
  | nil => exact h
  | cons word kept ih =>
      refine .keep (ih ?_)
      rw [List.getLast?_cons] at h
      rcases hlast : kept.getLast? with _ | last
      · rwa [hlast] at h
      · rwa [hlast] at h

/-- Literals that stand apart from names are idle. -/
theorem idle_withLiterals (content content' : Str) {named opened : Bool} {lexemes : List Lexeme}
    (h : literalsApart named opened lexemes = true) :
    Idle opened ((withLiterals content named lexemes).flatMap readings)
      ((withLiterals content' named lexemes).flatMap readings) := by
  induction lexemes generalizing named opened with
  | nil => exact .nil
  | cons lexeme rest ih =>
      rw [literalsApart, Bool.and_eq_true] at h
      have hrest := ih h.2
      rw [withLiterals_cons, withLiterals_cons, List.flatMap_cons, List.flatMap_cons]
      by_cases hfree : isStringLiteral lexeme = true ∧ named = false
      · obtain ⟨found, rfl⟩ := isStringLiteral_iff.mp hfree.1
        have hopened : opened = false := by simpa [hfree.1, hfree.2] using h.1
        rw [if_pos hfree, if_pos hfree, hopened]
        have hnext : wordNext opened (.quoted singleQuote found) = false := by
          have hkeywords := isKeyword_literalToken found
          have htoken : readings (.quoted singleQuote found) = [literalToken found] := rfl
          rw [wordNext, htoken, List.getLast?_singleton, Option.map_some, Option.getD_some,
            opensWord, hkeywords "TABLE" (by decide), hkeywords "EXISTS" (by decide),
            beq_eq_false_iff_ne.mpr (literalToken_ne_dot found)]
          rfl
        rw [hnext] at hrest
        exact .literal content content' hrest
      · rw [if_neg hfree, if_neg hfree]
        exact Idle.append (readings lexeme) hrest

/-- Literals that the guard sees apart from the names are idle. -/
theorem literalsIdle_of_apart {sql : Str}
    (h : literalsApart false false (Sqlite.lexemes sql) = true) : LiteralsIdle sql :=
  fun hshown => hshown.idle (idle_withLiterals "scan_runs".toList [] h)

/-! ### What the guard catches -/

/-- **What the guard catches**, in a text with plain variables: it misses no destructive
statement and does not depend on comments and literals exactly when the words show a
destruction, should there be a destructive statement, and the literals that should not matter
are idle. Names that are read whole are enough for the first, and literals apart from the names
for the second. -/
theorem guard_catches_iff {sql : Str} (hplain : (Sqlite.lexemes sql).all isPlainLexeme = true) :
    (NoFalseNegative sql ∧ Stable sql ↔
      (ContainsDestructive sql → ShowsDestruction (words sql)) ∧ LiteralsIdle sql) ∧
    (ReadWhole sql → ShowsDestruction (words sql)) ∧
    (literalsApart false false (Sqlite.lexemes sql) = true → LiteralsIdle sql) := by
  refine ⟨?_, showsDestruction_of_readWhole, literalsIdle_of_apart⟩
  rw [stable_iff hplain, NoFalseNegative, isSome_iff_showsDestruction hplain]

/-- A text whose names are read whole. -/
def quotedDrop : Str :=
  "DROP/* x */TABLE main.\"scan_runs\"; SELECT 'x'".toList

theorem readWhole_quotedDrop : ReadWhole quotedDrop := by
  have hsignificant : significant quotedDrop =
      [Lexeme.word "DROP".toList, Lexeme.word "TABLE".toList, Lexeme.word "main".toList,
        Lexeme.dot, Lexeme.quoted '"' "scan_runs".toList] ++
      [Lexeme.semicolon, Lexeme.word "SELECT".toList, Lexeme.quoted singleQuote "x".toList] := by
    decide +kernel
  refine ⟨_, [Lexeme.word "main".toList], _, ⟨⟨[], hsignificant, .inl rfl⟩, .inr rfl, ?_⟩, ?_, ?_⟩
  · exact .dropTable ⟨_, rfl, by decide⟩ ⟨_, rfl, by decide⟩
      (.qualified rfl ⟨_, rfl, by decide⟩)
  · intro name hname
    obtain rfl := List.mem_singleton.mp hname
    exact List.all_eq_true.mp (by decide)
  · decide

theorem guard_catches_quotedDrop :
    ContainsDestructive quotedDrop ∧ NoFalseNegative quotedDrop ∧ Stable quotedDrop := by
  have hplain : (Sqlite.lexemes quotedDrop).all isPlainLexeme = true := by decide +kernel
  obtain ⟨hiff, hwhole, hapart⟩ := guard_catches_iff hplain
  obtain ⟨statement, names, after, hstands, -⟩ := readWhole_quotedDrop
  exact ⟨⟨statement, names, after, hstands⟩,
    hiff.mpr ⟨fun _ => hwhole readWhole_quotedDrop, hapart (by decide +kernel)⟩⟩

/-- The guard misses a bare column beyond ASCII, and a statement after a variable with a quote
in its parentheses; and it looks into a literal that a parenthesis keeps from `TABLE`. -/
theorem guard_misses :
    ¬ NoFalseNegative "ALTER TABLE scan_runs DROP é".toList ∧
      ¬ NoFalseNegative "SELECT $a('); DROP TABLE scan_runs; --')".toList ∧
      ¬ Stable "DROP TABLE ('scan_runs')".toList := by
  have hcolumn : significant "ALTER TABLE scan_runs DROP é".toList =
      [] ++ [Lexeme.word "ALTER".toList, Lexeme.word "TABLE".toList,
        Lexeme.word "scan_runs".toList, Lexeme.word "DROP".toList, Lexeme.word "é".toList] ++
        [] := by decide +kernel
  have hvariable : significant "SELECT $a('); DROP TABLE scan_runs; --')".toList =
      [Lexeme.word "SELECT".toList, Lexeme.variable "$a(')".toList, Lexeme.semicolon] ++
        [Lexeme.word "DROP".toList, Lexeme.word "TABLE".toList, Lexeme.word "scan_runs".toList] ++
        [Lexeme.semicolon] := by decide +kernel
  refine ⟨fun hcatches => ?_, fun hcatches => ?_, fun hstable => ?_⟩
  · have hcontains : ContainsDestructive "ALTER TABLE scan_runs DROP é".toList := by
      refine ⟨_, [Lexeme.word "é".toList], [], ⟨[], hcolumn, .inl rfl⟩, .inl rfl, ?_⟩
      have htable : TableReference [Lexeme.word "scan_runs".toList] [] := .bare ⟨_, rfl, by decide⟩
      exact Destructive.dropColumn ⟨_, rfl, by decide⟩ ⟨_, rfl, by decide⟩ htable
        ⟨_, rfl, by decide⟩ rfl (by decide)
    exact absurd (hcatches hcontains) (by decide +kernel)
  · have hcontains : ContainsDestructive "SELECT $a('); DROP TABLE scan_runs; --')".toList := by
      refine ⟨_, [], [Lexeme.semicolon], ⟨_, hvariable, .inr rfl⟩, .inr rfl, ?_⟩
      exact .dropTable ⟨_, rfl, by decide⟩ ⟨_, rfl, by decide⟩ (.bare ⟨_, rfl, by decide⟩)
    exact absurd (hcatches hcontains) (by decide +kernel)
  · have hnamed : Sqlite.lexemes "DROP TABLE ('scan_runs')".toList =
        [.word "DROP".toList, .space, .word "TABLE".toList, .space, .other '(',
          .quoted singleQuote "scan_runs".toList, .other ')'] := by decide +kernel
    have hother : Sqlite.lexemes "DROP TABLE ('x')".toList =
        [.word "DROP".toList, .space, .word "TABLE".toList, .space, .other '(',
          .quoted singleQuote "x".toList, .other ')'] := by decide +kernel
    have hreplaced : Replaced false (Sqlite.lexemes "DROP TABLE ('scan_runs')".toList)
        (Sqlite.lexemes "DROP TABLE ('x')".toList) := by
      rw [hnamed, hother]
      exact .keep (.keep (.keep (.keep (.keep (.literal _ _ (.keep .nil))))))
    exact absurd (hstable _ hreplaced) (by decide +kernel)

end SovriAgent
