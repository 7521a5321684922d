import SovriAgent.Text

/-!
# The Guard Against Destructive Migrations

Before a migration runs, its text is cut into tokens and searched for a statement that
drops or renames a table of the persisted corpus, or drops one of its columns. The
tokenizer skips comments, takes the contents of quoted names, and keeps string literals
apart from names by their quotes.
-/

namespace SovriAgent

/-! ### Tokens -/

/-- The single quote, which delimits string literals. -/
def singleQuote : Char := Char.ofNat 39

/-- The backquote, which delimits names. -/
def backquote : Char := Char.ofNat 96

/-- Whether a character is part of a bare token. -/
def isSqlTokenCharacter (character : Char) : Bool :=
  character.isAlphanum || character == '_'

/-- The tokens with one more, unless it is empty. -/
def pushSqlToken (tokens : List Str) (token : Str) : List Str :=
  if token = [] then tokens else tokens ++ [token]

/-- What follows a line comment. -/
def skipLineComment : Str → Str
  | [] => []
  | character :: characters => if character = '\n' then characters else skipLineComment characters

/-- What follows a block comment. -/
def skipBlockComment : Str → Str
  | [] => []
  | [_] => []
  | character :: next :: characters =>
      if character = '*' ∧ next = '/' then characters else skipBlockComment (next :: characters)

/-- Whether a doubled terminator stands for itself. -/
def terminatorDoubles (terminator : Char) : Bool :=
  terminator == singleQuote || terminator == '"' || terminator == backquote

/-- A quoted identifier up to its terminator, and what follows it. -/
def collectQuotedIdentifier (terminator : Char) : Str → Str × Str
  | [] => ([], [])
  | [character] => if character = terminator then ([], []) else ([character], [])
  | character :: next :: characters =>
      if character = terminator then
        if terminatorDoubles terminator ∧ next = terminator then
          let rest := collectQuotedIdentifier terminator characters
          (terminator :: rest.1, rest.2)
        else ([], next :: characters)
      else
        let rest := collectQuotedIdentifier terminator (next :: characters)
        (character :: rest.1, rest.2)

/-- The character that ends a quoted name opened by a character. -/
def nameTerminator (character : Char) : Option Char :=
  if character = '"' then some '"'
  else if character = backquote then some backquote
  else if character = '[' then some ']'
  else none

/-- The tokenizer's loop: the tokens so far, the token being read, and the text left. Each
turn takes a character, so that the length of the text is enough fuel. -/
def sqlTokensFrom : ℕ → List Str → Str → Str → List Str
  | 0, tokens, token, _ => pushSqlToken tokens token
  | _ + 1, tokens, token, [] => pushSqlToken tokens token
  | fuel + 1, tokens, token, character :: characters =>
      if character = '-' ∧ characters.head? = some '-' then
        sqlTokensFrom fuel (pushSqlToken tokens token) [] (skipLineComment characters.tail)
      else if character = '/' ∧ characters.head? = some '*' then
        sqlTokensFrom fuel (pushSqlToken tokens token) [] (skipBlockComment characters.tail)
      else if character = singleQuote then
        let quoted := collectQuotedIdentifier singleQuote characters
        sqlTokensFrom fuel
          (pushSqlToken tokens token ++ [singleQuote :: (quoted.1 ++ [singleQuote])]) [] quoted.2
      else
        match nameTerminator character with
        | some terminator =>
            let quoted := collectQuotedIdentifier terminator characters
            sqlTokensFrom fuel (pushSqlToken tokens token ++ [quoted.1]) [] quoted.2
        | none =>
            if character = '.' then
              sqlTokensFrom fuel (pushSqlToken tokens token ++ [['.']]) [] characters
            else if isSqlTokenCharacter character then
              sqlTokensFrom fuel tokens (token ++ [character]) characters
            else sqlTokensFrom fuel (pushSqlToken tokens token) [] characters

/-- The tokens of an SQL text. -/
def sqlTokens (sql : Str) : List Str :=
  sqlTokensFrom (sql.length + 1) [] [] sql

/-! ### Destructive statements -/

/-- Whether a character is trimmed off an identifier. -/
def isIdentifierQuote (character : Char) : Bool :=
  character == '"' || character == singleQuote || character == backquote || character == '[' ||
    character == ']'

/-- An identifier without its quotes, in lower case. -/
def canonicalSqlIdentifier (identifier : Str) : Str :=
  asciiLowercase ((identifier.dropWhile isIdentifierQuote).reverse.dropWhile
    isIdentifierQuote).reverse

/-- The table name at the front of the tokens, past a schema name, and the tokens after it. -/
def sqlTableName : List Str → Option (Str × List Str)
  | [] => none
  | schemaOrTable :: rest =>
      if rest.head? = some ['.'] then
        rest.tail.head?.map fun tableName => (canonicalSqlIdentifier tableName, rest.drop 2)
      else some (canonicalSqlIdentifier schemaOrTable, rest)

/-- The tables of the persisted corpus (`PERSISTED_CORPUS_TABLES`). -/
def persistedCorpusTables : List Str :=
  ["scan_runs".toList, "frameworks".toList, "controls".toList, "control_results".toList,
    "compliance_gaps".toList, "evidence_metadata".toList, "score_summaries".toList,
    "exports".toList, "run_evidence_links".toList, "run_framework_links".toList,
    "run_control_links".toList]

/-- Whether a token is a keyword. -/
def isKeyword (keyword : String) (token : Str) : Bool :=
  eqIgnoreAsciiCase token keyword.toList

/-- The tokens after `IF EXISTS`, when they start with it. -/
def skipIfExists (tokens : List Str) : List Str :=
  if tokens.head?.any (isKeyword "IF") ∧ tokens.tail.head?.any (isKeyword "EXISTS") then
    tokens.drop 2
  else tokens

/-- The operation of a `DROP TABLE`, given the tokens after these two words. -/
def dropTableOperation (tokens : List Str) : Option Str :=
  (sqlTableName (skipIfExists tokens)).bind fun named =>
    if named.1 ∈ persistedCorpusTables then some ("DROP TABLE ".toList ++ named.1) else none

/-- The operation of an `ALTER TABLE`, given the tokens after these two words. -/
def alterTableOperation (tokens : List Str) : Option Str :=
  (sqlTableName tokens).bind fun named =>
    if named.1 ∈ persistedCorpusTables then
      if named.2.head?.any (isKeyword "DROP") ∧
          named.2.tail.head?.any fun token => !isKeyword "CONSTRAINT" token then
        some ("ALTER TABLE ".toList ++ named.1 ++ " DROP COLUMN".toList)
      else if named.2.head?.any (isKeyword "RENAME") then
        some ("ALTER TABLE ".toList ++ named.1 ++ " RENAME".toList)
      else none
    else none

/-- The destructive operation at the front of the tokens. -/
def operationAt (first second : Str) (tokens : List Str) : Option Str :=
  if isKeyword "DROP" first ∧ isKeyword "TABLE" second then dropTableOperation tokens
  else if isKeyword "ALTER" first ∧ isKeyword "TABLE" second then alterTableOperation tokens
  else none

/-- The first destructive operation of the tokens; three tokens at least must be left. -/
def destructiveOperationFrom : List Str → Option Str
  | first :: second :: third :: tokens =>
      (operationAt first second (third :: tokens)).or
        (destructiveOperationFrom (second :: third :: tokens))
  | _ => none

/-- The destructive operation a migration's text asks for. -/
def destructiveMigrationOperation (sql : Str) : Option Str :=
  destructiveOperationFrom (sqlTokens sql)

end SovriAgent
