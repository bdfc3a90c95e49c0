import MiniDbms.Common.Text

/-!
# The tokenizer

`Tokenizer` of `query/tokenizer.cpp`. The cursor into the text is the rest of the text.
-/

namespace MiniDbms

inductive TokenType where
  | keywordSelect
  | keywordInsert
  | keywordUpdate
  | keywordDelete
  | keywordCreate
  | keywordTable
  | keywordIndex
  | keywordOn
  | keywordInto
  | keywordValues
  | keywordFrom
  | keywordWhere
  | keywordSet
  | keywordExplain
  | keywordAnalyze
  | keywordAnd
  | keywordNull
  | identifier
  | number
  | stringLiteral
  | asterisk
  | comma
  | equal
  | greater
  | less
  | greaterEqual
  | lessEqual
  | semicolon
  | lparen
  | rparen
  | invalid
  | endOfFile
  deriving DecidableEq, Repr

structure Token where
  type : TokenType
  text : Bytes
  deriving DecidableEq, Repr

namespace Tokenizer

open Text

/-- The keywords in upper case. -/
def keywords : List (Bytes × TokenType) :=
  [(str "SELECT", .keywordSelect), (str "INSERT", .keywordInsert), (str "UPDATE", .keywordUpdate),
    (str "DELETE", .keywordDelete), (str "CREATE", .keywordCreate), (str "TABLE", .keywordTable),
    (str "INDEX", .keywordIndex), (str "ON", .keywordOn), (str "INTO", .keywordInto),
    (str "VALUES", .keywordValues), (str "FROM", .keywordFrom), (str "WHERE", .keywordWhere),
    (str "SET", .keywordSet), (str "EXPLAIN", .keywordExplain), (str "ANALYZE", .keywordAnalyze),
    (str "AND", .keywordAnd), (str "NULL", .keywordNull)]

/-- A keyword in any case, or an identifier. -/
def wordType (word : Bytes) : TokenType := (keywords.lookup (word.map toUpper)).getD .identifier

/-- A character of a word after the first. -/
def isWordChar (c : UInt8) : Bool := isAlnum c || c = 95

/-- The loop over a string literal: its value, and the text behind the closing quote. -/
def readQuoted (quote : UInt8) : Bytes → Option (Bytes × Bytes)
  | [] => none
  | c :: rest =>
    if c = quote then
      match rest with
      | [] => some ([], [])
      | c' :: rest' =>
        if c' = quote then (readQuoted quote rest').map fun r => (quote :: r.1, r.2)
        else some ([], c' :: rest')
    else (readQuoted quote rest).map fun r => (c :: r.1, r.2)

/-- A token that may have a `=` as its second character. -/
def withEqual (rest : Bytes) (plain withEqual : Token) : Token × Bytes :=
  match rest with
  | 61 :: rest => (withEqual, rest)
  | rest => (plain, rest)

/-- `PeekNext` is a digit. -/
def startsWithDigit : Bytes → Bool
  | [] => false
  | c :: _ => isDigit c

/-- The body of the loop of `Tokenize`, at a character that is not a blank. -/
def readToken (c : UInt8) (rest : Bytes) : Token × Bytes :=
  if c = 42 then (⟨.asterisk, str "*"⟩, rest)
  else if c = 44 then (⟨.comma, str ","⟩, rest)
  else if c = 61 then (⟨.equal, str "="⟩, rest)
  else if c = 62 then withEqual rest ⟨.greater, str ">"⟩ ⟨.greaterEqual, str ">="⟩
  else if c = 60 then withEqual rest ⟨.less, str "<"⟩ ⟨.lessEqual, str "<="⟩
  else if c = 59 then (⟨.semicolon, str ";"⟩, rest)
  else if c = 40 then (⟨.lparen, str "("⟩, rest)
  else if c = 41 then (⟨.rparen, str ")"⟩, rest)
  else if c = 39 ∨ c = 34 then
    match readQuoted c rest with
    | none => (⟨.invalid, str "Unterminated string literal"⟩, [])
    | some (value, rest) => (⟨.stringLiteral, value⟩, rest)
  else if isAlpha c ∨ c = 95 then
    let word := c :: rest.takeWhile isWordChar
    (⟨wordType word, word⟩, rest.dropWhile isWordChar)
  else if isDigit c ∨ (c = 45 ∧ startsWithDigit rest) then
    (⟨.number, c :: rest.takeWhile isDigit⟩, rest.dropWhile isDigit)
  else (⟨.invalid, str "Unexpected character: " ++ [c]⟩, rest)

/-- The loop of `Tokenize`; every turn takes at least one character. -/
def tokenizeLoop : Nat → Bytes → List Token
  | 0, _ => []
  | fuel + 1, input =>
    match input.dropWhile isSpace with
    | [] => []
    | c :: rest =>
      let (token, rest) := readToken c rest
      if token.type = .invalid then [token] else token :: tokenizeLoop fuel rest

/-- `Tokenizer::Tokenize`. -/
def tokenize (sql : Bytes) : List Token :=
  tokenizeLoop (sql.length + 1) sql ++ [⟨.endOfFile, []⟩]

end Tokenizer

end MiniDbms
