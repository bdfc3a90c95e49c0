import MiniDbms.Lib.Parsing
import MiniDbms.Query.Literal
import MiniDbms.Query.Tokenizer

/-!
# The parser

`Parser` of `query/parser.cpp`. The state of the parser is the list of the tokens that have not
been read; a statement that is not accepted is an error. The functions that are given `statement`
have it as a second state, which stays after an error.
-/

namespace MiniDbms

open Lib Tokenizer

structure Condition where
  column : Bytes
  op : Bytes
  value : SQLLiteral
  deriving DecidableEq, Repr

structure ColumnDefinition where
  name : Bytes
  typeName : Bytes
  length : UInt32
  deriving DecidableEq, Repr

structure SelectStatement where
  tableName : Bytes
  fields : List Bytes
  conditions : List Condition
  isExplain : Bool
  deriving DecidableEq, Repr

structure InsertStatement where
  tableName : Bytes
  values : List SQLLiteral
  deriving DecidableEq, Repr

structure UpdateStatement where
  tableName : Bytes
  columnName : Bytes
  newValue : SQLLiteral
  conditions : List Condition
  deriving DecidableEq, Repr

structure DeleteStatement where
  tableName : Bytes
  conditions : List Condition
  deriving DecidableEq, Repr

structure CreateTableStatement where
  tableName : Bytes
  columns : List ColumnDefinition
  deriving DecidableEq, Repr

structure CreateIndexStatement where
  indexName : Bytes
  tableName : Bytes
  columnName : Bytes
  deriving DecidableEq, Repr

inductive SQLStatement where
  | select (statement : SelectStatement)
  | insert (statement : InsertStatement)
  | update (statement : UpdateStatement)
  | delete (statement : DeleteStatement)
  | createTable (statement : CreateTableStatement)
  | createIndex (statement : CreateIndexStatement)
  deriving DecidableEq, Repr

/-- A function of the parser: it reads tokens and returns a result or an error. -/
abbrev Parser (α : Type) := StateT (List Token) (Except Status) α

/-- A function of the parser that is given `statement`. -/
abbrev StatementParser (α : Type) := Storing Token Status SQLStatement α

namespace Parser

def fail {α : Type} (msg : String) : Parser α := throw (.invalidArgument msg)

/-- `Parser::Peek`. -/
def peek : Parser Token := do
  return (← get).headD ⟨.endOfFile, []⟩

/-- `Parser::Advance`. -/
def advance : Parser Token := do
  let token ← peek
  modify List.tail
  return token

/-- `Parser::Match`. -/
def matchToken (type : TokenType) : Parser Bool := do
  if (← peek).type ≠ type then return false
  else
    let _ ← advance
    return true

/-- A token that must come next. -/
def expect (type : TokenType) (msg : String) : Parser Unit := do
  if !(← matchToken type) then fail msg

/-- An identifier that must come next. -/
def expectIdentifier (msg : String) : Parser Bytes := do
  if (← peek).type ≠ .identifier then fail msg
  else return (← advance).text

/-- `Parser::FinishStatement`. -/
def finishStatement : Parser Unit := do
  let _ ← matchToken .semicolon
  let token ← peek
  if token.type = .invalid then throw ⟨.invalidArgument, token.text⟩
  else if token.type ≠ .endOfFile then
    fail "Se encontraron tokens inesperados al final de la sentencia"

/-- `Parser::ParseLiteral`. -/
def parseLiteral : Parser SQLLiteral := do
  let token ← advance
  match token.type with
  | .number => return ⟨.number, token.text⟩
  | .stringLiteral => return ⟨.string, token.text⟩
  | .identifier => return ⟨.identifier, token.text⟩
  | .keywordNull => return ⟨.nullValue, []⟩
  | .invalid => throw ⟨.invalidArgument, token.text⟩
  | _ => fail "Se esperaba un literal"

/-- The operator of a condition. -/
def parseOperator : Parser Bytes := do
  if ← matchToken .equal then return str "="
  else if ← matchToken .greaterEqual then return str ">="
  else if ← matchToken .lessEqual then return str "<="
  else if ← matchToken .greater then return str ">"
  else if ← matchToken .less then return str "<"
  else fail "Operador no soportado en WHERE"

/-- `Parser::ParseCondition`. -/
def parseCondition : Parser Condition := do
  let column ← expectIdentifier "Se esperaba un nombre de columna en WHERE"
  let op ← parseOperator
  let value ← parseLiteral
  return ⟨column, op, value⟩

/-- A loop over items that are separated by tokens of one type. Every item takes a token, so that
the number of tokens bounds the number of turns. -/
def sepBy {α : Type} (item : Parser α) (separator : TokenType) : Nat → Parser (List α)
  | 0 => return []
  | fuel + 1 => do
    let first ← item
    if ← matchToken separator then return first :: (← sepBy item separator fuel)
    else return [first]

/-- The loop with as many turns as there are tokens. -/
def sepByAll {α : Type} (item : Parser α) (separator : TokenType) : Parser (List α) := do
  sepBy item separator ((← get).length + 1)

/-- `Parser::ParseConditions`. -/
def parseConditions : Parser (List Condition) := sepByAll parseCondition .keywordAnd

/-- An optional WHERE clause. -/
def parseWhere : Parser (List Condition) := do
  if ← matchToken .keywordWhere then parseConditions else return []

/-- `select_statement` of `ParseSelect`. -/
def selectStatement (isExplain : Bool) : Parser SQLStatement := do
  let fields ←
    if ← matchToken .asterisk then pure [str "*"]
    else sepByAll (expectIdentifier "Se esperaba un nombre de columna en SELECT") .comma
  expect .keywordFrom "Se esperaba la clausula FROM"
  let tableName ← expectIdentifier "Se esperaba un nombre de tabla despues de FROM"
  let conditions ← parseWhere
  finishStatement
  return .select ⟨tableName, fields, conditions, isExplain⟩

/-- `Parser::ParseSelect`. -/
def parseSelect (isExplain : Bool) : StatementParser Unit := do
  Storing.store (← selectStatement isExplain)

/-- `insert_statement` of `ParseInsert`. -/
def insertStatement : Parser SQLStatement := do
  expect .keywordInto "Se esperaba INTO despues de INSERT"
  let tableName ← expectIdentifier "Se esperaba el nombre de la tabla"
  expect .keywordValues "Se esperaba VALUES (...)"
  expect .lparen "Se esperaba VALUES (...)"
  let values ← sepByAll parseLiteral .comma
  expect .rparen "Se esperaba ')' al final de VALUES"
  finishStatement
  return .insert ⟨tableName, values⟩

/-- `Parser::ParseInsert`. -/
def parseInsert : StatementParser Unit := do Storing.store (← insertStatement)

/-- `update_statement` of `ParseUpdate`. -/
def updateStatement : Parser SQLStatement := do
  let tableName ← expectIdentifier "Se esperaba el nombre de la tabla en UPDATE"
  expect .keywordSet "Se esperaba la clausula SET"
  let columnName ← expectIdentifier "Se esperaba la columna a actualizar en SET"
  expect .equal "Se esperaba '=' en SET"
  let newValue ← parseLiteral
  let conditions ← parseWhere
  finishStatement
  return .update ⟨tableName, columnName, newValue, conditions⟩

/-- `Parser::ParseUpdate`. -/
def parseUpdate : StatementParser Unit := do Storing.store (← updateStatement)

/-- `delete_statement` of `ParseDelete`. -/
def deleteStatement : Parser SQLStatement := do
  expect .keywordFrom "Se esperaba FROM despues de DELETE"
  let tableName ← expectIdentifier "Se esperaba el nombre de la tabla en DELETE"
  let conditions ← parseWhere
  finishStatement
  return .delete ⟨tableName, conditions⟩

/-- `Parser::ParseDelete`. -/
def parseDelete : StatementParser Unit := do Storing.store (← deleteStatement)

/-- The length of a type between parentheses; 0 if there is none. -/
def parseLength : Parser UInt32 := do
  if ← matchToken .lparen then
    if (← peek).type ≠ .number then
      fail "Se esperaba la longitud del tipo entre parentesis"
    else
    match Text.stoul (← advance).text with
    | none => fail "Longitud de columna invalida"
    | some parsed =>
      if parsed = 0 ∨ 4294967295 < parsed then fail "Longitud de columna fuera de rango"
      else
        expect .rparen "Se esperaba ')' despues de la longitud del tipo"
        return UInt32.ofNat parsed
  else return 0

/-- The body of the loop of `ParseCreateTable`. -/
def parseColumn : Parser ColumnDefinition := do
  let name ← expectIdentifier "Se esperaba nombre de columna"
  let typeName ← expectIdentifier "Se esperaba tipo de datos de columna"
  let length ← parseLength
  return ⟨name, typeName, length⟩

/-- `create_table` of `ParseCreateTable`. -/
def createTableStatement : Parser SQLStatement := do
  let tableName ← expectIdentifier "Se esperaba el nombre de la tabla en CREATE TABLE"
  expect .lparen "Se esperaba '(' despues del nombre de la tabla"
  let columns ← sepByAll parseColumn .comma
  expect .rparen "Se esperaba ')' al final de las columnas"
  finishStatement
  return .createTable ⟨tableName, columns⟩

/-- `Parser::ParseCreateTable`. -/
def parseCreateTable : StatementParser Unit := do Storing.store (← createTableStatement)

/-- `create_statement` of `ParseCreateIndex`. -/
def createIndexStatement : Parser SQLStatement := do
  let indexName ← expectIdentifier "Se esperaba el nombre del indice"
  expect .keywordOn "Se esperaba ON en CREATE INDEX"
  let tableName ← expectIdentifier "Se esperaba el nombre de la tabla"
  expect .lparen "Se esperaba una columna entre parentesis"
  let columnName ← expectIdentifier "Se esperaba una columna entre parentesis"
  expect .rparen "Se esperaba ')' en CREATE INDEX"
  finishStatement
  return .createIndex ⟨indexName, tableName, columnName⟩

/-- `Parser::ParseCreateIndex`. -/
def parseCreateIndex : StatementParser Unit := do Storing.store (← createIndexStatement)

/-- `Parser::ParseExplain`. -/
def parseExplain : StatementParser Unit := do
  expect .keywordAnalyze "Se esperaba ANALYZE despues de EXPLAIN"
  expect .keywordSelect "Se esperaba SELECT despues de EXPLAIN ANALYZE"
  parseSelect true

/-- The loop of `Parse` over the tokens. -/
def rejectInvalid : List Token → Parser Unit
  | [] => return ()
  | token :: tokens =>
    if token.type = .invalid then throw ⟨.invalidArgument, token.text⟩ else rejectInvalid tokens

/-- `Parse` behind the loop. -/
def parseStatement : StatementParser Unit := do
  if (← peek).type = .endOfFile then fail "No hay tokens para procesar"
  else if ← matchToken .keywordExplain then parseExplain
  else if ← matchToken .keywordSelect then parseSelect false
  else if ← matchToken .keywordInsert then parseInsert
  else if ← matchToken .keywordUpdate then parseUpdate
  else if ← matchToken .keywordDelete then parseDelete
  else if ← matchToken .keywordCreate then
    if ← matchToken .keywordTable then parseCreateTable
    else if ← matchToken .keywordIndex then parseCreateIndex
    else fail "Se esperaba TABLE o INDEX despues de CREATE"
  else fail "Comando SQL no soportado"

/-- `Parser::Parse`. -/
def parseTokens : StatementParser Unit := do
  Storing.reset
  rejectInvalid (← get)
  parseStatement

/-- `Parser::Parse` on these tokens: its status, and what was and what is in `*statement`. -/
def parseInto (tokens : List Token) (output : Option SQLStatement) :
    Except Status Unit × Option SQLStatement :=
  let (r, output) := parseTokens.runOn tokens output
  (r.map fun _ => (), output)

/-- What a caller of `Parse` goes on with: an error, or `*statement`. -/
def parse (tokens : List Token) : Except Status SQLStatement :=
  match parseInto tokens none with
  | (.error e, _) => .error e
  | (.ok (), some statement) => .ok statement
  -- `Parse` never reports success without a statement (`parseInto_ok_iff`)
  | (.ok (), none) => .error ⟨.invalidArgument, []⟩

end Parser

example : Parser.parse (tokenize (str "SELECT a, b FROM t WHERE a >= -7 AND b = 'x''y';")) =
    .ok (.select ⟨str "t", [str "a", str "b"],
      [⟨str "a", str ">=", ⟨.number, str "-7"⟩⟩, ⟨str "b", str "=", ⟨.string, str "x'y"⟩⟩],
      false⟩) := by
  decide +kernel

end MiniDbms
