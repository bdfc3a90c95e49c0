import MiniDbms.Lib.Parsing
import MiniDbms.Query.Parser

/-!
# The grammar of statements

The statements as a grammar over tokens, with the tree that each phrase denotes.
-/

namespace MiniDbms

open Lib

namespace Grammar

/-- `id` -/
def Identifier (front : List Token) (name : Bytes) : Prop := front = [⟨.identifier, name⟩]

/-- `lit := NUMBER | STRING | id | NULL` -/
inductive Literal : List Token → SQLLiteral → Prop
  | number (text : Bytes) : Literal [⟨.number, text⟩] ⟨.number, text⟩
  | string (text : Bytes) : Literal [⟨.stringLiteral, text⟩] ⟨.string, text⟩
  | identifier (text : Bytes) : Literal [⟨.identifier, text⟩] ⟨.identifier, text⟩
  | null (text : Bytes) : Literal [⟨.keywordNull, text⟩] ⟨.nullValue, []⟩

/-- `= | > | < | >= | <=` -/
inductive Operator : List Token → Bytes → Prop
  | equal (text : Bytes) : Operator [⟨.equal, text⟩] (str "=")
  | greaterEqual (text : Bytes) : Operator [⟨.greaterEqual, text⟩] (str ">=")
  | lessEqual (text : Bytes) : Operator [⟨.lessEqual, text⟩] (str "<=")
  | greater (text : Bytes) : Operator [⟨.greater, text⟩] (str ">")
  | less (text : Bytes) : Operator [⟨.less, text⟩] (str "<")

/-- `cond := id (= | > | < | >= | <=) lit` -/
inductive Cond : List Token → Condition → Prop
  | intro {column op : Bytes} {operator literal : List Token} {value : SQLLiteral}
      (hop : Operator operator op) (hvalue : Literal literal value) :
      Cond (⟨.identifier, column⟩ :: (operator ++ literal)) ⟨column, op, value⟩

/-- `item {separator item}` -/
abbrev Items {α : Type} (item : List Token → α → Prop) (separator : TokenType) :
    List Token → List α → Prop :=
  Separated (fun token : Token => token.type = separator) item

/-- `[where]` with `where := WHERE cond {AND cond}` -/
inductive Where : List Token → List Condition → Prop
  | absent : Where [] []
  | present {text : Bytes} {front : List Token} {conditions : List Condition}
      (h : Items Cond .keywordAnd front conditions) :
      Where (⟨.keywordWhere, text⟩ :: front) conditions

/-- `* | id {, id}` -/
inductive Fields : List Token → List Bytes → Prop
  | all (text : Bytes) : Fields [⟨.asterisk, text⟩] [str "*"]
  | columns {front : List Token} {fields : List Bytes} (h : Items Identifier .comma front fields) :
      Fields front fields

/-- `[( NUMBER )]`; the number is what `std::stoul` makes of it. -/
inductive Length : List Token → UInt32 → Prop
  | absent : Length [] 0
  | present {t₁ t₂ number : Bytes} {n : Nat} (hread : Text.stoul number = some n) (hpos : 1 ≤ n)
      (hle : n ≤ 4294967295) :
      Length [⟨.lparen, t₁⟩, ⟨.number, number⟩, ⟨.rparen, t₂⟩] (UInt32.ofNat n)

/-- `col := id id [( NUMBER )]` -/
inductive Col : List Token → ColumnDefinition → Prop
  | intro {name typeName : Bytes} {front : List Token} {length : UInt32} (h : Length front length) :
      Col (⟨.identifier, name⟩ :: ⟨.identifier, typeName⟩ :: front) ⟨name, typeName, length⟩

/-- `SELECT (* | id {, id}) FROM id [where]` -/
inductive Select (isExplain : Bool) : List Token → SQLStatement → Prop
  | intro {t₁ t₂ table : Bytes} {front tail : List Token} {fields : List Bytes}
      {conditions : List Condition} (hfields : Fields front fields)
      (hwhere : Where tail conditions) :
      Select isExplain
        (⟨.keywordSelect, t₁⟩ :: (front ++ ⟨.keywordFrom, t₂⟩ :: ⟨.identifier, table⟩ :: tail))
        (.select ⟨table, fields, conditions, isExplain⟩)

/-- The statements without `;`. -/
inductive Body : List Token → SQLStatement → Prop
  | select {front : List Token} {statement : SQLStatement} (h : Select false front statement) :
      Body front statement
  | explain {t₁ t₂ : Bytes} {front : List Token} {statement : SQLStatement}
      (h : Select true front statement) :
      Body (⟨.keywordExplain, t₁⟩ :: ⟨.keywordAnalyze, t₂⟩ :: front) statement
  | insert {t₁ t₂ t₃ t₄ t₅ table : Bytes} {front : List Token} {values : List SQLLiteral}
      (h : Items Literal .comma front values) :
      Body (⟨.keywordInsert, t₁⟩ :: ⟨.keywordInto, t₂⟩ :: ⟨.identifier, table⟩ ::
        ⟨.keywordValues, t₃⟩ ::
        ⟨.lparen, t₄⟩ :: (front ++ [⟨.rparen, t₅⟩])) (.insert ⟨table, values⟩)
  | update {t₁ t₂ t₃ table column : Bytes} {front tail : List Token} {value : SQLLiteral}
      {conditions : List Condition} (hvalue : Literal front value)
      (hwhere : Where tail conditions) :
      Body (⟨.keywordUpdate, t₁⟩ :: ⟨.identifier, table⟩ :: ⟨.keywordSet, t₂⟩ ::
        ⟨.identifier, column⟩ ::
        ⟨.equal, t₃⟩ :: (front ++ tail)) (.update ⟨table, column, value, conditions⟩)
  | delete {t₁ t₂ table : Bytes} {tail : List Token} {conditions : List Condition}
      (hwhere : Where tail conditions) :
      Body (⟨.keywordDelete, t₁⟩ :: ⟨.keywordFrom, t₂⟩ :: ⟨.identifier, table⟩ :: tail)
        (.delete ⟨table, conditions⟩)
  | createTable {t₁ t₂ t₃ t₄ table : Bytes} {front : List Token} {columns : List ColumnDefinition}
      (h : Items Col .comma front columns) :
      Body (⟨.keywordCreate, t₁⟩ :: ⟨.keywordTable, t₂⟩ :: ⟨.identifier, table⟩ :: ⟨.lparen, t₃⟩ ::
        (front ++ [⟨.rparen, t₄⟩])) (.createTable ⟨table, columns⟩)
  | createIndex {t₁ t₂ t₃ t₄ t₅ index table column : Bytes} :
      Body [⟨.keywordCreate, t₁⟩, ⟨.keywordIndex, t₂⟩, ⟨.identifier, index⟩, ⟨.keywordOn, t₃⟩,
        ⟨.identifier, table⟩, ⟨.lparen, t₄⟩, ⟨.identifier, column⟩, ⟨.rparen, t₅⟩]
        (.createIndex ⟨index, table, column⟩)

/-- `[;]` -/
inductive Semicolon : List Token → Prop
  | absent : Semicolon []
  | present (text : Bytes) : Semicolon [⟨.semicolon, text⟩]

/-- `stmt := body [;] EOF` -/
inductive Sentence : List Token → SQLStatement → Prop
  | intro {front tail : List Token} {statement : SQLStatement} {text : Bytes}
      (hbody : Body front statement) (hend : Semicolon tail) :
      Sentence (front ++ (tail ++ [⟨.endOfFile, text⟩])) statement

end Grammar

end MiniDbms
