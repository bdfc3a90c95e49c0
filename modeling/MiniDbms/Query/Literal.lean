import MiniDbms.Catalog.Schema
import MiniDbms.Common.Text

/-!
# Literals

`SQLLiteral` and `ConvertLiteral` of `query/literal.cpp`.
-/

namespace MiniDbms

inductive LiteralKind where
  | number
  | string
  | identifier
  | nullValue
  deriving DecidableEq, Repr

structure SQLLiteral where
  kind : LiteralKind
  text : Bytes
  deriving DecidableEq, Repr

/-- `ConvertLiteral`: the value of a literal in a column. -/
def convertLiteral (column : Column) (literal : SQLLiteral) (allowNull : Bool) :
    Except Status FieldValue :=
  if literal.kind = .nullValue then
    if allowNull then .ok .null
    else .error (.invalidArgument "NULL is not supported in this predicate")
  else
    match column.type with
    | .integer =>
      if literal.kind ≠ .number then
        .error (.invalidArgument "INTEGER values must use an unquoted numeric literal")
      else
        match Text.stoll literal.text with
        | none => .error (.invalidArgument "Invalid typed literal")
        | some (parsed, consumed) =>
          if consumed ≠ literal.text.length ∨ parsed < -2147483648 ∨ 2147483647 < parsed then
            .error (.invalidArgument "Invalid INTEGER literal")
          else .ok (.integer (Int32.ofInt parsed))
    | .varchar =>
      if literal.kind ≠ .string then .error (.invalidArgument "VARCHAR values must be quoted")
      else if 0 < column.length.toNat ∧ column.length.toNat < literal.text.length then
        .error (.invalidArgument "VARCHAR literal exceeds declared length")
      else .ok (.text literal.text)
    | .boolean =>
      if literal.kind ≠ .identifier ∧ literal.kind ≠ .number then
        .error (.invalidArgument "BOOLEAN values must be true, false, 1, or 0")
      else
        let normalized := literal.text.map Text.toLower
        if normalized = str "true" ∨ normalized = str "1" then .ok (.boolean true)
        else if normalized = str "false" ∨ normalized = str "0" then .ok (.boolean false)
        else .error (.invalidArgument "Invalid BOOLEAN literal")

end MiniDbms
