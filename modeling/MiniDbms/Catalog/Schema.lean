import MiniDbms.Common.Types

/-!
# Schemas and field values

`Column` and `Schema` of `catalog/schema.h`, and `FieldValue` of `storage/record_codec.h`: a
variant over `std::monostate` (NULL), `int32_t`, `std::string` and `bool`.
-/

namespace MiniDbms

inductive TypeId where
  | integer
  | varchar
  | boolean
  deriving DecidableEq, Repr

/-- The value of the enumerator. -/
def TypeId.toNat : TypeId → Nat
  | .integer => 0
  | .varchar => 1
  | .boolean => 2

/-- The conversion back, which the catalog checks to be in range. -/
def TypeId.ofNat? : Nat → Option TypeId
  | 0 => some .integer
  | 1 => some .varchar
  | 2 => some .boolean
  | _ => none

theorem TypeId.ofNat?_toNat (t : TypeId) : TypeId.ofNat? t.toNat = some t := by
  cases t <;> rfl

structure Column where
  name : Bytes
  type : TypeId
  length : UInt32
  deriving DecidableEq, Repr

abbrev Schema := List Column

namespace Schema

/-- `GetColumnCount`: the number of columns as a `uint32_t`. -/
def getColumnCount (schema : Schema) : Nat := schema.length % 4294967296

/-- The loops of `FindColumn`, `FindColumnIndex` and `FilterOperator::Open`: the first column with
the given name. -/
def columnIndex (schema : Schema) (name : Bytes) : Option Nat :=
  schema.findIdx? fun column => column.name = name

variable {schema : Schema} {name : Bytes} {i : Nat}

theorem lt_of_columnIndex (h : schema.columnIndex name = some i) : i < schema.length :=
  (List.findIdx?_eq_some_iff_getElem.mp h).1

theorem name_of_columnIndex (h : schema.columnIndex name = some i) {column : Column}
    (hc : schema[i]? = some column) : column.name = name := by
  obtain ⟨hlt, hname, -⟩ := List.findIdx?_eq_some_iff_getElem.mp h
  rw [List.getElem?_eq_getElem hlt] at hc
  cases hc
  exact of_decide_eq_true hname

theorem columnIndex_isSome : (schema.columnIndex name).isSome ↔ ∃ c ∈ schema, c.name = name := by
  rw [columnIndex, List.findIdx?_isSome]
  simp

end Schema

inductive FieldValue where
  | null
  | integer (v : Int32)
  | text (s : Bytes)
  | boolean (b : Bool)
  deriving DecidableEq, Repr

end MiniDbms
