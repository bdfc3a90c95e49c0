import MiniDbms.Storage.RecordCodec
import Mathlib.Data.List.Forall2

/-!
# Which values a record can hold

`Serialize` takes exactly the lists of values that fit the columns and the 16-bit offsets, and
`Deserialize` and `GetValue` give them back.
-/

namespace MiniDbms

open Lib

/-- A value that a column can hold. A declared length of 0 is no bound. -/
def Column.Accepts (column : Column) : FieldValue → Prop
  | .null => True
  | .integer _ => column.type = .integer
  | .text s => column.type = .varchar ∧ (0 < column.length.toNat → s.length ≤ column.length.toNat)
  | .boolean _ => column.type = .boolean

instance (column : Column) : DecidablePred column.Accepts
  | .null => inferInstanceAs (Decidable True)
  | .integer _ => inferInstanceAs (Decidable (column.type = .integer))
  | .text s => inferInstanceAs (Decidable (column.type = .varchar ∧
      (0 < column.length.toNat → s.length ≤ column.length.toNat)))
  | .boolean _ => inferInstanceAs (Decidable (column.type = .boolean))

/-- The number of bytes that a value takes in the payload. -/
def FieldValue.size : FieldValue → Nat
  | .null => 0
  | .integer _ => 4
  | .text s => s.length
  | .boolean _ => 1

namespace RecordCodec

variable {column : Column} {value : FieldValue} {bytes data : Bytes} {fields fields' : Fields}
  {schema : Schema} {values : List FieldValue} {index : Nat}

/-- The sizes of the values together. -/
def payloadSize (values : List FieldValue) : Nat := (values.map FieldValue.size).sum

@[simp] theorem payloadSize_nil : payloadSize [] = 0 := rfl

@[simp] theorem payloadSize_cons (value : FieldValue) (values : List FieldValue) :
    payloadSize (value :: values) = value.size + payloadSize values := rfl

/-! ## One column -/

theorem fieldBytes_of_accepts (hnull : value ≠ .null) (h : column.Accepts value) :
    ∃ bytes, fieldBytes column value = .ok bytes ∧ bytes.length = value.size := by
  unfold fieldBytes
  cases value with
  | null => exact absurd rfl hnull
  | integer v =>
    have ht : column.type = .integer := h
    rw [ht]
    exact ⟨_, rfl, length_leBytes 4 _⟩
  | boolean b =>
    have ht : column.type = .boolean := h
    rw [ht]
    exact ⟨_, rfl, rfl⟩
  | text s =>
    rw [h.1]
    dsimp only
    rw [if_neg fun hlt => Nat.not_le.mpr hlt.2 (h.2 hlt.1)]
    exact ⟨s, rfl, rfl⟩

theorem accepts_of_fieldBytes (h : fieldBytes column value = .ok bytes) :
    column.Accepts value ∧ bytes.length = value.size := by
  unfold fieldBytes at h
  cases ht : column.type <;> rw [ht] at h <;> dsimp only at h
  · cases value <;> cases h
    exact ⟨ht, length_leBytes 4 _⟩
  · cases value with
    | text s =>
      dsimp only at h
      split at h
      · cases h
      · rename_i hlt
        cases h
        exact ⟨⟨ht, fun hpos => Nat.le_of_not_lt fun hlong => hlt ⟨hpos, hlong⟩⟩, rfl⟩
    | _ => cases h
  · cases value <;> cases h
    exact ⟨ht, rfl⟩

/-- One round of the loop takes a value that fits, while the offset fits into 16 bits. -/
theorem appendField_of_accepts (index : Nat) (hle : fields.payload.length ≤ 65535)
    (h : column.Accepts value) :
    ∃ fields', appendField index column value fields = .ok fields' ∧
      fields'.payload.length = fields.payload.length + value.size := by
  unfold appendField
  rw [if_neg (Nat.not_lt.mpr hle)]
  by_cases hnull : value = .null
  · subst hnull
    exact ⟨_, if_pos rfl, rfl⟩
  · obtain ⟨bytes, hb, hsize⟩ := fieldBytes_of_accepts hnull h
    dsimp only
    rw [if_neg hnull, hb]
    refine ⟨_, rfl, ?_⟩
    rw [List.length_append, hsize]

theorem accepts_of_appendField (h : appendField index column value fields = .ok fields') :
    column.Accepts value ∧ fields.payload.length ≤ 65535 ∧
      fields'.payload.length = fields.payload.length + value.size ∧
      fields'.offsets = fields.offsets ++ [fields.payload.length] := by
  unfold appendField at h
  split at h
  · cases h
  rename_i hle
  have hle : fields.payload.length ≤ 65535 := Nat.le_of_not_lt hle
  split at h
  · rename_i hnull
    cases h
    subst hnull
    exact ⟨trivial, hle, rfl, rfl⟩
  · cases hb : fieldBytes column value with
    | error e =>
      rw [hb] at h
      cases h
    | ok bytes =>
      rw [hb] at h
      cases h
      obtain ⟨hacc, hsize⟩ := accepts_of_fieldBytes hb
      refine ⟨hacc, hle, ?_, rfl⟩
      rw [List.length_append, hsize]

/-! ## All columns -/

theorem serializeLoop_of_accepts (h : List.Forall₂ Column.Accepts schema values) :
    ∀ (index : Nat) (fields : Fields), fields.payload.length + payloadSize values ≤ 65535 →
      ∃ fields', serializeLoop index schema values fields = .ok fields' ∧
        fields'.payload.length = fields.payload.length + payloadSize values := by
  induction h with
  | nil => exact fun index fields _ => ⟨fields, rfl, rfl⟩
  | @cons column value schema values hv _ ih =>
    intro index fields hsize
    rw [payloadSize_cons] at hsize
    have hle : fields.payload.length ≤ 65535 := by omega
    obtain ⟨mid, hmid, hlength⟩ := appendField_of_accepts index hle hv
    obtain ⟨fields', hrest, htotal⟩ := ih (index + 1) mid (by omega)
    refine ⟨fields', ?_, ?_⟩
    · rw [serializeLoop, hmid]
      exact hrest
    · rw [payloadSize_cons]
      omega

theorem accepts_of_serializeLoop : ∀ (schema : Schema) (values : List FieldValue) (index : Nat)
    (fields : Fields), values.length = schema.length →
      serializeLoop index schema values fields = .ok fields' →
      List.Forall₂ Column.Accepts schema values ∧
        fields'.payload.length = fields.payload.length + payloadSize values := by
  intro schema
  induction schema with
  | nil =>
    intro values index fields hlength h
    cases List.eq_nil_of_length_eq_zero hlength
    cases h
    exact ⟨.nil, rfl⟩
  | cons column schema ih =>
    intro values index fields hlength h
    cases values with
    | nil => cases hlength
    | cons value values =>
      rw [serializeLoop] at h
      cases ha : appendField index column value fields with
      | error e =>
        rw [ha] at h
        cases h
      | ok mid =>
        rw [ha] at h
        obtain ⟨hacc, -, hmid, -⟩ := accepts_of_appendField ha
        obtain ⟨hrest, htotal⟩ := ih values (index + 1) mid (Nat.succ.inj hlength) h
        refine ⟨.cons hacc hrest, ?_⟩
        rw [htotal, hmid, payloadSize_cons, Nat.add_assoc]

/-- The conversions of the payload size to a 16-bit offset change nothing. -/
theorem offsets_of_serializeLoop : ∀ (schema : Schema) (values : List FieldValue) (index : Nat)
    (fields : Fields), (∀ o ∈ fields.offsets, o ≤ 65535) →
      serializeLoop index schema values fields = .ok fields' → ∀ o ∈ fields'.offsets,
      o ≤ 65535 := by
  intro schema
  induction schema with
  | nil =>
    intro values index fields hle h
    cases h
    exact hle
  | cons column schema ih =>
    intro values index fields hle h
    cases values with
    | nil =>
      cases h
      exact hle
    | cons value values =>
      rw [serializeLoop] at h
      cases ha : appendField index column value fields with
      | error e =>
        rw [ha] at h
        cases h
      | ok mid =>
        rw [ha] at h
        obtain ⟨-, hpayload, -, hoffsets⟩ := accepts_of_appendField ha
        refine ih values (index + 1) mid (fun o ho => ?_) h
        rw [hoffsets, List.mem_append, List.mem_singleton] at ho
        rcases ho with ho | rfl
        · exact hle o ho
        · exact hpayload

/-! ## Records -/

/-- What the loop of `Serialize` starts with. -/
def emptyFields (columnCount : Nat) : Fields :=
  ⟨List.replicate (nullBitmapSize columnCount) 0, [], []⟩

theorem serialize_isOk_iff (schema : Schema) (values : List FieldValue) :
    (∃ data, serialize schema values = .ok data) ↔
      List.Forall₂ Column.Accepts schema values ∧
        headerSize schema.length + payloadSize values ≤ 65535 := by
  constructor
  · intro ⟨data, h⟩
    unfold serialize at h
    split at h
    · cases h
    rename_i hvalues
    split at h
    · cases h
    split at h
    · cases h
    cases hl : serializeLoop 0 schema values (emptyFields schema.length) with
    | error e =>
      rw [emptyFields] at hl
      rw [hl] at h
      cases h
    | ok fields =>
      obtain ⟨hacc, hsize⟩ := accepts_of_serializeLoop schema values 0 _ (not_not.mp hvalues) hl
      rw [emptyFields] at hl
      rw [hl] at h
      dsimp only at h
      split at h
      · cases h
      rename_i htotal
      rw [hsize] at htotal
      refine ⟨hacc, ?_⟩
      have hzero : (emptyFields schema.length).payload.length = 0 := rfl
      omega
  · intro ⟨hacc, hsize⟩
    have hheader : schema.length ≤ headerSize schema.length := by
      unfold headerSize
      omega
    obtain ⟨fields, hl, hlength⟩ := serializeLoop_of_accepts hacc 0 (emptyFields schema.length) (by
      have hzero : (emptyFields schema.length).payload.length = 0 := rfl
      omega)
    have hzero : (emptyFields schema.length).payload.length = 0 := rfl
    unfold serialize
    rw [if_neg (not_not.mpr hacc.length_eq.symm), if_neg (by omega), if_neg (by omega)]
    rw [emptyFields] at hl
    rw [hl]
    dsimp only
    rw [if_neg (by omega)]
    exact ⟨_, rfl⟩

theorem forall₂_accepts_iff : List.Forall₂ Column.Accepts schema values ↔
    values.length = schema.length ∧ ∀ p ∈ schema.zip values, p.1.Accepts p.2 := by
  rw [List.forall₂_iff_zip, eq_comm]
  refine and_congr_right fun _ => ⟨fun h p hp => h hp, fun h {column value} hp => h _ hp⟩

/-- A record is written exactly for values that fit, it is read back as these values, and on the way
no offset and no column count leaves its 16 bits. -/
theorem serialize_roundTrip (schema : Schema) (values : List FieldValue) :
    (∀ data, serialize schema values = .ok data →
      deserialize schema data = .ok values ∧
        ∀ (i : Nat) (hi : i < values.length), getValue schema data i = .ok values[i]) ∧
      ((∃ data, serialize schema values = .ok data) ↔
        values.length = schema.length ∧ (∀ p ∈ schema.zip values, p.1.Accepts p.2) ∧
          2 + (schema.length + 7) / 8 + 2 * schema.length + payloadSize values ≤ 65535) ∧
      (∀ (n : Nat) (fields : Fields),
        serializeLoop 0 (schema.take n) (values.take n) (emptyFields schema.length) = .ok fields →
          ∀ o ∈ fields.offsets, toU16 o = o) ∧
      (∀ data, serialize schema values = .ok data → toU16 schema.length = schema.length) := by
  refine ⟨fun data h => ?_, ?_, fun n fields h o ho => ?_, fun data h => ?_⟩
  · have hvalues := deserialize_serialize h
    refine ⟨hvalues, fun i hi => ?_⟩
    rw [length_deserialize hvalues] at hi
    obtain ⟨value, hget, hvalue⟩ := getValue_eq hvalues hi
    rw [hget, (List.getElem_eq_iff _).mpr hvalue]
  · have hheader : headerSize schema.length = 2 + (schema.length + 7) / 8 + 2 * schema.length := by
      rw [headerSize, nullBitmapSize, Nat.mul_comm]
    rw [serialize_isOk_iff, forall₂_accepts_iff, hheader, and_assoc]
  · refine toU16_of_lt (Nat.lt_succ_of_le ?_)
    exact offsets_of_serializeLoop _ _ 0 _ (fun _ hnil => absurd hnil List.not_mem_nil) h o ho
  · have hsize := ((serialize_isOk_iff schema values).mp ⟨data, h⟩).2
    refine toU16_of_lt ?_
    unfold headerSize at hsize
    omega

example : serialize [⟨str "a", .varchar, 0⟩, ⟨str "b", .integer, 0⟩] [.text [], .null] =
    .ok [2, 0, 2, 0, 0, 0, 0] := by
  decide +kernel

end RecordCodec

end MiniDbms
