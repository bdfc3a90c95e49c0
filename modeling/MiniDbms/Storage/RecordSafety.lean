import MiniDbms.Lib.CheckedMemory
import MiniDbms.Storage.RecordRoundTrip

/-!
# Decoding arbitrary bytes

`RecordCodec::Deserialize` on bytes that no `Serialize` has written. `deserializeChecked` is the
function once more, over the bytes of the record and the two vectors as the source indexes
them, with every access checked; it always gives the result of `deserialize`.
-/

namespace MiniDbms

open Lib

namespace RecordCodec

/-! ## The accesses -/

/-- The `switch` of `Deserialize`: a field of `size` bytes at the offset `off` of the record. -/
def readFieldChecked (data : Bytes) (off size : Nat) (type : TypeId) :
    Option (Except Status FieldValue) :=
  match type with
  | .integer =>
    if size ≠ 4 then some (.error (.ioError "Corrupted INTEGER field"))
    else do
      let bytes ← slice? data off 4
      return .ok (.integer (UInt32.ofNat (leNat bytes)).toInt32)
  | .boolean =>
    if size ≠ 1 then some (.error (.ioError "Corrupted BOOLEAN field"))
    else do
      let byte ← data[off]?
      return .ok (.boolean (byte ≠ 0))
  | .varchar => do
    let bytes ← slice? data off size
    return .ok (.text bytes)

/-- Where a field ends: at the next offset, and the last one at the end of the payload. -/
def fieldEnd (offsets : List Nat) (payloadSize index : Nat) : Option Nat :=
  if index + 1 < offsets.length then offsets[index + 1]? else some payloadSize

/-- The loop of `Deserialize` over the columns, which indexes `offsets` and `null_bitmap`. -/
def readFieldsChecked (data nullBitmap : Bytes) (offsets : List Nat) (headerSize : Nat) :
    Nat → List Column → Option (Except Status (List FieldValue))
  | _, [] => some (.ok [])
  | index, column :: columns => do
    let payloadSize := data.length - headerSize
    let start ← offsets[index]?
    let stop ← fieldEnd offsets payloadSize index
    if stop < start ∨ payloadSize < stop then
      return .error (.ioError "Corrupted record column bounds")
    else
      let byte ← nullBitmap[index / 8]?
      let isNull := decide (byte &&& bitOf index ≠ 0)
      match ← bif isNull then some (.ok .null)
          else readFieldChecked data (headerSize + start) (stop - start) column.type with
      | .error e => return .error e
      | .ok value =>
        match ← readFieldsChecked data nullBitmap offsets headerSize (index + 1) columns with
        | .error e => return .error e
        | .ok values => return .ok (value :: values)

/-- `RecordCodec::Deserialize` with its accesses. -/
def deserializeChecked (schema : Schema) (data : Bytes) :
    Option (Except Status (List FieldValue)) :=
  if data.length < 2 then some (.error (.ioError "Record is too small to contain a header"))
  else do
    let columnCount := leNat (← slice? data 0 2)
    if columnCount ≠ schema.length then
      return .error (.ioError "Record column count does not match schema")
    else if data.length < headerSize columnCount then
      return .error (.ioError "Corrupted record header")
    else
      let nullBitmap ← slice? data 2 (nullBitmapSize columnCount)
      let stored ← slice? data (2 + nullBitmapSize columnCount) (columnCount * 2)
      let offsets := readOffsets columnCount stored
      match validateOffsets (data.length - headerSize columnCount) 0 offsets with
      | .error e => return .error e
      | .ok () => readFieldsChecked data nullBitmap offsets (headerSize columnCount) 0 schema

variable {schema : Schema} {data nullBitmap : Bytes} {values : List FieldValue}

/-- A field inside the record is read as from the payload. -/
theorem readFieldChecked_eq {off start stop : Nat} (type : TypeId) (hle : start ≤ stop)
    (hfit : off + stop ≤ data.length) :
    readFieldChecked data (off + start) (stop - start) type =
      some (readField type (((data.drop off).drop start).take (stop - start))) := by
  have hlength : (((data.drop off).drop start).take (stop - start)).length = stop - start := by
    simp only [List.length_take, List.length_drop]
    omega
  unfold readFieldChecked readField
  cases type with
  | integer =>
    dsimp only
    rw [hlength]
    split
    · rfl
    · rename_i hsize
      have hfour : stop - start = 4 := not_not.mp hsize
      rw [slice?_eq (by omega), hfour, List.drop_drop]
      rfl
  | boolean =>
    dsimp only
    rw [hlength]
    split
    · rfl
    · rename_i hsize
      have hone : stop - start = 1 := not_not.mp hsize
      have hlt : off + start < data.length := by omega
      rw [List.getElem?_eq_getElem hlt, hone, List.drop_drop, List.drop_eq_getElem_cons hlt]
      rfl
  | varchar =>
    dsimp only
    rw [slice?_eq (by omega), List.drop_drop]
    rfl

/-- The loop reads inside the record, the offsets and the bitmap. -/
theorem readFieldsChecked_eq {offsets : List Nat} {off : Nat} (hoff : off ≤ data.length)
    (hbitmap : offsets.length ≤ 8 * nullBitmap.length) :
    ∀ (columns : List Column) (index : Nat), index + columns.length = offsets.length →
      readFieldsChecked data nullBitmap offsets off index columns =
        some (readFields nullBitmap (data.drop off) index columns (offsets.drop index)) := by
  intro columns
  induction columns with
  | nil =>
    intro index hlength
    rw [List.length_nil, Nat.add_zero] at hlength
    have hnil : offsets.drop index = [] := List.drop_eq_nil_of_le (by omega)
    rw [hnil]
    rfl
  | cons column columns ih =>
    intro index hlength
    rw [List.length_cons] at hlength
    have hlt : index < offsets.length := by omega
    have hpayload : (data.drop off).length = data.length - off := List.length_drop
    have hstop : fieldEnd offsets (data.length - off) index =
        some ((offsets.drop (index + 1)).headD (data.length - off)) := by
      unfold fieldEnd
      split
      · rename_i hnext
        rw [List.getElem?_eq_getElem hnext, List.drop_eq_getElem_cons hnext]
        rfl
      · have hnil : offsets.drop (index + 1) = [] := List.drop_eq_nil_of_le (by omega)
        rw [hnil]
        rfl
    rw [readFieldsChecked, hstop, List.getElem?_eq_getElem hlt, List.drop_eq_getElem_cons hlt,
      readFields, hpayload]
    simp only [Option.bind_eq_bind, Option.bind_some]
    generalize (offsets.drop (index + 1)).headD (data.length - off) = stop
    split
    · rfl
    · rename_i hbounds
      have hbyte : index / 8 < nullBitmap.length := by omega
      have hnull : nullBitmap[index / 8] = nullBitmap.getD (index / 8) 0 := by
        rw [List.getD_eq_getElem?_getD, List.getElem?_eq_getElem hbyte, Option.getD_some]
      rw [List.getElem?_eq_getElem hbyte, readFieldChecked_eq column.type (by omega) (by omega),
        hnull, ih (index + 1) (by omega)]
      change (Option.bind
        (bif isNull nullBitmap index then some (.ok .null) else some (readField _ _)) _) = _
      cases hnull : isNull nullBitmap index with
      | true =>
        cases readFields nullBitmap (data.drop off) (index + 1) columns
          (offsets.drop (index + 1)) with
        | error e => rfl
        | ok rest => rfl
      | false =>
        simp only [cond_false, Option.bind_some, Bool.false_eq_true, if_false]
        cases readField column.type (((data.drop off).drop offsets[index]).take
          (stop - offsets[index])) with
        | error e => rfl
        | ok value =>
          cases readFields nullBitmap (data.drop off) (index + 1) columns
            (offsets.drop (index + 1)) with
          | error e => rfl
          | ok rest => rfl

theorem readOffsets_take (n : Nat) (bytes : Bytes) :
    readOffsets n (bytes.take (n * 2)) = readOffsets n bytes := by
  induction n generalizing bytes with
  | zero => rfl
  | succ n ih =>
    rw [readOffsets, readOffsets, List.take_take, List.drop_take, Nat.min_eq_left (by omega),
      show (n + 1) * 2 - 2 = n * 2 by omega, ih]

/-- `Deserialize` never reads outside the record. -/
theorem deserializeChecked_eq (schema : Schema) (data : Bytes) :
    deserializeChecked schema data = some (deserialize schema data) := by
  unfold deserializeChecked deserialize
  split
  · rfl
  rename_i hsize
  rw [slice?_eq (by omega)]
  simp only [List.drop_zero, Option.bind_eq_bind, Option.bind_some]
  split
  · rfl
  rename_i hcount
  split
  · rfl
  rename_i hheader
  have hle : headerSize (leNat (data.take 2)) ≤ data.length := Nat.not_lt.mp hheader
  have hparts : headerSize (leNat (data.take 2)) =
      2 + nullBitmapSize (leNat (data.take 2)) + leNat (data.take 2) * 2 := rfl
  rw [slice?_eq (by omega), slice?_eq (by omega)]
  simp only [Option.bind_some, readOffsets_take, List.length_drop]
  generalize validateOffsets _ _ _ = valid
  cases valid with
  | error e => rfl
  | ok _ =>
    dsimp only
    rw [readFieldsChecked_eq hle]
    · rfl
    · rw [length_readOffsets, List.length_take, List.length_drop, Nat.min_eq_left (by omega),
        nullBitmapSize]
      omega
    · rw [length_readOffsets, Nat.zero_add]
      exact (not_not.mp hcount).symm

/-! ## The values -/

/-- A value that is NULL or of the type. -/
def HasType : FieldValue → TypeId → Prop
  | .null, _ => True
  | .integer _, type => type = .integer
  | .text _, type => type = .varchar
  | .boolean _, type => type = .boolean

/-- A text is within the declared length of the column, if one is declared. -/
def Within (column : Column) (value : FieldValue) : Prop :=
  ∀ s, value = .text s → 0 < column.length.toNat → s.length ≤ column.length.toNat

theorem accepts_of_hasType {column : Column} {value : FieldValue} (ht : HasType value column.type)
    (hw : Within column value) : column.Accepts value := by
  cases value with
  | null => trivial
  | integer v => exact ht
  | text s => exact ⟨ht, hw s rfl⟩
  | boolean b => exact ht

theorem readField_sound {type : TypeId} {bytes : Bytes} {value : FieldValue}
    (h : readField type bytes = .ok value) : HasType value type ∧ value.size = bytes.length := by
  unfold readField at h
  cases type with
  | integer =>
    dsimp only at h
    split at h
    · cases h
    · rename_i hsize
      cases h
      exact ⟨rfl, (not_not.mp hsize).symm⟩
  | boolean =>
    dsimp only at h
    split at h
    · cases h
    · rename_i hsize
      cases h
      exact ⟨rfl, (not_not.mp hsize).symm⟩
  | varchar =>
    cases h
    exact ⟨rfl, rfl⟩

/-- The fields have their types, and do not overlap: together they fit behind the first offset. -/
theorem readFields_sound {payload : Bytes} : ∀ (columns : List Column) (index : Nat)
    (offsets : List Nat) (values : List FieldValue), offsets.length = columns.length →
      readFields nullBitmap payload index columns offsets = .ok values →
      List.Forall₂ (fun column value => HasType value column.type) columns values ∧
        payloadSize values ≤ payload.length - offsets.headD payload.length := by
  intro columns
  induction columns with
  | nil =>
    intro index offsets values _ h
    cases h
    exact ⟨.nil, Nat.zero_le _⟩
  | cons column columns ih =>
    intro index offsets values hlength h
    cases offsets with
    | nil => cases hlength
    | cons start offsets =>
      rw [readFields] at h
      dsimp only at h
      split at h
      · cases h
      rename_i hbounds
      have hfield : ∀ value, (if isNull nullBitmap index then Except.ok FieldValue.null
          else readField column.type ((payload.drop start).take
            (offsets.headD payload.length - start))) = .ok value →
          HasType value column.type ∧ value.size ≤ offsets.headD payload.length - start := by
        intro value hvalue
        split at hvalue
        · cases hvalue
          exact ⟨trivial, Nat.zero_le _⟩
        · obtain ⟨ht, hsize⟩ := readField_sound hvalue
          refine ⟨ht, ?_⟩
          rw [hsize, List.length_take]
          exact Nat.min_le_left _ _
      generalize (if isNull nullBitmap index then _ else _ : Except Status FieldValue) = field
        at h hfield
      cases field with
      | error e => cases h
      | ok value =>
        obtain ⟨ht, hsize⟩ := hfield value rfl
        cases hrest : readFields nullBitmap payload (index + 1) columns offsets with
        | error e =>
          rw [hrest] at h
          cases h
        | ok rest =>
          rw [hrest] at h
          cases h
          obtain ⟨hall, htotal⟩ := ih _ _ _ (Nat.succ.inj hlength) hrest
          refine ⟨.cons ht hall, ?_⟩
          rw [payloadSize_cons, List.headD_cons]
          omega

theorem deserialize_sound (h : deserialize schema data = .ok values) :
    List.Forall₂ (fun column value => HasType value column.type) schema values ∧
      headerSize schema.length + payloadSize values ≤ data.length := by
  unfold deserialize at h
  split at h
  · cases h
  dsimp only at h
  split at h
  · cases h
  rename_i hcount
  split at h
  · cases h
  rename_i hheader
  split at h
  · cases h
  · obtain ⟨hall, htotal⟩ := readFields_sound schema 0 _ values
      (by rw [length_readOffsets]; exact not_not.mp hcount) h
    rw [← not_not.mp hcount]
    rw [List.length_drop] at htotal
    exact ⟨hall, by omega⟩

/-- Decoding arbitrary bytes is safe, and what it returns can be written again and is then read
back. -/
theorem deserialize_safe (schema : Schema) (data : Bytes) (hsize : data.length ≤ 65535) :
    deserializeChecked schema data = some (deserialize schema data) ∧
      ∀ values, deserialize schema data = .ok values →
        values.length = schema.length ∧ (∀ p ∈ schema.zip values, HasType p.2 p.1.type) ∧
          ((∀ p ∈ schema.zip values, Within p.1 p.2) →
            ∃ data', serialize schema values = .ok data' ∧
              deserialize schema data' = .ok values) := by
  refine ⟨deserializeChecked_eq schema data, fun values h => ?_⟩
  obtain ⟨hall, htotal⟩ := deserialize_sound h
  have htypes : ∀ p ∈ schema.zip values, HasType p.2 p.1.type := fun p hp =>
    (List.forall₂_iff_zip.mp hall).2 hp
  refine ⟨hall.length_eq.symm, htypes, fun hwithin => ?_⟩
  have haccepts : List.Forall₂ Column.Accepts schema values := by
    rw [forall₂_accepts_iff]
    exact ⟨hall.length_eq.symm, fun p hp => accepts_of_hasType (htypes p hp) (hwithin p hp)⟩
  obtain ⟨data', hdata'⟩ := (serialize_isOk_iff schema values).mpr ⟨haccepts, by omega⟩
  exact ⟨data', hdata', deserialize_serialize hdata'⟩

/-- A record with a set padding bit, a gap of two bytes before the first field, a NULL field of
three bytes and the BOOLEAN 7. -/
def looseRecord : Bytes := [3, 0, 130, 2, 0, 3, 0, 6, 0, 99, 99, 7, 1, 2, 3, 104, 105]

theorem deserialize_safe_loose : ∃ data',
    serialize [⟨str "a", .boolean, 0⟩, ⟨str "b", .integer, 0⟩, ⟨str "c", .varchar, 4⟩]
      [.boolean true, .null, .text (str "hi")] = .ok data' ∧
    deserialize [⟨str "a", .boolean, 0⟩, ⟨str "b", .integer, 0⟩, ⟨str "c", .varchar, 4⟩] data' =
      .ok [.boolean true, .null, .text (str "hi")] := by
  have h := deserialize_safe
    [⟨str "a", .boolean, 0⟩, ⟨str "b", .integer, 0⟩, ⟨str "c", .varchar, 4⟩]
    looseRecord (by decide)
  apply (h.2 [.boolean true, .null, .text (str "hi")] (by decide +kernel)).2.2
  intro p hp s hs _
  have hp : p = (⟨str "a", .boolean, 0⟩, .boolean true) ∨ p = (⟨str "b", .integer, 0⟩, .null) ∨
      p = (⟨str "c", .varchar, 4⟩, .text (str "hi")) := by simpa using hp
  rcases hp with rfl | rfl | rfl
  · cases hs
  · cases hs
  · cases hs
    decide +kernel

end RecordCodec

end MiniDbms
