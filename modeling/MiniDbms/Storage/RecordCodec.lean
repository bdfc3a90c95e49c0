import MiniDbms.Catalog.Schema
import Mathlib.Data.Nat.Bitwise

/-!
# Record codec

`RecordCodec` of `storage/record_codec.cpp`. A record is the number of columns, a bitmap of the
NULL columns, the offset of each column in the payload, and the payload. `deserialize_serialize`
is the round trip.
-/

namespace MiniDbms

open Lib

namespace RecordCodec

/-- `NullBitmapSize`. -/
def nullBitmapSize (columnCount : Nat) : Nat := (columnCount + 7) / 8

/-- The bit of a column in its byte of the bitmap. -/
def bitOf (index : Nat) : UInt8 := UInt8.ofNat (2 ^ (index % 8))

/-- `IsNull`. -/
def isNull (bitmap : Bytes) (index : Nat) : Bool := bitmap.getD (index / 8) 0 &&& bitOf index ≠ 0

/-- `SetNull`. -/
def setNull (bitmap : Bytes) (index : Nat) : Bytes :=
  bitmap.modify (index / 8) fun byte => byte ||| bitOf index

/-! ## Serialization -/

/-- The bytes that a value other than NULL adds to the payload. -/
def fieldBytes (column : Column) (value : FieldValue) : Except Status Bytes :=
  match column.type with
  | .integer =>
    match value with
    | .integer v => .ok (leBytes 4 v.toUInt32.toNat)
    | _ => .error (.invalidArgument "INTEGER column received an incompatible value")
  | .boolean =>
    match value with
    | .boolean b => .ok [if b then 1 else 0]
    | _ => .error (.invalidArgument "BOOLEAN column received an incompatible value")
  | .varchar =>
    match value with
    | .text s =>
      if 0 < column.length.toNat ∧ column.length.toNat < s.length then
        .error (.invalidArgument "VARCHAR value exceeds the declared length")
      else .ok s
    | _ => .error (.invalidArgument "VARCHAR column received an incompatible value")

/-- `null_bitmap`, `offsets` and `payload`. -/
structure Fields where
  nullBitmap : Bytes
  offsets : List Nat
  payload : Bytes

/-- The body of the loop of `Serialize`. -/
def appendField (index : Nat) (column : Column) (value : FieldValue) (fields : Fields) :
    Except Status Fields :=
  if 65535 < fields.payload.length then .error (.outOfMemory "Record payload is too large")
  else
    let offsets := fields.offsets ++ [fields.payload.length]
    if value = .null then .ok ⟨setNull fields.nullBitmap index, offsets, fields.payload⟩
    else
      match fieldBytes column value with
      | .error e => .error e
      | .ok bytes => .ok ⟨fields.nullBitmap, offsets, fields.payload ++ bytes⟩

/-- The loop of `Serialize`. -/
def serializeLoop : Nat → List Column → List FieldValue → Fields → Except Status Fields
  | index, column :: columns, value :: values, fields =>
    match appendField index column value fields with
    | .error e => .error e
    | .ok fields => serializeLoop (index + 1) columns values fields
  | _, _, _, fields => .ok fields

/-- `sizeof(uint16_t) + bitmap_size + column_count * sizeof(uint16_t)`. -/
def headerSize (columnCount : Nat) : Nat := 2 + nullBitmapSize columnCount + columnCount * 2

/-- `RecordCodec::Serialize`. -/
def serialize (schema : Schema) (values : List FieldValue) : Except Status Bytes :=
  if values.length ≠ schema.length then
    .error (.invalidArgument "Value count does not match schema")
  else if 65535 < schema.length then .error (.invalidArgument "Schema has too many columns")
  else if 65535 < headerSize schema.length then
    .error (.invalidArgument "Record header is too large")
  else
    match serializeLoop 0 schema values
        ⟨List.replicate (nullBitmapSize schema.length) 0, [], []⟩ with
    | .error e => .error e
    | .ok fields =>
      if 65535 < headerSize schema.length + fields.payload.length then
        .error (.outOfMemory "Serialized record is too large")
      else
        .ok (leBytes 2 schema.length ++ (fields.nullBitmap ++
          (fields.offsets.flatMap (leBytes 2) ++ fields.payload)))

/-! ## Deserialization -/

def readOffsets : Nat → Bytes → List Nat
  | 0, _ => []
  | count + 1, bytes => leNat (bytes.take 2) :: readOffsets count (bytes.drop 2)

/-- The loop of `Deserialize` over the offsets. -/
def validateOffsets (payloadSize : Nat) : Nat → List Nat → Except Status Unit
  | _, [] => .ok ()
  | previous, offset :: offsets =>
    if payloadSize < offset then .error (.ioError "Corrupted record column offset")
    else if offset < previous then .error (.ioError "Record column offsets are not ordered")
    else validateOffsets payloadSize offset offsets

def readField (type : TypeId) (bytes : Bytes) : Except Status FieldValue :=
  match type with
  | .integer =>
    if bytes.length ≠ 4 then .error (.ioError "Corrupted INTEGER field")
    else .ok (.integer (UInt32.ofNat (leNat bytes)).toInt32)
  | .boolean =>
    if bytes.length ≠ 1 then .error (.ioError "Corrupted BOOLEAN field")
    else .ok (.boolean (bytes.headD 0 ≠ 0))
  | .varchar => .ok (.text bytes)

/-- The loop of `Deserialize` over the columns, with the offsets from the current column on. -/
def readFields (nullBitmap payload : Bytes) :
    Nat → List Column → List Nat → Except Status (List FieldValue)
  | index, column :: columns, start :: offsets =>
    let stop := offsets.headD payload.length
    if stop < start ∨ payload.length < stop then
      .error (.ioError "Corrupted record column bounds")
    else
      let field :=
        if isNull nullBitmap index then .ok .null
        else readField column.type ((payload.drop start).take (stop - start))
      match field with
      | .error e => .error e
      | .ok value =>
        match readFields nullBitmap payload (index + 1) columns offsets with
        | .error e => .error e
        | .ok values => .ok (value :: values)
  | _, _, _ => .ok []

/-- `RecordCodec::Deserialize`. -/
def deserialize (schema : Schema) (data : Bytes) : Except Status (List FieldValue) :=
  if data.length < 2 then .error (.ioError "Record is too small to contain a header")
  else
    let columnCount := leNat (data.take 2)
    if columnCount ≠ schema.length then
      .error (.ioError "Record column count does not match schema")
    else if data.length < headerSize columnCount then .error (.ioError "Corrupted record header")
    else
      let nullBitmap := (data.drop 2).take (nullBitmapSize columnCount)
      let offsets := readOffsets columnCount (data.drop (2 + nullBitmapSize columnCount))
      let payload := data.drop (headerSize columnCount)
      match validateOffsets payload.length 0 offsets with
      | .error e => .error e
      | .ok () => readFields nullBitmap payload 0 schema offsets

/-- `RecordCodec::GetValue`. -/
def getValue (schema : Schema) (data : Bytes) (columnIndex : Nat) : Except Status FieldValue :=
  match deserialize schema data with
  | .error e => .error e
  | .ok values =>
    match values[columnIndex]? with
    | none => .error (.invalidArgument "Column index is out of range")
    | some value => .ok value

/-- The loop of `Project`: the columns with the given numbers and their values. -/
def projectColumns (schema : Schema) (values : List FieldValue) :
    List Nat → Except Status (List (Column × FieldValue))
  | [] => .ok []
  | index :: indices =>
    match schema[index]?, values[index]? with
    | some column, some value =>
      match projectColumns schema values indices with
      | .error e => .error e
      | .ok rest => .ok ((column, value) :: rest)
    | _, _ => .error (.invalidArgument "Projection column index is out of range")

/-- `RecordCodec::Project`; the record keeps its id. -/
def project (schema : Schema) (data : Bytes) (columnIndices : List Nat) : Except Status Bytes :=
  match deserialize schema data with
  | .error e => .error e
  | .ok values =>
    match projectColumns schema values columnIndices with
    | .error e => .error e
    | .ok projected => serialize (projected.map Prod.fst) (projected.map Prod.snd)

/-! ## The bitmap -/

variable {bitmap : Bytes} {i j : Nat}

theorem toNat_bitOf (i : Nat) : (bitOf i).toNat = 2 ^ (i % 8) := by
  have hlt : 2 ^ (i % 8) < 2 ^ 8 := Nat.pow_lt_pow_right (by omega) (Nat.mod_lt _ (by omega))
  rw [bitOf, UInt8.toNat_ofNat']
  exact Nat.mod_eq_of_lt hlt

theorem isNull_eq_testBit (bitmap : Bytes) (i : Nat) :
    isNull bitmap i = (bitmap.getD (i / 8) 0).toNat.testBit (i % 8) := by
  have hand : (bitmap.getD (i / 8) 0 &&& bitOf i).toNat =
      ((bitmap.getD (i / 8) 0).toNat.testBit (i % 8)).toNat * 2 ^ (i % 8) := by
    rw [UInt8.toNat_and, toNat_bitOf, Nat.and_two_pow]
  have hne : (bitmap.getD (i / 8) 0 &&& bitOf i) ≠ 0 ↔
      (bitmap.getD (i / 8) 0 &&& bitOf i).toNat ≠ 0 := by
    rw [ne_eq, ne_eq, ← UInt8.toNat_inj]
    rfl
  rw [isNull, Bool.eq_iff_iff, decide_eq_true_eq, hne, hand]
  cases (bitmap.getD (i / 8) 0).toNat.testBit (i % 8) <;> simp

@[simp] theorem length_setNull (bitmap : Bytes) (i : Nat) :
    (setNull bitmap i).length = bitmap.length := by
  simp [setNull]

theorem isNull_setNull_self (hi : i / 8 < bitmap.length) : isNull (setNull bitmap i) i = true := by
  rw [isNull_eq_testBit, setNull, List.getD_eq_getElem?_getD, List.getElem?_modify_eq,
    List.getElem?_eq_getElem hi, Option.map_eq_map, Option.map_some, Option.getD_some,
    UInt8.toNat_or, toNat_bitOf, Nat.testBit_or, Nat.testBit_two_pow_self, Bool.or_true]

theorem isNull_setNull_of_ne (hne : j ≠ i) : isNull (setNull bitmap i) j = isNull bitmap j := by
  rw [isNull_eq_testBit, isNull_eq_testBit, setNull, List.getD_eq_getElem?_getD,
    List.getD_eq_getElem?_getD]
  by_cases hbyte : i / 8 = j / 8
  · have hbit : (2 ^ (i % 8)).testBit (j % 8) = false := by
      rw [Nat.testBit_two_pow]
      exact decide_eq_false (by omega)
    rw [hbyte, List.getElem?_modify_eq]
    cases bitmap[j / 8]? with
    | none => rfl
    | some byte =>
      simp only [Option.map_eq_map, Option.map_some, Option.getD_some]
      rw [UInt8.toNat_or, toNat_bitOf, Nat.testBit_or, hbit, Bool.or_false]
  · rw [List.getElem?_modify_ne _ _ hbyte]

theorem isNull_replicate (n i : Nat) : isNull (List.replicate n 0) i = false := by
  have hzero : (List.replicate n (0 : UInt8)).getD (i / 8) 0 = 0 := by
    rw [List.getD_eq_getElem?_getD, List.getElem?_replicate]
    split <;> rfl
  rw [isNull_eq_testBit, hzero]
  exact Nat.zero_testBit _

/-! ## The round trip -/

variable {column : Column} {value : FieldValue} {bytes : Bytes} {fields fields' : Fields}
  {schema : Schema} {values : List FieldValue} {data : Bytes}

/-- What is written for a value is read back as this value. -/
theorem readField_fieldBytes (h : fieldBytes column value = .ok bytes) :
    readField column.type bytes = .ok value := by
  unfold fieldBytes at h
  unfold readField
  cases ht : column.type <;> rw [ht] at h <;> dsimp only at h ⊢
  · cases value <;> cases h
    rename_i v
    rw [if_neg (by simp), leNat_leBytes_of_lt (w := 4) v.toUInt32.toNat_lt]
    simp
  · cases value with
    | text s =>
      dsimp only at h
      split at h
      · cases h
      · cases h
        rfl
    | _ => cases h
  · cases value <;> cases h
    rename_i b
    cases b <;> rfl

theorem readOffsets_flatMap (offsets : List Nat) (rest : Bytes) (h : ∀ o ∈ offsets, o ≤ 65535) :
    readOffsets offsets.length (offsets.flatMap (leBytes 2) ++ rest) = offsets := by
  induction offsets with
  | nil => rfl
  | cons o offsets ih =>
    have ho : o < 256 ^ 2 := Nat.lt_of_le_of_lt (h o List.mem_cons_self) (by omega)
    rw [List.length_cons, List.flatMap_cons, List.append_assoc, readOffsets,
      List.take_left' (length_leBytes 2 o), List.drop_left' (length_leBytes 2 o),
      leNat_leBytes_of_lt ho, ih fun x hx => h x (List.mem_cons_of_mem o hx)]

/-- What the loop of `Serialize` has added is read back by the loops of `Deserialize`. -/
structure Reads (index : Nat) (schema : Schema) (values : List FieldValue) (fields fields' : Fields)
    (offsets : List Nat) (payload : Bytes) : Prop where
  offsets_eq : fields'.offsets = fields.offsets ++ offsets
  payload_eq : fields'.payload = fields.payload ++ payload
  bitmap_length : fields'.nullBitmap.length = fields.nullBitmap.length
  bitmap_before : ∀ j < index, isNull fields'.nullBitmap j = isNull fields.nullBitmap j
  offsets_length : offsets.length = schema.length
  offsets_le : ∀ o ∈ offsets, o ≤ 65535
  first : offsets.headD fields'.payload.length = fields.payload.length
  ordered : ∀ previous ≤ fields.payload.length,
    validateOffsets fields'.payload.length previous offsets = .ok ()
  fields_eq : readFields fields'.nullBitmap fields'.payload index schema offsets = .ok values

/-- What one round of the loop adds. -/
theorem appendField_eq {index : Nat} (h : appendField index column value fields = .ok fields')
    (hlen : index / 8 < fields.nullBitmap.length) (hzero : isNull fields.nullBitmap index = false) :
    ∃ bytes, fields'.offsets = fields.offsets ++ [fields.payload.length] ∧
      fields'.payload = fields.payload ++ bytes ∧ fields.payload.length ≤ 65535 ∧
      fields'.nullBitmap.length = fields.nullBitmap.length ∧
      (∀ j, j ≠ index → isNull fields'.nullBitmap j = isNull fields.nullBitmap j) ∧
      (if isNull fields'.nullBitmap index then .ok .null else readField column.type bytes) =
        Except.ok value := by
  unfold appendField at h
  split at h
  · cases h
  rename_i hle
  have hle : fields.payload.length ≤ 65535 := Nat.le_of_not_lt hle
  split at h
  · rename_i hnull
    cases h
    refine ⟨[], rfl, (List.append_nil _).symm, hle, length_setNull _ _,
      fun j hj => isNull_setNull_of_ne hj, ?_⟩
    rw [if_pos (isNull_setNull_self hlen), hnull]
  · cases hb : fieldBytes column value with
    | error e =>
      rw [hb] at h
      cases h
    | ok bytes =>
      rw [hb] at h
      cases h
      refine ⟨bytes, rfl, rfl, hle, rfl, fun _ _ => rfl, ?_⟩
      rw [hzero, if_neg Bool.false_ne_true]
      exact readField_fieldBytes hb

theorem serializeLoop_reads : ∀ (schema : Schema) (values : List FieldValue) (index : Nat)
    (fields : Fields), serializeLoop index schema values fields = .ok fields' →
      values.length = schema.length → index + schema.length ≤ 8 * fields.nullBitmap.length →
      (∀ j, index ≤ j → isNull fields.nullBitmap j = false) →
      ∃ offsets payload, Reads index schema values fields fields' offsets payload := by
  intro schema
  induction schema with
  | nil =>
    intro values index fields h hvalues _ _
    cases List.eq_nil_of_length_eq_zero hvalues
    cases h
    exact ⟨[], [], (List.append_nil _).symm, (List.append_nil _).symm, rfl, fun _ _ => rfl, rfl,
      nofun, rfl, fun _ _ => rfl, rfl⟩
  | cons column schema ih =>
    intro values index fields h hvalues hlen hzero
    cases values with
    | nil => cases hvalues
    | cons value values =>
      rw [serializeLoop] at h
      cases ha : appendField index column value fields with
      | error e =>
        rw [ha] at h
        cases h
      | ok mid =>
        rw [ha] at h
        rw [List.length_cons] at hlen
        obtain ⟨bytes, hoff, hpay, hle, hbit, hother, hfield⟩ :=
          appendField_eq ha (by omega) (hzero index (Nat.le_refl _))
        obtain ⟨offsets, payload, hr⟩ := ih values (index + 1) mid h (Nat.succ.inj hvalues)
          (by rw [hbit]; omega) fun j hj => by rw [hother j (by omega), hzero j (by omega)]
        have hstop : mid.payload.length = fields.payload.length + bytes.length := by
          rw [hpay, List.length_append]
        have htotal : fields'.payload.length = mid.payload.length + payload.length := by
          rw [hr.payload_eq, List.length_append]
        refine ⟨fields.payload.length :: offsets, bytes ++ payload, ?_, ?_, ?_, ?_, ?_, ?_,
          rfl, ?_, ?_⟩
        · rw [hr.offsets_eq, hoff, List.append_assoc, List.singleton_append]
        · rw [hr.payload_eq, hpay, List.append_assoc]
        · rw [hr.bitmap_length, hbit]
        · intro j hj
          rw [hr.bitmap_before j (by omega), hother j (by omega)]
        · rw [List.length_cons, List.length_cons, hr.offsets_length]
        · intro o ho
          rcases List.mem_cons.mp ho with rfl | ho
          · exact hle
          · exact hr.offsets_le o ho
        · intro previous hprevious
          rw [validateOffsets, if_neg (by omega), if_neg (by omega)]
          exact hr.ordered _ (by omega)
        · -- the field is what lies between this offset and the next
          have hslice : (fields'.payload.drop fields.payload.length).take
              (mid.payload.length - fields.payload.length) = bytes := by
            rw [hr.payload_eq, hpay, List.append_assoc, List.drop_left]
            exact List.take_left' (by simp)
          rw [readFields, hr.first, hslice, hr.bitmap_before index (by omega), hfield, hr.fields_eq]
          exact if_neg (by omega)

theorem nullBitmapSize_le (n : Nat) : n ≤ 8 * nullBitmapSize n := by
  unfold nullBitmapSize
  omega

/-- A record is read back as the values that it was made of. -/
theorem deserialize_serialize (h : serialize schema values = .ok data) :
    deserialize schema data = .ok values := by
  unfold serialize at h
  split at h
  · cases h
  rename_i hvalues
  split at h
  · cases h
  rename_i hcount
  split at h
  · cases h
  cases hl : serializeLoop 0 schema values
      ⟨List.replicate (nullBitmapSize schema.length) 0, [], []⟩ with
  | error e =>
    rw [hl] at h
    cases h
  | ok fields =>
    rw [hl] at h
    dsimp only at h
    split at h
    · cases h
    injection h with h
    obtain ⟨offsets, payload, hr⟩ := serializeLoop_reads schema values 0 _ hl (not_not.mp hvalues)
      (by simpa using nullBitmapSize_le schema.length) fun j _ => isNull_replicate _ j
    have hbits : fields.nullBitmap.length = nullBitmapSize schema.length := by
      rw [hr.bitmap_length, List.length_replicate]
    have hoffs : fields.offsets = offsets := hr.offsets_eq
    have hflat : (fields.offsets.flatMap (leBytes 2)).length = schema.length * 2 := by
      rw [hoffs, List.length_flatMap, ← hr.offsets_length]
      simp
    have hlength : data.length = headerSize schema.length + fields.payload.length := by
      rw [← h, headerSize]
      simp only [List.length_append, length_leBytes, hbits, hflat]
      omega
    have htake : leNat (data.take 2) = schema.length := by
      rw [← h, List.take_left' (length_leBytes _ _)]
      exact leNat_leBytes_of_lt (by omega)
    have hdrop : data.drop 2 = fields.nullBitmap ++
        (fields.offsets.flatMap (leBytes 2) ++ fields.payload) := by
      rw [← h, List.drop_left' (length_leBytes _ _)]
    have hbitmap : (data.drop 2).take (nullBitmapSize schema.length) = fields.nullBitmap := by
      rw [hdrop, List.take_left' hbits]
    have hdrop₂ : data.drop (2 + nullBitmapSize schema.length) =
        fields.offsets.flatMap (leBytes 2) ++ fields.payload := by
      rw [← List.drop_drop, hdrop, List.drop_left' hbits]
    have hpayload : data.drop (headerSize schema.length) = fields.payload := by
      rw [headerSize, ← List.drop_drop, hdrop₂, List.drop_left' hflat]
    have hread : readOffsets schema.length (data.drop (2 + nullBitmapSize schema.length)) =
        offsets := by
      rw [hdrop₂, hoffs, ← hr.offsets_length]
      exact readOffsets_flatMap offsets _ hr.offsets_le
    have hmin : ¬ data.length < 2 := by
      rw [hlength, headerSize]
      omega
    rw [deserialize, if_neg hmin]
    dsimp only
    rw [htake, if_neg (not_not.mpr rfl), if_neg (by omega), hbitmap, hread, hpayload,
      hr.ordered 0 (Nat.zero_le _)]
    exact hr.fields_eq

/-! ## What `Serialize` returns -/

theorem serialize_ne_nil (h : serialize schema values = .ok data) : data ≠ [] := by
  unfold serialize at h
  split at h
  · cases h
  split at h
  · cases h
  split at h
  · cases h
  cases hl : serializeLoop 0 schema values
      ⟨List.replicate (nullBitmapSize schema.length) 0, [], []⟩ with
  | error e =>
    rw [hl] at h
    cases h
  | ok fields =>
    rw [hl] at h
    dsimp only at h
    split at h
    · cases h
    cases h
    apply List.append_ne_nil_of_left_ne_nil
    apply List.ne_nil_of_length_pos
    rw [length_leBytes]
    omega

theorem fieldBytes_error {e : Status} (h : fieldBytes column value = .error e) :
    e.code = .invalidArgument := by
  unfold fieldBytes at h
  cases ht : column.type <;> rw [ht] at h <;> dsimp only at h
  · cases value <;> cases h <;> rfl
  · cases value with
    | text s =>
      dsimp only at h
      split at h
      · cases h
        rfl
      · cases h
    | _ =>
      cases h
      rfl
  · cases value <;> cases h <;> rfl

theorem serializeLoop_error {e : Status} : ∀ (schema : Schema) (values : List FieldValue)
    (index : Nat) (fields : Fields), serializeLoop index schema values fields = .error e →
      e.code ≠ .ioError := by
  intro schema
  induction schema with
  | nil => exact fun values index fields h => nomatch h
  | cons column schema ih =>
    intro values index fields h
    cases values with
    | nil => cases h
    | cons value values =>
      rw [serializeLoop] at h
      cases ha : appendField index column value fields with
      | ok mid =>
        rw [ha] at h
        exact ih values (index + 1) mid h
      | error e' =>
        rw [ha] at h
        cases h
        unfold appendField at ha
        split at ha
        · cases ha
          nofun
        split at ha
        · cases ha
        · cases hb : fieldBytes column value with
          | ok bytes =>
            rw [hb] at ha
            cases ha
          | error e' =>
            rw [hb] at ha
            cases ha
            rw [fieldBytes_error hb]
            nofun

/-- Values that cannot be stored are no I/O error. -/
theorem serialize_error {e : Status} (h : serialize schema values = .error e) :
    e.code ≠ .ioError := by
  unfold serialize at h
  split at h
  · cases h
    nofun
  split at h
  · cases h
    nofun
  split at h
  · cases h
    nofun
  cases hl : serializeLoop 0 schema values
      ⟨List.replicate (nullBitmapSize schema.length) 0, [], []⟩ with
  | error e' =>
    rw [hl] at h
    cases h
    exact serializeLoop_error schema values 0 _ hl
  | ok fields =>
    rw [hl] at h
    dsimp only at h
    split at h
    · cases h
      nofun
    · cases h

/-! ## Decoded records -/

theorem length_readFields {nullBitmap payload : Bytes} : ∀ (schema : Schema) (index : Nat)
    (offsets : List Nat) (values : List FieldValue), offsets.length = schema.length →
      readFields nullBitmap payload index schema offsets = .ok values →
      values.length = schema.length := by
  intro schema
  induction schema with
  | nil =>
    intro index offsets values _ h
    cases h
    rfl
  | cons column schema ih =>
    intro index offsets values hlen h
    cases offsets with
    | nil => cases hlen
    | cons start offsets =>
      rw [readFields] at h
      dsimp only at h
      split at h
      · cases h
      generalize (if isNull nullBitmap index then _ else _ : Except Status FieldValue) = field at h
      cases field with
      | error e => cases h
      | ok value =>
        cases hrest : readFields nullBitmap payload (index + 1) schema offsets with
        | error e =>
          rw [hrest] at h
          cases h
        | ok rest =>
          rw [hrest] at h
          cases h
          rw [List.length_cons, List.length_cons, ih _ _ _ (Nat.succ.inj hlen) hrest]

theorem length_readOffsets (n : Nat) (bytes : Bytes) : (readOffsets n bytes).length = n := by
  induction n generalizing bytes with
  | zero => rfl
  | succ n ih => rw [readOffsets, List.length_cons, ih]

/-- A record has a value for each column. -/
theorem length_deserialize (h : deserialize schema data = .ok values) :
    values.length = schema.length := by
  unfold deserialize at h
  split at h
  · cases h
  dsimp only at h
  split at h
  · cases h
  rename_i hcount
  split at h
  · cases h
  split at h
  · cases h
  · refine length_readFields schema 0 _ values ?_ h
    rw [length_readOffsets]
    exact not_not.mp hcount

/-- The value of a column of a record that is decoded. -/
theorem getValue_eq (h : deserialize schema data = .ok values) {i : Nat} (hi : i < schema.length) :
    ∃ value, getValue schema data i = .ok value ∧ values[i]? = some value := by
  have hlt : i < values.length := by rw [length_deserialize h]; exact hi
  refine ⟨values[i], ?_, List.getElem?_eq_getElem hlt⟩
  rw [getValue, h]
  dsimp only
  rw [List.getElem?_eq_getElem hlt]

end RecordCodec

end MiniDbms
