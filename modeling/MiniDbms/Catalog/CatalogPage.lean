import MiniDbms.Catalog.CatalogState

/-!
# The catalog page

What `Persist` writes and what `Load` reads back. `serialize_ok` gives the bytes of the page
as a list of entries; `readTables_at` and `readIndexes_at` read such lists, provided that no table
has a column with an empty name, which `CreateTable` accepts and `Load` does not
(`readCatalog_published`).
-/

namespace MiniDbms

open Lib

namespace CatalogManager

/-! ## Entries -/

def columnBytes (column : Column) : Bytes :=
  leBytes 2 column.name.length ++ (leBytes 1 column.type.toNat ++ (leBytes 1 0 ++
    (leBytes 4 column.length.toNat ++ column.name)))

/-- What follows the size in the entry of a table. -/
def tableBody (table : TableMetadata) : Bytes :=
  leBytes 2 table.name.length ++ (leBytes 2 table.schema.getColumnCount ++ (leBytes 2 0 ++
    (pageIdBytes table.firstPageId ++ (table.name ++ table.schema.flatMap columnBytes))))

/-- What follows the size in the entry of an index. -/
def indexBody (index : IndexMetadata) : Bytes :=
  leBytes 2 index.name.length ++ (leBytes 2 index.tableName.length ++
    (leBytes 2 index.columnName.length ++ (pageIdBytes index.headerPageId ++
      (index.name ++ (index.tableName ++ index.columnName)))))

def entryBytes (body : Bytes) : Bytes := leBytes 2 (2 + body.length) ++ body

section

variable {buffer buffer' : Bytes} {parts : List Bytes}

theorem writeAll_cons (part : Bytes) : writeAll buffer (part :: parts) =
    if buffer.length + part.length ≤ pageSize then writeAll (buffer ++ part) parts
    else .error (.outOfMemory "Catalog page is full") := by
  unfold writeAll
  rw [List.foldlM_cons, write]
  by_cases hle : buffer.length + part.length ≤ pageSize
  · rw [if_pos hle, if_pos hle]
    rfl
  · rw [if_neg hle, if_neg hle]
    rfl

/-- Writes that succeed append all parts. -/
theorem writeAll_ok (h : writeAll buffer parts = .ok buffer') (hb : buffer.length ≤ pageSize) :
    buffer' = buffer ++ parts.flatten ∧ buffer'.length ≤ pageSize := by
  induction parts generalizing buffer with
  | nil =>
    cases h
    exact ⟨by simp, hb⟩
  | cons part parts ih =>
    rw [writeAll_cons] at h
    split at h
    · rename_i hle
      obtain ⟨rfl, hle'⟩ := ih h (by rw [List.length_append]; exact hle)
      exact ⟨by simp, hle'⟩
    · cases h

theorem writeColumns_ok : ∀ (schema : Schema) (buffer : Bytes),
    schema.foldlM writeColumn buffer = .ok buffer' → buffer.length ≤ pageSize →
    buffer' = buffer ++ schema.flatMap columnBytes ∧ buffer'.length ≤ pageSize := by
  intro schema
  induction schema with
  | nil =>
    intro buffer h hb
    cases h
    exact ⟨by simp, hb⟩
  | cons column schema ih =>
    intro buffer h hb
    rw [List.foldlM_cons] at h
    unfold writeColumn at h
    split at h
    · cases h
    · cases hw : writeAll buffer [leBytes 2 column.name.length, leBytes 1 column.type.toNat,
          leBytes 1 0, leBytes 4 column.length.toNat, column.name] with
      | error e =>
        rw [hw] at h
        cases h
      | ok mid =>
        rw [hw] at h
        obtain ⟨rfl, hle⟩ := writeAll_ok hw hb
        obtain ⟨rfl, hle'⟩ := ih _ h hle
        refine ⟨?_, hle'⟩
        simp only [List.flatten_cons, List.flatten_nil, List.append_nil, List.flatMap_cons,
          List.append_assoc, columnBytes]

/-- Replacing the placeholder of the size makes an entry. -/
theorem setEntrySize_eq (buffer body : Bytes) :
    setEntrySize (buffer ++ (leBytes 2 0 ++ body)) buffer.length = buffer ++ entryBytes body := by
  unfold setEntrySize entryBytes
  rw [List.take_left, List.length_append, List.length_append, length_leBytes,
    ← List.drop_drop, List.drop_left, List.drop_left' (length_leBytes 2 0),
    Nat.add_sub_cancel_left]

theorem writeTable_ok {table : TableMetadata} (h : writeTable buffer table = .ok buffer')
    (hb : buffer.length ≤ pageSize) :
    buffer' = buffer ++ entryBytes (tableBody table) ∧ buffer'.length ≤ pageSize := by
  unfold writeTable at h
  split at h
  · cases h
  cases hw : writeAll buffer [leBytes 2 0, leBytes 2 table.name.length,
      leBytes 2 table.schema.getColumnCount, leBytes 2 0, pageIdBytes table.firstPageId,
      table.name] with
  | error e =>
    rw [hw] at h
    cases h
  | ok mid =>
    obtain ⟨rfl, hle⟩ := writeAll_ok hw hb
    rw [hw] at h
    cases hc : table.schema.foldlM writeColumn (buffer ++ [leBytes 2 0, leBytes 2 table.name.length,
        leBytes 2 table.schema.getColumnCount, leBytes 2 0, pageIdBytes table.firstPageId,
        table.name].flatten) with
    | error e =>
      simp only [hc, bind, Except.bind] at h
      cases h
    | ok entry =>
      obtain ⟨rfl, hle'⟩ := writeColumns_ok _ _ hc hle
      simp only [hc, bind, Except.bind] at h
      split at h
      · cases h
      · injection h with h
        have hentry : buffer ++ [leBytes 2 0, leBytes 2 table.name.length,
            leBytes 2 table.schema.getColumnCount, leBytes 2 0, pageIdBytes table.firstPageId,
            table.name].flatten ++ table.schema.flatMap columnBytes =
            buffer ++ (leBytes 2 0 ++ tableBody table) := by
          simp only [tableBody, List.flatten_cons, List.flatten_nil, List.append_nil,
            List.append_assoc]
        rw [hentry] at h hle'
        rw [setEntrySize_eq] at h
        subst h
        refine ⟨rfl, ?_⟩
        simpa [entryBytes] using hle'

theorem writeIndex_ok {index : IndexMetadata} (h : writeIndex buffer index = .ok buffer')
    (hb : buffer.length ≤ pageSize) :
    buffer' = buffer ++ entryBytes (indexBody index) ∧ buffer'.length ≤ pageSize := by
  unfold writeIndex at h
  split at h
  · cases h
  cases hw : writeAll buffer [leBytes 2 0, leBytes 2 index.name.length,
      leBytes 2 index.tableName.length, leBytes 2 index.columnName.length,
      pageIdBytes index.headerPageId, index.name, index.tableName, index.columnName] with
  | error e =>
    rw [hw] at h
    cases h
  | ok entry =>
    obtain ⟨rfl, hle⟩ := writeAll_ok hw hb
    simp only [hw, bind, Except.bind] at h
    split at h
    · cases h
    · injection h with h
      have hentry : [leBytes 2 0, leBytes 2 index.name.length, leBytes 2 index.tableName.length,
          leBytes 2 index.columnName.length, pageIdBytes index.headerPageId, index.name,
          index.tableName, index.columnName].flatten = leBytes 2 0 ++ indexBody index := by
        simp only [indexBody, List.flatten_cons, List.flatten_nil, List.append_nil]
      rw [hentry] at h hle
      rw [setEntrySize_eq] at h
      subst h
      refine ⟨rfl, ?_⟩
      simpa [entryBytes] using hle

/-- A loop of writes that succeeds appends an entry for each element. -/
theorem writeEntries_ok {α : Type} {writeEntry : Bytes → α → Except Status Bytes} {body : α → Bytes}
    (hw : ∀ {buffer buffer' a}, writeEntry buffer a = .ok buffer' → buffer.length ≤ pageSize →
      buffer' = buffer ++ entryBytes (body a) ∧ buffer'.length ≤ pageSize) :
    ∀ (l : List α) (buffer : Bytes), l.foldlM writeEntry buffer = .ok buffer' →
      buffer.length ≤ pageSize →
      buffer' = buffer ++ l.flatMap (fun a => entryBytes (body a)) ∧ buffer'.length ≤ pageSize := by
  intro l
  induction l with
  | nil =>
    intro buffer h hb
    cases h
    exact ⟨by simp, hb⟩
  | cons a l ih =>
    intro buffer h hb
    rw [List.foldlM_cons] at h
    cases hw' : writeEntry buffer a with
    | error e =>
      rw [hw'] at h
      cases h
    | ok mid =>
      rw [hw'] at h
      obtain ⟨rfl, hle⟩ := hw hw' hb
      obtain ⟨rfl, hle'⟩ := ih _ h hle
      exact ⟨by simp, hle'⟩

/-- The entries of the tables and of the indexes. -/
def entries (catalog : CatalogManager) : Bytes :=
  (sortedValues catalog.tables).flatMap (fun t => entryBytes (tableBody t)) ++
    (sortedValues catalog.indexes).flatMap (fun i => entryBytes (indexBody i))

/-- The bytes of a catalog that fits its page. -/
theorem serialize_ok {catalog : CatalogManager} {bytes : Bytes}
    (h : serialize catalog = .ok bytes) :
    catalog.tables.keys.length ≤ 65535 ∧ catalog.indexes.keys.length ≤ 65535 ∧
      16 + (entries catalog).length ≤ pageSize ∧
      bytes = headerBytes catalog.tables.keys.length catalog.indexes.keys.length
        (16 + (entries catalog).length) ++ entries catalog := by
  unfold serialize at h
  split at h
  · cases h
  rename_i hcount
  cases ht : (sortedValues catalog.tables).foldlM writeTable
    (List.replicate catalogHeaderSize 0) with
  | error e =>
    rw [ht] at h
    cases h
  | ok tables =>
    simp only [ht, bind, Except.bind] at h
    cases hi : (sortedValues catalog.indexes).foldlM writeIndex tables with
    | error e =>
      rw [hi] at h
      cases h
    | ok all =>
      simp only [hi] at h
      have hstart : (List.replicate catalogHeaderSize (0 : UInt8)).length ≤ pageSize := by
        rw [List.length_replicate]
        decide
      obtain ⟨rfl, hle⟩ := writeEntries_ok (fun h hb => writeTable_ok h hb) _ _ ht hstart
      obtain ⟨rfl, hle'⟩ := writeEntries_ok (fun h hb => writeIndex_ok h hb) _ _ hi hle
      rw [List.append_assoc] at h hle'
      have hlen : (List.replicate catalogHeaderSize (0 : UInt8) ++ entries catalog).length =
          16 + (entries catalog).length := by
        rw [List.length_append, List.length_replicate]
        rfl
      have hfold : (sortedValues catalog.tables).flatMap (fun t => entryBytes (tableBody t)) ++
        (sortedValues catalog.indexes).flatMap (fun i => entryBytes (indexBody i)) =
          entries catalog := rfl
      rw [hfold, hlen] at hle'
      rw [hfold, hlen] at h
      split at h
      · cases h
      · injection h with h
        refine ⟨by omega, by omega, hle', ?_⟩
        rw [← h, List.drop_left' (List.length_replicate)]

end

/-! ## Reading entries -/

/-- The page holds the bytes at an offset. -/
def At (d : PageData) (offset : Nat) (bs : Bytes) : Prop := d.bytes offset bs.length = bs

section

variable {d : PageData} {o : Nat} {a b : Bytes} (limit : Nat)

theorem at_append : At d o (a ++ b) ↔ At d o a ∧ At d (o + a.length) b := by
  unfold At
  rw [List.length_append, Image.bytes_add]
  constructor
  · intro h
    exact List.append_inj h (by simp)
  · rintro ⟨ha, hb⟩
    rw [ha, hb]

theorem readValue_at {n v : Nat} (h : At d o (leBytes n v)) (hv : v < 256 ^ n)
    (hfit : o + n ≤ limit) : readValue d limit o n = some (v, o + n) := by
  unfold At at h
  rw [length_leBytes] at h
  rw [readValue, if_pos hfit, Image.readNat, h, leNat_leBytes_of_lt hv]

theorem readPageIdValue_at {p : PageId} (h : At d o (pageIdBytes p)) (hfit : o + 4 ≤ limit) :
    readPageIdValue d limit o = some (p, o + 4) := by
  unfold At pageIdBytes at h
  rw [length_leBytes] at h
  have hread : d.readNat o 4 = p.toUInt32.toNat := by
    rw [Image.readNat, h]
    exact leNat_leBytes_of_lt (w := 4) p.toUInt32.toNat_lt
  rw [readPageIdValue, if_pos hfit, PageData.readPageId, hread]
  simp

theorem readString_at (h : At d o a) (hfit : o + a.length ≤ limit) :
    readString d limit o a.length = some (a, o + a.length) := by
  unfold At at h
  rw [readString, if_pos hfit, h]

/-- A column is read back, unless its name is empty. -/
theorem readColumn_at {column : Column} (h : At d o (columnBytes column))
    (hfit : o + (columnBytes column).length ≤ limit) (hlimit : limit ≤ pageSize) :
    readColumn d limit o =
      if column.name = [] then .error (.ioError "Catalog column name is corrupted")
      else .ok (column, o + (columnBytes column).length) := by
  have hlen : (columnBytes column).length = 8 + column.name.length := by
    simp only [columnBytes, List.length_append, length_leBytes]
    omega
  rw [hlen] at hfit ⊢
  rw [pageSize_eq] at hlimit
  unfold columnBytes at h
  simp only [at_append, length_leBytes] at h
  obtain ⟨hname, htype, hres, hdecl, hstr⟩ := h
  have ht : column.type.toNat < 3 := by cases column.type <;> decide
  have h1 := readValue_at limit hname (by omega) (by omega)
  have h2 := readValue_at limit htype (by omega) (by omega)
  have h3 := readValue_at limit hres (by omega) (by omega)
  have h4 := readValue_at limit hdecl column.length.toNat_lt (by omega)
  have h5 := readString_at limit hstr (by omega)
  unfold readColumn
  simp only [h1, h2, h3, h4, TypeId.ofNat?_toNat, bind, Option.bind, pure]
  rw [h5]
  cases hn : column.name with
  | nil => rfl
  | cons c cs =>
    rw [if_neg (List.cons_ne_nil c cs)]
    have hcol : (⟨c :: cs, column.type, UInt32.ofNat column.length.toNat⟩ : Column) = column := by
      rw [UInt32.ofNat_toNat, ← hn]
    dsimp only
    rw [hcol]
    congr 2
    simp only [List.length_cons]
    omega

/-- The columns of a table are read back, unless one has an empty name. -/
theorem readColumns_at : ∀ (schema : Schema) (o : Nat), At d o (schema.flatMap columnBytes) →
    o + (schema.flatMap columnBytes).length ≤ limit → limit ≤ pageSize →
    readColumns d limit schema.length o =
      if ∃ c ∈ schema, c.name = [] then .error (.ioError "Catalog column name is corrupted")
      else .ok (schema, o + (schema.flatMap columnBytes).length) := by
  intro schema
  induction schema with
  | nil =>
    intro o _ _ _
    rw [if_neg (by simp)]
    rfl
  | cons column schema ih =>
    intro o h hfit hlimit
    rw [List.flatMap_cons] at h hfit ⊢
    obtain ⟨hc, hrest⟩ := at_append.mp h
    rw [List.length_append] at hfit ⊢
    rw [List.length_cons, readColumns, readColumn_at limit hc (by omega) hlimit]
    by_cases hname : column.name = []
    · rw [if_pos hname, if_pos ⟨column, List.mem_cons_self, hname⟩]
      rfl
    · have hiff : (∃ c ∈ column :: schema, c.name = []) ↔ ∃ c ∈ schema, c.name = [] := by
        simp [hname]
      rw [if_neg hname]
      simp only [bind, Except.bind, hiff]
      rw [ih _ hrest (by omega) hlimit]
      by_cases hex : ∃ c ∈ schema, c.name = []
      · rw [if_pos hex, if_pos hex]
      · rw [if_neg hex, if_neg hex]
        dsimp only [pure, Except.pure]
        rw [Nat.add_assoc]

theorem length_columns (schema : Schema) :
    8 * schema.length ≤ (schema.flatMap columnBytes).length := by
  induction schema with
  | nil => exact Nat.le_refl 0
  | cons column schema ih =>
    rw [List.flatMap_cons, List.length_append, List.length_cons]
    have hlen : 8 ≤ (columnBytes column).length := by
      simp only [columnBytes, List.length_append, length_leBytes]
      omega
    omega

/-- An entry of a table is read back, unless a column has an empty name. -/
theorem readTable_at {table : TableMetadata} (h : At d o (entryBytes (tableBody table)))
    (hfit : o + (entryBytes (tableBody table)).length ≤ limit) (hlimit : limit ≤ pageSize)
    (hname : table.name ≠ []) (hpage : 0 < table.firstPageId.toInt) :
    (∀ c ∈ table.schema, c.name ≠ []) ∧
      readTable d limit o = .ok (table, o + (entryBytes (tableBody table)).length) ∨
    (∃ c ∈ table.schema, c.name = []) ∧ ∃ e, readTable d limit o = .error e := by
  have hbody : (tableBody table).length =
      10 + table.name.length + (table.schema.flatMap columnBytes).length := by
    simp only [tableBody, pageIdBytes, List.length_append, length_leBytes]
    omega
  have hsize : (entryBytes (tableBody table)).length = 2 + (tableBody table).length := by
    simp only [entryBytes, List.length_append, length_leBytes]
  rw [hsize] at hfit ⊢
  rw [pageSize_eq] at hlimit
  have hcols := length_columns table.schema
  have hcount : table.schema.getColumnCount = table.schema.length := by
    unfold Schema.getColumnCount
    exact Nat.mod_eq_of_lt (by omega)
  unfold entryBytes tableBody at h
  simp only [at_append, length_leBytes] at h
  obtain ⟨hentry, hnl, hcc, hres, hpid, hstr, hcolumns⟩ := h
  have hpl : (pageIdBytes table.firstPageId).length = 4 := length_leBytes 4 _
  rw [hpl] at hstr hcolumns
  rw [hcount] at hcc
  have hval : 2 + (leBytes 2 table.name.length ++ (leBytes 2 table.schema.getColumnCount ++
      (leBytes 2 0 ++ (pageIdBytes table.firstPageId ++ (table.name ++
        table.schema.flatMap columnBytes))))).length = 2 + (tableBody table).length := rfl
  rw [hval] at hentry
  have h1 := readValue_at limit hentry (by omega) (by omega)
  have h2 := readValue_at limit hnl (by omega) (by omega)
  have h3 := readValue_at limit hcc (by omega) (by omega)
  have h4 := readValue_at limit hres (by omega) (by omega)
  have h5 := readPageIdValue_at limit hpid (by omega)
  have h6 := readString_at (o + (2 + (tableBody table).length)) hstr (by omega)
  have h7 := readColumns_at (o + (2 + (tableBody table).length)) table.schema _ hcolumns
    (by omega) (by rw [pageSize_eq]; omega)
  have hhead : ¬ (2 + (tableBody table).length < 12 ∨ limit < o + (2 + (tableBody table).length) ∨
      table.firstPageId.toInt ≤ headerPageId.toInt) := by
    rw [toInt_headerPageId]
    omega
  have hstop : o + 2 + 2 + 2 + 2 + 4 + table.name.length +
      (table.schema.flatMap columnBytes).length =
      o + (2 + (tableBody table).length) := by omega
  have hread : readTable d limit o =
      if ∃ c ∈ table.schema, c.name = [] then .error (.ioError "Catalog column name is corrupted")
      else .ok (table, o + (2 + (tableBody table).length)) := by
    unfold readTable
    simp only [h1, h2, h3, h4, h5, bind, Option.bind, pure]
    rw [if_neg hhead]
    dsimp only
    rw [h6]
    obtain ⟨c, cs, hcs⟩ := List.exists_cons_of_ne_nil hname
    rw [hcs] at h7 hstop ⊢
    dsimp only
    rw [h7]
    by_cases hex : ∃ c ∈ table.schema, c.name = []
    · rw [if_pos hex, if_pos hex]
      rfl
    · rw [if_neg hex, if_neg hex]
      simp only [Except.bind]
      rw [if_neg (not_not.mpr hstop), hstop, ← hcs]
  by_cases hex : ∃ c ∈ table.schema, c.name = []
  · rw [hread, if_pos hex]
    exact .inr ⟨hex, _, rfl⟩
  · rw [hread, if_neg hex]
    exact .inl ⟨fun c hc hn => hex ⟨c, hc, hn⟩, rfl⟩

/-- The entries of tables are read back, unless a column has an empty name. -/
theorem readTables_at : ∀ (l : List TableMetadata) (o : Nat) (tables : StringMap TableMetadata),
    At d o (l.flatMap fun t => entryBytes (tableBody t)) →
    o + (l.flatMap fun t => entryBytes (tableBody t)).length ≤ limit → limit ≤ pageSize →
    (∀ t ∈ l, t.name ≠ [] ∧ 0 < t.firstPageId.toInt) →
    (∀ t ∈ l, ∀ c ∈ t.schema, c.name ≠ []) ∧
      readTables d limit l.length o tables =
        (l.foldl (fun m t => emplace m t.name t) tables,
          .ok (o + (l.flatMap fun t => entryBytes (tableBody t)).length)) ∨
    (∃ t ∈ l, ∃ c ∈ t.schema, c.name = []) ∧
      ∃ tables' e, readTables d limit l.length o tables = (tables', .error e) := by
  intro l
  induction l with
  | nil => exact fun o tables _ _ _ _ => .inl ⟨nofun, rfl⟩
  | cons t l ih =>
    intro o tables h hfit hlimit hvalid
    rw [List.flatMap_cons] at h hfit ⊢
    obtain ⟨ht, hrest⟩ := at_append.mp h
    rw [List.length_append] at hfit ⊢
    obtain ⟨hname, hpage⟩ := hvalid t List.mem_cons_self
    rw [List.length_cons, readTables]
    rcases readTable_at limit ht (by omega) hlimit hname hpage with ⟨hcols, hread⟩ |
      ⟨⟨c, hc, hn⟩, e, hread⟩
    · rw [hread, ← Nat.add_assoc]
      rcases ih _ (emplace tables t.name t) hrest (by omega) hlimit
        (fun t ht => hvalid t (List.mem_cons_of_mem _ ht)) with
        ⟨hall, hread'⟩ | ⟨⟨t', ht', hc⟩, hread'⟩
      · refine .inl ⟨fun t' ht' => ?_, hread'⟩
        rcases List.mem_cons.mp ht' with rfl | ht'
        · exact hcols
        · exact hall t' ht'
      · exact .inr ⟨⟨t', List.mem_cons_of_mem _ ht', hc⟩, hread'⟩
    · rw [hread]
      exact .inr ⟨⟨t, List.mem_cons_self, c, hc, hn⟩, tables, e, rfl⟩

/-- An entry of an index is read back. -/
theorem readIndex_at {index : IndexMetadata} (h : At d o (entryBytes (indexBody index)))
    (hfit : o + (entryBytes (indexBody index)).length ≤ limit) (hlimit : limit ≤ pageSize)
    (hnames : ¬ (index.name = [] ∨ index.tableName = [] ∨ index.columnName = []))
    (hpage : 0 < index.headerPageId.toInt) :
    readIndex d limit o = .ok (index, o + (entryBytes (indexBody index)).length) := by
  have hbody : (indexBody index).length =
      10 + index.name.length + index.tableName.length + index.columnName.length := by
    simp only [indexBody, pageIdBytes, List.length_append, length_leBytes]
    omega
  have hsize : (entryBytes (indexBody index)).length = 2 + (indexBody index).length := by
    simp only [entryBytes, List.length_append, length_leBytes]
  rw [hsize] at hfit ⊢
  rw [pageSize_eq] at hlimit
  have hval : (leBytes 2 (2 + (indexBody index).length) ++ indexBody index) =
      entryBytes (indexBody index) := rfl
  rw [← hval] at h
  rw [hbody] at hfit h ⊢
  unfold indexBody at h
  simp only [at_append, length_leBytes] at h
  obtain ⟨hentry, hnl, htl, hcl, hpid, hname, htable, hcolumn⟩ := h
  have hpl : (pageIdBytes index.headerPageId).length = 4 := length_leBytes 4 _
  rw [hpl] at hname htable hcolumn
  have h1 := readValue_at limit hentry (by omega) (by omega)
  have h2 := readValue_at limit hnl (by omega) (by omega)
  have h3 := readValue_at limit htl (by omega) (by omega)
  have h4 := readValue_at limit hcl (by omega) (by omega)
  have h5 := readPageIdValue_at limit hpid (by omega)
  set stop := o + (2 + (10 + index.name.length + index.tableName.length + index.columnName.length))
    with hstop
  have h6 := readString_at stop hname (by omega)
  have h7 := readString_at stop htable (by omega)
  have h8 := readString_at stop hcolumn (by omega)
  have hhead :
      ¬ (2 + (10 + index.name.length + index.tableName.length + index.columnName.length) < 12 ∨
      limit < stop ∨ index.headerPageId.toInt ≤ headerPageId.toInt) := by
    rw [toInt_headerPageId]
    omega
  have hend : o + 2 + 2 + 2 + 2 + 4 + index.name.length + index.tableName.length +
      index.columnName.length = stop := by omega
  have hstrings : ¬ (index.name = [] ∨ index.tableName = [] ∨ index.columnName = [] ∨
      o + 2 + 2 + 2 + 2 + 4 + index.name.length + index.tableName.length +
        index.columnName.length ≠ stop) := by
    rintro (hn | hn | hn | hn)
    · exact hnames (.inl hn)
    · exact hnames (.inr (.inl hn))
    · exact hnames (.inr (.inr hn))
    · exact hn hend
  unfold readIndex
  simp only [h1, h2, h3, h4, h5, bind, Option.bind, pure]
  rw [← hstop, if_neg hhead]
  dsimp only
  rw [← hstop]
  simp only [h6, h7, h8]
  rw [if_neg hstrings]
  dsimp only
  rw [hend]

theorem readIndexes_at : ∀ (l : List IndexMetadata) (o : Nat),
    At d o (l.flatMap fun i => entryBytes (indexBody i)) →
    o + (l.flatMap fun i => entryBytes (indexBody i)).length ≤ limit → limit ≤ pageSize →
    (∀ i ∈ l, ¬ (i.name = [] ∨ i.tableName = [] ∨ i.columnName = []) ∧ 0 < i.headerPageId.toInt) →
    readIndexes d limit l.length o =
      .ok (l, o + (l.flatMap fun i => entryBytes (indexBody i)).length) := by
  intro l
  induction l with
  | nil => exact fun o _ _ _ _ => rfl
  | cons i l ih =>
    intro o h hfit hlimit hvalid
    rw [List.flatMap_cons] at h hfit ⊢
    obtain ⟨hi, hrest⟩ := at_append.mp h
    rw [List.length_append] at hfit ⊢
    obtain ⟨hnames, hpage⟩ := hvalid i List.mem_cons_self
    rw [List.length_cons, readIndexes, readIndex_at limit hi (by omega) hlimit hnames hpage]
    simp only [bind, Except.bind]
    rw [ih _ hrest (by omega) hlimit fun i hi => hvalid i (List.mem_cons_of_mem _ hi)]
    dsimp only [pure, Except.pure]
    rw [Nat.add_assoc]

end

/-! ## The whole page -/

/-- The page that `Persist` publishes. -/
def published (serialized : Bytes) : PageData := Image.zero.splice 0 serialized

/-- Every column of every table has a name. -/
def ColumnsNamed (catalog : CatalogManager) : Prop :=
  ∀ name table, catalog.tables.lookup name = some table → ∀ column ∈ table.schema, column.name ≠ []

section

variable {catalog : CatalogManager} {serialized : Bytes}

theorem at_published (h : serialized.length ≤ pageSize) :
    At (published serialized) 0 serialized := by
  unfold At published
  exact Image.bytes_splice_same _ (by omega)

/-- What `Load` reads from a published page. -/
theorem readCatalog_published (hwf : WellFormed catalog) (hs : serialize catalog = .ok serialized) :
    (published serialized).readNat 0 4 = catalogMagic ∧
      ((ColumnsNamed catalog ∧ readCatalog (published serialized) =
          ((sortedValues catalog.tables).foldl (fun m t => emplace m t.name t) ∅,
            .ok (sortedValues catalog.indexes))) ∨
        (¬ ColumnsNamed catalog ∧
          ∃ tables e, readCatalog (published serialized) = (tables, .error e))) := by
  obtain ⟨htables, hindexes, hfit, rfl⟩ := serialize_ok hs
  have htn : (sortedValues catalog.tables).length = catalog.tables.keys.length :=
    length_sortedValues TableMetadata.name fun h => (hwf.table h).1
  have hin : (sortedValues catalog.indexes).length = catalog.indexes.keys.length :=
    length_sortedValues (fun i => makeIndexKey i.tableName i.columnName) fun h => (hwf.index h).1
  have hhlen : ∀ a b c, (headerBytes a b c).length = 16 := by
    intro a b c
    simp only [headerBytes, List.length_append, length_leBytes]
  set used := 16 + (entries catalog).length with hused
  have hat : At (published (headerBytes catalog.tables.keys.length
      catalog.indexes.keys.length used ++ entries catalog)) 0
      (headerBytes catalog.tables.keys.length catalog.indexes.keys.length used ++
        entries catalog) :=
    at_published (by rw [List.length_append, hhlen]; exact hfit)
  set d := published (headerBytes catalog.tables.keys.length catalog.indexes.keys.length used ++
    entries catalog) with hd
  obtain ⟨hheader, hentries⟩ := at_append.mp hat
  rw [hhlen] at hentries
  rw [pageSize_eq] at hfit
  unfold headerBytes at hheader
  simp only [at_append, length_leBytes] at hheader
  obtain ⟨hmagic, hversion, htc, hic, hub, -⟩ := hheader
  have hnum : ∀ {o w v : Nat}, At d o (leBytes w v) → v < 256 ^ w → d.readNat o w = v := by
    intro o w v h hv
    unfold At at h
    rw [length_leBytes] at h
    rw [Image.readNat, h, leNat_leBytes_of_lt hv]
  have h0 := hnum hmagic (by decide)
  have h4 := hnum hversion (by decide)
  have h6 := hnum htc (by omega)
  have h8 := hnum hic (by omega)
  have h10 := hnum hub (by omega)
  refine ⟨h0, ?_⟩
  unfold entries at hentries
  obtain ⟨hts, his⟩ := at_append.mp hentries
  have hlen : used = 16 +
      ((sortedValues catalog.tables).flatMap fun t => entryBytes (tableBody t)).length +
      ((sortedValues catalog.indexes).flatMap fun i => entryBytes (indexBody i)).length := by
    rw [hused, entries, List.length_append, Nat.add_assoc]
  have hvalid : ∀ t ∈ sortedValues catalog.tables, t.name ≠ [] ∧ 0 < t.firstPageId.toInt := by
    intro t ht
    obtain ⟨name, hl⟩ := mem_sortedValues.mp ht
    obtain ⟨rfl, hname, hpage⟩ := hwf.table hl
    exact ⟨hname, hpage⟩
  have hvalid' : ∀ i ∈ sortedValues catalog.indexes,
      ¬ (i.name = [] ∨ i.tableName = [] ∨ i.columnName = []) ∧ 0 < i.headerPageId.toInt := by
    intro i hi
    obtain ⟨key, hl⟩ := mem_sortedValues.mp hi
    obtain ⟨-, hnames, hpage, -⟩ := hwf.index hl
    exact ⟨hnames, hpage⟩
  have hnamed : ColumnsNamed catalog ↔
      ∀ t ∈ sortedValues catalog.tables, ∀ c ∈ t.schema, c.name ≠ [] := by
    constructor
    · intro h t ht
      obtain ⟨name, hl⟩ := mem_sortedValues.mp ht
      exact h name t hl
    · intro h name t hl
      exact h t (mem_sortedValues.mpr ⟨name, hl⟩)
  have hhead : ¬ (d.readNat 0 4 ≠ catalogMagic ∨ d.readNat 4 2 ≠ 1 ∨ used < catalogHeaderSize ∨
      pageSize < used) := by
    rw [h0, h4, pageSize_eq, catalogHeaderSize]
    simp only [ne_eq, not_true, false_or, not_or]
    omega
  unfold readCatalog
  simp only [h10]
  rw [if_neg hhead, h6, h8, ← htn, ← hin]
  rcases readTables_at used (sortedValues catalog.tables) 16 ∅ hts (by omega)
    (by rw [pageSize_eq]; omega) hvalid with ⟨hall, hread⟩ | ⟨⟨t, ht, c, hc, hn⟩, tables, e, hread⟩
  · refine .inl ⟨hnamed.mpr hall, ?_⟩
    rw [show catalogHeaderSize = 16 from rfl, hread]
    dsimp only
    rw [readIndexes_at used (sortedValues catalog.indexes) _ his (by omega)
      (by rw [pageSize_eq]; omega) hvalid']
    dsimp only
    rw [if_neg (by rw [hlen]; exact fun h => h rfl)]
  · refine .inr ⟨fun h => hnamed.mp h t ht c hc hn, tables, e, ?_⟩
    rw [show catalogHeaderSize = 16 from rfl, hread]

end

end CatalogManager

end MiniDbms
