import MiniDbms.Catalog.CatalogDecoding
import MiniDbms.Lib.CheckedMemory

/-!
# Loading an arbitrary catalog page

`Load` of any page 0, whoever wrote it. `readCatalogChecked` is the decoding once more with every
access checked against the bounds that hold for it: the header lies in the first 16 bytes, the
fixed fields of an entry before the stored number of used bytes, and its names and columns also
before the declared end of the entry. It always gives the result of `readCatalog`.

`load_safe` is the whole of `Load`: it ends on every pool, with an error status under which the
catalog refuses every call, with the empty catalog of a zero magic number, or with the tables and
indexes of a page that is `Accepted`.
-/

namespace MiniDbms

open Lib StringMap

namespace CatalogManager

/-! ## The accesses -/

/-- `ReadValue`, with the bounds the read has to stay before. -/
def readValueChecked (d : PageData) (bounds : List Nat) (limit cursor size : Nat) :
    OptionT Option (Nat × Nat) :=
  if limit < cursor ∨ limit - cursor < size then OptionT.mk (some none)
  else OptionT.mk do
    let v ← number? d bounds cursor size
    return some (v, cursor + size)

def readPageIdValueChecked (d : PageData) (bounds : List Nat) (limit cursor : Nat) :
    OptionT Option (PageId × Nat) :=
  if limit < cursor ∨ limit - cursor < 4 then OptionT.mk (some none)
  else OptionT.mk do
    let v ← number? d bounds cursor 4
    return some ((UInt32.ofNat v).toInt32, cursor + 4)

/-- `ReadString`. -/
def readStringChecked (d : PageData) (bounds : List Nat) (limit cursor length : Nat) :
    OptionT Option (Bytes × Nat) :=
  if limit < cursor ∨ limit - cursor < length then OptionT.mk (some none)
  else OptionT.mk do
    let s ← range? d bounds cursor length
    return some (s, cursor + length)

def readColumnChecked (d : PageData) (used limit cursor : Nat) :
    Option (Except Status (Column × Nat)) := do
  let header := do
    let (nameLength, cursor) ← readValueChecked d [used, limit] limit cursor 2
    let (typeValue, cursor) ← readValueChecked d [used, limit] limit cursor 1
    let (_, cursor) ← readValueChecked d [used, limit] limit cursor 1
    let (declaredLength, cursor) ← readValueChecked d [used, limit] limit cursor 4
    let type ← OptionT.mk (some (TypeId.ofNat? typeValue))
    return (nameLength, type, declaredLength, cursor)
  match ← header.run with
  | none => return .error (.ioError "Catalog column entry is corrupted")
  | some (nameLength, type, declaredLength, cursor) =>
    match ← (readStringChecked d [used, limit] limit cursor nameLength).run with
    | none | some ([], _) => return .error (.ioError "Catalog column name is corrupted")
    | some (name, cursor) => return .ok (⟨name, type, UInt32.ofNat declaredLength⟩, cursor)

def readColumnsChecked (d : PageData) (used limit : Nat) :
    Nat → Nat → Option (Except Status (List Column × Nat))
  | 0, cursor => some (.ok ([], cursor))
  | count + 1, cursor => do
    match ← readColumnChecked d used limit cursor with
    | .error e => return .error e
    | .ok (column, cursor) =>
      match ← readColumnsChecked d used limit count cursor with
      | .error e => return .error e
      | .ok (columns, cursor) => return .ok (column :: columns, cursor)

def readTableChecked (d : PageData) (used entryStart : Nat) :
    Option (Except Status (TableMetadata × Nat)) := do
  let header := do
    let (entrySize, cursor) ← readValueChecked d [used] used entryStart 2
    let (nameLength, cursor) ← readValueChecked d [used] used cursor 2
    let (columnCount, cursor) ← readValueChecked d [used] used cursor 2
    let (_, cursor) ← readValueChecked d [used] used cursor 2
    let (firstPageId, cursor) ← readPageIdValueChecked d [used] used cursor
    if entrySize < 12 ∨ used < entryStart + entrySize ∨ firstPageId.toInt ≤ headerPageId.toInt then
      OptionT.mk (some none)
    else return (entrySize, nameLength, columnCount, firstPageId, cursor)
  match ← header.run with
  | none => return .error (.ioError "Catalog table entry is corrupted")
  | some (entrySize, nameLength, columnCount, firstPageId, cursor) =>
    let stop := entryStart + entrySize
    match ← (readStringChecked d [used, stop] stop cursor nameLength).run with
    | none | some ([], _) => return .error (.ioError "Catalog table name is corrupted")
    | some (name, cursor) =>
      match ← readColumnsChecked d used stop columnCount cursor with
      | .error e => return .error e
      | .ok (columns, cursor) =>
        if cursor ≠ stop then
          return .error (.ioError "Catalog table entry size is inconsistent")
        else return .ok (⟨name, columns, firstPageId⟩, cursor)

def readTablesChecked (d : PageData) (used : Nat) : Nat → Nat → StringMap TableMetadata →
    Option (StringMap TableMetadata × Except Status Nat)
  | 0, cursor, tables => some (tables, .ok cursor)
  | count + 1, cursor, tables => do
    match ← readTableChecked d used cursor with
    | .error e => return (tables, .error e)
    | .ok (table, cursor) => readTablesChecked d used count cursor (emplace tables table.name table)

def readIndexChecked (d : PageData) (used entryStart : Nat) :
    Option (Except Status (IndexMetadata × Nat)) := do
  let header := do
    let (entrySize, cursor) ← readValueChecked d [used] used entryStart 2
    let (indexNameLength, cursor) ← readValueChecked d [used] used cursor 2
    let (tableNameLength, cursor) ← readValueChecked d [used] used cursor 2
    let (columnNameLength, cursor) ← readValueChecked d [used] used cursor 2
    let (header, cursor) ← readPageIdValueChecked d [used] used cursor
    if entrySize < 12 ∨ used < entryStart + entrySize ∨ header.toInt ≤ headerPageId.toInt then
      OptionT.mk (some none)
    else return (entrySize, indexNameLength, tableNameLength, columnNameLength, header, cursor)
  match ← header.run with
  | none => return .error (.ioError "Catalog index entry is corrupted")
  | some (entrySize, indexNameLength, tableNameLength, columnNameLength, header, cursor) =>
    let stop := entryStart + entrySize
    let strings := do
      let (name, cursor) ← readStringChecked d [used, stop] stop cursor indexNameLength
      let (tableName, cursor) ← readStringChecked d [used, stop] stop cursor tableNameLength
      let (columnName, cursor) ← readStringChecked d [used, stop] stop cursor columnNameLength
      if name = [] ∨ tableName = [] ∨ columnName = [] ∨ cursor ≠ stop then OptionT.mk (some none)
      else return ((⟨name, tableName, columnName, header⟩ : IndexMetadata), cursor)
    match ← strings.run with
    | none => return .error (.ioError "Catalog index strings are corrupted")
    | some pending => return .ok pending

def readIndexesChecked (d : PageData) (used : Nat) :
    Nat → Nat → Option (Except Status (List IndexMetadata × Nat))
  | 0, cursor => some (.ok ([], cursor))
  | count + 1, cursor => do
    match ← readIndexChecked d used cursor with
    | .error e => return .error e
    | .ok (pending, cursor) =>
      match ← readIndexesChecked d used count cursor with
      | .error e => return .error e
      | .ok (rest, cursor) => return .ok (pending :: rest, cursor)

/-- The entries behind a valid header. -/
def readEntriesChecked (d : PageData) (tableCount indexCount used : Nat) :
    Option (StringMap TableMetadata × Except Status (List IndexMetadata)) := do
  match ← readTablesChecked d used tableCount catalogHeaderSize ∅ with
  | (tables, .error e) => return (tables, .error e)
  | (tables, .ok cursor) =>
    match ← readIndexesChecked d used indexCount cursor with
    | .error e => return (tables, .error e)
    | .ok (pending, cursor) =>
      if cursor ≠ used then
        return (tables, .error (.ioError "Catalog used-byte count is inconsistent"))
      else return (tables, .ok pending)

/-- The reads of `Load` from page 0. -/
def readCatalogChecked (d : PageData) :
    Option (StringMap TableMetadata × Except Status (List IndexMetadata)) := do
  let magic ← number? d [catalogHeaderSize] 0 4
  let version ← number? d [catalogHeaderSize] 4 2
  let tableCount ← number? d [catalogHeaderSize] 6 2
  let indexCount ← number? d [catalogHeaderSize] 8 2
  let used ← number? d [catalogHeaderSize] 10 2
  if magic ≠ catalogMagic ∨ version ≠ 1 ∨ used < catalogHeaderSize ∨ pageSize < used then
    return (∅, .error (.ioError "Catalog header is corrupted or incompatible"))
  else readEntriesChecked d tableCount indexCount used

section

variable {d : PageData} {bounds : List Nat} {used limit : Nat}

/-- A read before a limit stays before every bound that is not below the limit. -/
theorem readValueChecked_eq (hlimit : limit ≤ pageSize) (hbounds : ∀ bound ∈ bounds, limit ≤ bound)
    (cursor size : Nat) : readValueChecked d bounds limit cursor size =
      OptionT.mk (some (readValue d limit cursor size)) := by
  unfold readValueChecked readValue
  by_cases hfit : cursor + size ≤ limit
  · have hread : number? d bounds cursor size = some (d.readNat cursor size) :=
      number?_eq (by omega) fun bound hb => le_trans hfit (hbounds bound hb)
    rw [if_neg (by omega), if_pos hfit, hread]
    rfl
  · rw [if_pos (by omega), if_neg hfit]

theorem readPageIdValueChecked_eq (hlimit : limit ≤ pageSize)
    (hbounds : ∀ bound ∈ bounds, limit ≤ bound) (cursor : Nat) :
    readPageIdValueChecked d bounds limit cursor =
      OptionT.mk (some (readPageIdValue d limit cursor)) := by
  unfold readPageIdValueChecked readPageIdValue
  by_cases hfit : cursor + 4 ≤ limit
  · have hread : number? d bounds cursor 4 = some (d.readNat cursor 4) :=
      number?_eq (by omega) fun bound hb => le_trans hfit (hbounds bound hb)
    rw [if_neg (by omega), if_pos hfit, hread]
    rfl
  · rw [if_pos (by omega), if_neg hfit]

theorem readStringChecked_eq (hlimit : limit ≤ pageSize)
    (hbounds : ∀ bound ∈ bounds, limit ≤ bound) (cursor length : Nat) :
    readStringChecked d bounds limit cursor length =
      OptionT.mk (some (readString d limit cursor length)) := by
  unfold readStringChecked readString
  by_cases hfit : cursor + length ≤ limit
  · have hread : range? d bounds cursor length = some (d.bytes cursor length) :=
      range?_eq (by omega) fun bound hb => le_trans hfit (hbounds bound hb)
    rw [if_neg (by omega), if_pos hfit, hread]
    rfl
  · rw [if_pos (by omega), if_neg hfit]

/-- A program whose accesses are all inside the memory is bound to another one. -/
theorem mk_some_bind {α β : Type} (x : Option α) (g : α → Option β) :
    (OptionT.mk (some x) >>= fun a => OptionT.mk (some (g a))) =
      (OptionT.mk (some (x >>= g)) : OptionT Option β) := by
  cases x with
  | none => rfl
  | some a => rfl

theorem mk_some_pure {α : Type} (a : α) :
    (pure a : OptionT Option α) = OptionT.mk (some (pure a)) := rfl

theorem mk_some_ite {α : Type} {p : Prop} [Decidable p] (x y : Option α) :
    (if p then OptionT.mk (some x) else OptionT.mk (some y) : OptionT Option α) =
      OptionT.mk (some (if p then x else y)) := by
  split
  · rfl
  · rfl

theorem le_of_mem_bounds (hlimit : limit ≤ used) : ∀ bound ∈ [used, limit], limit ≤ bound := by
  intro bound hb
  rcases List.mem_pair.mp hb with rfl | rfl
  · exact hlimit
  · exact le_rfl

theorem le_of_mem_used : ∀ bound ∈ [used], used ≤ bound := by
  intro bound hb
  exact (List.mem_singleton.mp hb).ge

/-- A column is read inside its entry. -/
theorem readColumnChecked_eq (hlimit : limit ≤ used) (hused : used ≤ pageSize) (cursor : Nat) :
    readColumnChecked d used limit cursor = some (readColumn d limit cursor) := by
  have hbounds := le_of_mem_bounds hlimit
  have hpage : limit ≤ pageSize := le_trans hlimit hused
  unfold readColumnChecked readColumn
  simp only [readValueChecked_eq hpage hbounds, readStringChecked_eq hpage hbounds, mk_some_pure,
    mk_some_bind, OptionT.run_mk]
  split
  · rename_i hheader
    rw [hheader]
    rfl
  · rename_i nameLength type declaredLength o hheader
    rw [hheader]
    rcases hname : readString d limit o nameLength with _ | ⟨_ | ⟨c, cs⟩, o'⟩
    · simp only [Option.bind_eq_bind, Option.bind_some, hname, Option.pure_def]
    · simp only [Option.bind_eq_bind, Option.bind_some, hname, Option.pure_def]
    · simp only [Option.bind_eq_bind, Option.bind_some, hname, Option.pure_def]

theorem readColumnsChecked_eq (hlimit : limit ≤ used) (hused : used ≤ pageSize) :
    ∀ count cursor, readColumnsChecked d used limit count cursor =
      some (readColumns d limit count cursor) := by
  intro count
  induction count with
  | zero => exact fun _ => rfl
  | succ count ih =>
    intro cursor
    rw [readColumnsChecked, readColumns, readColumnChecked_eq hlimit hused]
    rcases readColumn d limit cursor with e | ⟨column, o⟩
    · rfl
    · simp only [Option.bind_eq_bind, Option.bind_some, ih]
      rcases hrest : readColumns d limit count o with e | ⟨columns, o'⟩
      · simp only [bind, Except.bind, hrest, Option.pure_def]
      · simp only [bind, Except.bind, pure, Except.pure, hrest]

/-- The entry of a table is read before the end of the used bytes, and its names and columns before
its own end. -/
theorem readTableChecked_eq (hused : used ≤ pageSize) (entryStart : Nat) :
    readTableChecked d used entryStart = some (readTable d used entryStart) := by
  unfold readTableChecked readTable
  simp only [readValueChecked_eq hused le_of_mem_used,
    readPageIdValueChecked_eq hused le_of_mem_used,
    mk_some_pure, mk_some_ite, mk_some_bind, OptionT.run_mk]
  split
  · rename_i hheader
    rw [hheader]
    rfl
  · rename_i entrySize nameLength columnCount firstPageId o hheader
    rw [hheader]
    have hstop : entryStart + entrySize ≤ used := by
      simp only [Option.bind_eq_bind, Option.bind_eq_some_iff, Prod.exists] at hheader
      obtain ⟨e, _, _, n, _, _, c, _, _, r, _, _, p, _, _, hret⟩ := hheader
      split at hret
      · cases hret
      · rename_i hchecks
        cases hret
        omega
    have hbounds := le_of_mem_bounds hstop
    simp only [Option.bind_eq_bind, Option.bind_some, Option.pure_def,
      readStringChecked_eq (le_trans hstop hused) hbounds, OptionT.run_mk,
      readColumnsChecked_eq hstop hused]
    rcases hname : readString d (entryStart + entrySize) o nameLength with _ | ⟨_ | ⟨c, cs⟩, o'⟩
    · rfl
    · rfl
    · rcases hcolumns : readColumns d (entryStart + entrySize) columnCount o' with
        e | ⟨columns, o''⟩
      · simp only [bind, Except.bind, hcolumns]
      · simp only [bind, Except.bind, hcolumns, apply_ite some]

theorem readTablesChecked_eq (hused : used ≤ pageSize) : ∀ count cursor tables,
    readTablesChecked d used count cursor tables =
      some (readTables d used count cursor tables) := by
  intro count
  induction count with
  | zero => exact fun _ _ => rfl
  | succ count ih =>
    intro cursor tables
    rw [readTablesChecked, readTables, readTableChecked_eq hused]
    rcases readTable d used cursor with e | ⟨table, o⟩
    · rfl
    · exact ih o _

theorem readIndexChecked_eq (hused : used ≤ pageSize) (entryStart : Nat) :
    readIndexChecked d used entryStart = some (readIndex d used entryStart) := by
  unfold readIndexChecked readIndex
  simp only [readValueChecked_eq hused le_of_mem_used,
    readPageIdValueChecked_eq hused le_of_mem_used,
    mk_some_pure, mk_some_ite, mk_some_bind, OptionT.run_mk]
  split
  · rename_i hheader
    rw [hheader]
    rfl
  · rename_i entrySize nameLength tableNameLength columnNameLength header o hheader
    rw [hheader]
    have hstop : entryStart + entrySize ≤ used := by
      simp only [Option.bind_eq_bind, Option.bind_eq_some_iff, Prod.exists] at hheader
      obtain ⟨e, _, _, n, _, _, t, _, _, c, _, _, p, _, _, hret⟩ := hheader
      split at hret
      · cases hret
      · rename_i hchecks
        cases hret
        omega
    have hbounds := le_of_mem_bounds hstop
    simp only [Option.bind_eq_bind, Option.bind_some, Option.pure_def,
      readStringChecked_eq (le_trans hstop hused) hbounds, mk_some_bind, OptionT.run_mk]
    split
    · rename_i hstrings
      rw [hstrings]
    · rename_i pending hstrings
      rw [hstrings]

theorem readIndexesChecked_eq (hused : used ≤ pageSize) : ∀ count cursor,
    readIndexesChecked d used count cursor = some (readIndexes d used count cursor) := by
  intro count
  induction count with
  | zero => exact fun _ => rfl
  | succ count ih =>
    intro cursor
    rw [readIndexesChecked, readIndexes, readIndexChecked_eq hused]
    rcases readIndex d used cursor with e | ⟨index, o⟩
    · rfl
    · simp only [Option.bind_eq_bind, Option.bind_some, ih]
      rcases hrest : readIndexes d used count o with e | ⟨indexes, o'⟩
      · simp only [bind, Except.bind, hrest, Option.pure_def]
      · simp only [bind, Except.bind, pure, Except.pure, hrest]

/-- Decoding never leaves the bounds, whatever the page holds. -/
theorem readCatalogChecked_eq (d : PageData) : readCatalogChecked d = some (readCatalog d) := by
  have hheader : ∀ off w, off + w ≤ 16 → number? d [catalogHeaderSize] off w =
      some (d.readNat off w) := by
    intro off w hle
    apply number?_eq
    · show off + w ≤ 4096
      omega
    · intro bound hb
      rw [List.mem_singleton.mp hb]
      exact hle
  unfold readCatalogChecked readCatalog
  rw [hheader 0 4 (by omega), hheader 4 2 (by omega), hheader 6 2 (by omega),
    hheader 8 2 (by omega), hheader 10 2 (by omega)]
  simp only [Option.bind_eq_bind, Option.bind_some]
  by_cases hinvalid : d.readNat 0 4 ≠ catalogMagic ∨ d.readNat 4 2 ≠ 1 ∨
      d.readNat 10 2 < catalogHeaderSize ∨ pageSize < d.readNat 10 2
  · rw [if_pos hinvalid, if_pos hinvalid]
    rfl
  · rw [if_neg hinvalid, if_neg hinvalid]
    simp only [not_or, not_lt] at hinvalid
    have hused := hinvalid.2.2.2
    rw [readEntriesChecked, readTablesChecked_eq hused]
    rcases readTables d (d.readNat 10 2) (d.readNat 6 2) catalogHeaderSize ∅ with ⟨tables, e | o⟩
    · rfl
    · simp only [Option.bind_eq_bind, Option.bind_some, readIndexesChecked_eq hused]
      rcases readIndexes d (d.readNat 10 2) (d.readNat 8 2) o with e | ⟨pending, o'⟩
      · rfl
      · simp only [Option.pure_def, apply_ite some]

end

/-! ## Calls on a catalog that is not open -/

/-- Every call answers with the error of the initialization, and the catalog stays as it is. -/
structure Refuses (catalog : CatalogManager) (e : Status) : Prop where
  status : catalog.initializationStatus = .error e
  getTableSchema : ∀ tableName, catalog.getTableSchema tableName = .error e
  getTableFirstPageId : ∀ tableName, catalog.getTableFirstPageId tableName = .error e
  getIndexHeaderPageId : ∀ tableName columnName,
    catalog.getIndexHeaderPageId tableName columnName = .error e
  getTableIndexes : ∀ tableName, catalog.getTableIndexes tableName = .error e
  hasIndex : ∀ tableName columnName, catalog.hasIndex tableName columnName = false
  hasIndexName : ∀ indexName, catalog.hasIndexName indexName = false
  getIndex : ∀ tableName columnName, catalog.getIndex tableName columnName = none
  createTable : ∀ tableName schema firstPageId,
    catalog.createTable tableName schema firstPageId = return (.error e, catalog)
  createIndex : ∀ indexName tableName columnName index,
    catalog.createIndex indexName tableName columnName index = return (.error e, catalog)

theorem refuses_of_status {catalog : CatalogManager} {e : Status}
    (h : catalog.initializationStatus = .error e) : Refuses catalog e where
  status := h
  getTableSchema _ := by rw [getTableSchema, h]
  getTableFirstPageId _ := by rw [getTableFirstPageId, h]
  getIndexHeaderPageId _ _ := by rw [getIndexHeaderPageId, h]
  getTableIndexes _ := by rw [getTableIndexes, h]
  hasIndex _ _ := by rw [hasIndex, h, Except.isOk, Except.toBool, Bool.false_and]
  hasIndexName _ := by rw [hasIndexName, h, Except.isOk, Except.toBool, Bool.false_and]
  getIndex _ _ := by rw [getIndex, h]
  createTable _ _ _ := by rw [createTable, h]
  createIndex _ _ _ _ := by rw [createIndex, h]

/-! ## The catalog of a page -/

/-- The map keeps the first table of a name. -/
theorem lookup_foldl_emplace_first (l : List TableMetadata) :
    ∀ (map : StringMap TableMetadata) (name : Bytes),
      (l.foldl (fun m t => emplace m t.name t) map).lookup name =
        (map.lookup name).or (l.find? fun t => t.name = name) := by
  induction l with
  | nil =>
    intro map name
    rw [List.foldl_nil, List.find?_nil, Option.or_none]
  | cons t l ih =>
    intro map name
    rw [List.foldl_cons, ih]
    by_cases hname : t.name = name
    · subst hname
      rw [List.find?_cons_of_pos (by simp), emplace]
      by_cases hold : t.name ∈ map
      · obtain ⟨t', ht'⟩ := mem_iff_lookup.mp hold
        rw [if_pos hold, ht', Option.some_or, Option.some_or]
      · rw [if_neg hold, AList.lookup_insert, AList.lookup_eq_none.mpr hold, Option.some_or,
          Option.none_or]
    · rw [List.find?_cons_of_neg (by simpa using hname), emplace]
      split
      · rfl
      · rw [AList.lookup_insert_ne (Ne.symm hname)]

theorem lookup_tableMap (tables : List TableMetadata) (name : Bytes) :
    (tableMap tables).lookup name = tables.find? fun t => t.name = name := by
  rw [tableMap, lookup_foldl_emplace_first, AList.lookup_empty, Option.none_or]

/-- The indexes of a list could be added to a catalog one after the other. -/
structure Installs (catalog : CatalogManager) (l : List IndexMetadata) (catalog' : CatalogManager) :
    Prop where
  opened : Opened catalog l catalog'
  columns : ∀ i ∈ l, HasColumn catalog i.tableName i.columnName
  keys : (l.map fun i => makeIndexKey i.tableName i.columnName).Nodup
  names : (l.map IndexMetadata.name).Nodup
  fresh : ∀ i ∈ l, makeIndexKey i.tableName i.columnName ∉ catalog.indexes ∧
    i.name ∉ catalog.indexNames

/-- The catalog has the tables and indexes of an image that they fill: each table name stands for
its first table, each index is on a column of such a table, and no two indexes have a name or a
table and column in common. -/
structure Accepted (d : PageData) (tables : List TableMetadata) (indexes : List IndexMetadata)
    (catalog : CatalogManager) : Prop where
  filled : Filled d tables indexes
  lookup : ∀ name, catalog.tables.lookup name = tables.find? fun t => t.name = name
  installs : Installs { ({} : CatalogManager) with tables := tableMap tables } indexes catalog

theorem Installs.cons {catalog catalog' : CatalogManager} {i : IndexMetadata}
    {l : List IndexMetadata} (hcolumn : HasColumn catalog i.tableName i.columnName)
    (hkey : makeIndexKey i.tableName i.columnName ∉ catalog.indexes)
    (hname : i.name ∉ catalog.indexNames)
    (h : Installs { catalog with
      indexNames := catalog.indexNames.insert i.name (makeIndexKey i.tableName i.columnName)
      indexes := catalog.indexes.insert (makeIndexKey i.tableName i.columnName) i } l catalog') :
    Installs catalog (i :: l) catalog' := by
  have hfresh : ∀ j ∈ l, (makeIndexKey j.tableName j.columnName ≠
      makeIndexKey i.tableName i.columnName ∧
        makeIndexKey j.tableName j.columnName ∉ catalog.indexes) ∧
      j.name ≠ i.name ∧ j.name ∉ catalog.indexNames := by
    intro j hj
    obtain ⟨hk, hn⟩ := h.fresh j hj
    rw [AList.mem_insert, not_or] at hk hn
    exact ⟨hk, hn⟩
  refine ⟨h.opened.cons hkey hname, ?_, ?_, ?_, ?_⟩
  · intro j hj
    rcases List.mem_cons.mp hj with rfl | hj
    · exact hcolumn
    · exact h.columns j hj
  · rw [List.map_cons, List.nodup_cons]
    refine ⟨fun hmem => ?_, h.keys⟩
    obtain ⟨j, hj, heq⟩ := List.mem_map.mp hmem
    exact (hfresh j hj).1.1 heq
  · rw [List.map_cons, List.nodup_cons]
    refine ⟨fun hmem => ?_, h.names⟩
    obtain ⟨j, hj, heq⟩ := List.mem_map.mp hmem
    exact (hfresh j hj).2.1 heq
  · intro j hj
    rcases List.mem_cons.mp hj with rfl | hj
    · exact ⟨hkey, hname⟩
    · exact ⟨(hfresh j hj).1.2, (hfresh j hj).2.2⟩

/-! ## `Load` -/

open PagedProgram Program

section

variable {seen : List PageId} {grown : Bool}

theorem ends_openIndex (header : PageId) : (HashIndex.openIndex header).Ends
    (fun _ _ r => ∀ p, r = .ok p → p = header) seen grown := by
  have hvalidate : (HashIndex.validateHeader header).Ends (fun _ _ _ => True) seen grown := by
    apply ends_fetchPage
    · exact trivial
    intro f d
    apply ends_unpinPage
    · exact trivial
    apply ends_ite
    · exact trivial
    · exact trivial
  unfold HashIndex.openIndex
  apply ends_ite
  · intro p hp
    cases hp
  apply ends_bind
  refine hvalidate.mono fun _ _ r _ => ?_
  rcases r with e | count
  · intro p hp
    cases hp
  · intro p hp
    cases hp
    rfl

/-- The last loop ends, with an error or with all indexes added. -/
theorem ends_openIndexes : ∀ (l : List IndexMetadata) (catalog : CatalogManager)
    (seen : List PageId) (grown : Bool), catalog.initializationStatus = .ok () →
    (openIndexes l catalog).Ends (fun _ _ r =>
      (∃ e, r.initializationStatus = .error e) ∨ Installs catalog l r) seen grown := by
  intro l
  induction l with
  | nil =>
    intro catalog seen grown hstatus
    exact .inr ⟨⟨hstatus, rfl, by simp, by simp⟩, nofun, List.nodup_nil, List.nodup_nil, nofun⟩
  | cons i l ih =>
    intro catalog seen grown hstatus
    rw [openIndexes]
    cases htable : catalog.tables.lookup i.tableName with
    | none => exact .inl ⟨_, rfl⟩
    | some table =>
      dsimp only
      split
      · exact .inl ⟨_, rfl⟩
      rename_i hfound
      have hcolumn : HasColumn catalog i.tableName i.columnName := by
        simp only [not_forall, not_not] at hfound
        obtain ⟨column, hmem, hname⟩ := hfound
        exact ⟨table, htable, column, hmem, hname⟩
      apply ends_bind
      refine (ends_openIndex i.headerPageId).mono fun seen grown r hr => ?_
      rcases r with e | header
      · exact .inl ⟨_, rfl⟩
      · obtain rfl : header = i.headerPageId := hr header rfl
        dsimp only
        split
        · exact .inl ⟨_, rfl⟩
        rename_i hnew
        obtain ⟨hkey, hname⟩ := not_or.mp hnew
        refine (ih _ _ _ ?_).mono fun _ _ r hr => ?_
        · exact hstatus
        · rcases hr with he | hinstalls
          · exact .inl he
          · exact .inr (hinstalls.cons hcolumn hkey hname)

end

open BufferPoolManager

theorem Installs.accepted {d : PageData} {tables : List TableMetadata}
    {indexes : List IndexMetadata} {catalog : CatalogManager} (hfilled : Filled d tables indexes)
    (h : Installs { ({} : CatalogManager) with tables := tableMap tables } indexes catalog) :
    Accepted d tables indexes catalog where
  filled := hfilled
  lookup name := by
    rw [h.opened.tables]
    exact lookup_tableMap tables name
  installs := h

/-- `Load` of any page 0 ends on every pool, and what it accepts is a page that its tables and
indexes fill. -/
theorem load_safe (w : BufferPoolManager) :
    (∀ d, readCatalogChecked d = some (readCatalog d)) ∧
    ∃ catalog w', load.run w = some (catalog, w') ∧
      ((∃ e, Refuses catalog e) ∨
        catalog.initializationStatus = .ok () ∧ ∃ f v, w.fetchPage headerPageId = (some f, v) ∧
          ((v.pages f).data.readNat 0 4 = 0 ∧ catalog = {} ∨
            ∃ tables indexes, Accepted (v.pages f).data tables indexes catalog)) := by
  refine ⟨readCatalogChecked_eq, ?_⟩
  unfold load
  rcases hfetch : w.fetchPage headerPageId with ⟨_ | f, v⟩
  · rw [run_fetchPage_none _ _ hfetch]
    exact ⟨_, _, rfl, .inl ⟨_, refuses_of_status rfl⟩⟩
  rw [run_fetchPage_some _ _ hfetch]
  dsimp only
  split
  · rename_i hzero
    rw [run_unpinPage]
    exact ⟨_, _, rfl, .inr ⟨rfl, f, v, rfl, .inl ⟨hzero, rfl⟩⟩⟩
  split
  · rw [run_unpinPage]
    exact ⟨_, _, rfl, .inl ⟨_, refuses_of_status rfl⟩⟩
  rename_i tables pending hread
  obtain ⟨l, hfilled, rfl⟩ := readCatalog_ok hread
  rw [run_unpinPage]
  cases hunpin : (v.unpinPage headerPageId false).1 with
  | false => exact ⟨_, _, rfl, .inl ⟨_, refuses_of_status rfl⟩⟩
  | true =>
    obtain ⟨catalog, w', hrun, ⟨e, he⟩ | hinstalls⟩ := run_of_ends
      (ends_openIndexes pending { ({} : CatalogManager) with tables := tableMap l } [] false rfl)
      (v.unpinPage headerPageId false).2
    · exact ⟨catalog, w', hrun, .inl ⟨e, refuses_of_status he⟩⟩
    · exact ⟨catalog, w', hrun, .inr ⟨hinstalls.opened.status, f, v, rfl,
        .inr ⟨l, pending, hinstalls.accepted hfilled⟩⟩⟩

end CatalogManager

end MiniDbms
