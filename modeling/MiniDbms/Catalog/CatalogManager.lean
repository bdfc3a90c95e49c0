import MiniDbms.Catalog.Schema
import MiniDbms.Index.HashIndex
import Mathlib.Data.List.AList
import Mathlib.Data.List.Sort

/-!
# The catalog manager

`CatalogManager` of `catalog/catalog_manager.cpp`. The tables, the indexes (by `table.column`) and
the index names are maps; a `std::unordered_map` is an association list with distinct keys, and
nothing depends on the order of its entries. An open `HashIndex` is the id of its header page.
The catalog is stored in page 0: a header of 16 bytes, the tables in the order of their names
and the indexes in the order of their keys.
-/

namespace MiniDbms

open Lib PagedProgram Program

/-- `std::unordered_map<std::string, α>`. -/
abbrev StringMap (α : Type) := AList fun _ : Bytes => α

structure TableMetadata where
  name : Bytes
  schema : Schema
  firstPageId : PageId
  deriving DecidableEq, Repr

/-- `IndexMetadata`, `PendingIndex` and `CatalogIndexInfo`. -/
structure IndexMetadata where
  name : Bytes
  tableName : Bytes
  columnName : Bytes
  headerPageId : PageId
  deriving DecidableEq, Repr

structure CatalogManager where
  initializationStatus : Except Status Unit := .ok ()
  tables : StringMap TableMetadata := ∅
  indexes : StringMap IndexMetadata := ∅
  indexNames : StringMap Bytes := ∅

namespace CatalogManager

/-- `CATALOG_MAGIC`. -/
def catalogMagic : Nat := 0x31544143

/-- `CATALOG_HEADER_SIZE`. -/
def catalogHeaderSize : Nat := 16

/-- `CatalogManager::MakeIndexKey`. -/
def makeIndexKey (tableName columnName : Bytes) : Bytes := tableName ++ (46 :: columnName)

/-- `unordered_map::emplace` keeps the value of a key that is present. -/
def emplace {α : Type} (map : StringMap α) (key : Bytes) (value : α) : StringMap α :=
  if key ∈ map then map else map.insert key value

/-! ## Writing the catalog page -/

/-- `WriteValue` and `WriteString`, given what has been written so far. -/
def write (buffer bytes : Bytes) : Option Bytes :=
  if buffer.length + bytes.length ≤ pageSize then some (buffer ++ bytes) else none

/-- A sequence of writes: the first that does not fit ends the serialization. -/
def writeAll (buffer : Bytes) (parts : List Bytes) : Except Status Bytes :=
  match parts.foldlM write buffer with
  | some buffer => .ok buffer
  | none => .error (.outOfMemory "Catalog page is full")

def pageIdBytes (p : PageId) : Bytes := leBytes 4 p.toUInt32.toNat

def writeColumn (buffer : Bytes) (column : Column) : Except Status Bytes :=
  if 65535 < column.name.length then .error (.outOfMemory "Catalog page is full")
  else
    writeAll buffer [leBytes 2 column.name.length, leBytes 1 column.type.toNat, leBytes 1 0,
      leBytes 4 column.length.toNat, column.name]

/-- The size of the entry that begins at `entryStart` replaces its placeholder. -/
def setEntrySize (buffer : Bytes) (entryStart : Nat) : Bytes :=
  buffer.take entryStart ++
    (leBytes 2 (buffer.length - entryStart) ++ buffer.drop (entryStart + 2))

/-- The body of the loop of `Persist` over the tables. -/
def writeTable (buffer : Bytes) (table : TableMetadata) : Except Status Bytes :=
  if 65535 < table.name.length ∨ 65535 < table.schema.getColumnCount then
    .error (.outOfMemory "Catalog table metadata is too large")
  else do
    let entry ← writeAll buffer [leBytes 2 0, leBytes 2 table.name.length,
      leBytes 2 table.schema.getColumnCount, leBytes 2 0, pageIdBytes table.firstPageId, table.name]
    let entry ← table.schema.foldlM writeColumn entry
    if 65535 < entry.length - buffer.length then
      .error (.outOfMemory "Catalog table entry is too large")
    else .ok (setEntrySize entry buffer.length)

/-- The body of the loop of `Persist` over the indexes. -/
def writeIndex (buffer : Bytes) (index : IndexMetadata) : Except Status Bytes :=
  if 65535 < index.name.length ∨ 65535 < index.tableName.length ∨
    65535 < index.columnName.length then
    .error (.outOfMemory "Catalog index metadata is too large")
  else do
    let entry ← writeAll buffer [leBytes 2 0, leBytes 2 index.name.length,
      leBytes 2 index.tableName.length, leBytes 2 index.columnName.length,
      pageIdBytes index.headerPageId, index.name, index.tableName, index.columnName]
    if 65535 < entry.length - buffer.length then
      .error (.outOfMemory "Catalog index entry is too large")
    else .ok (setEntrySize entry buffer.length)

/-- The values of a map in the order of the sorted keys. -/
def sortedValues {α : Type} (map : StringMap α) : List α :=
  (map.keys.insertionSort (· ≤ ·)).filterMap map.lookup

def headerBytes (tableCount indexCount usedBytes : Nat) : Bytes :=
  leBytes 4 catalogMagic ++ (leBytes 2 1 ++ (leBytes 2 tableCount ++ (leBytes 2 indexCount ++
    (leBytes 2 usedBytes ++ leBytes 4 0))))

/-- The bytes that `Persist` stores in the catalog page. -/
def serialize (catalog : CatalogManager) : Except Status Bytes :=
  if 65535 < catalog.tables.keys.length ∨ 65535 < catalog.indexes.keys.length then
    .error (.outOfMemory "Catalog contains too many entries")
  else do
    let buffer ← (sortedValues catalog.tables).foldlM writeTable
      (List.replicate catalogHeaderSize 0)
    let buffer ← (sortedValues catalog.indexes).foldlM writeIndex buffer
    if 65535 < buffer.length then .error (.outOfMemory "Catalog page is full")
    else
      .ok (headerBytes catalog.tables.keys.length catalog.indexes.keys.length buffer.length ++
        buffer.drop catalogHeaderSize)

/-- `CatalogManager::Persist`. -/
def persist (catalog : CatalogManager) : Program (Except Status Unit) :=
  match serialize catalog with
  | .error e => return .error e
  | .ok serialized => do
    let some (f, _) ← fetchPage headerPageId
      | return .error (.ioError "Could not fetch catalog header page")
    putPage f (Image.zero.splice 0 serialized) false
    let .true ← unpinPage headerPageId true
      | return .error (.ioError "Could not unpin catalog header page")
    let .true ← flushPage headerPageId
      | return .error (.ioError "Could not persist catalog header page")
    return .ok ()

/-! ## Reading the catalog page -/

/-- `ReadValue`: the value and the cursor behind it. -/
def readValue (d : PageData) (limit cursor size : Nat) : Option (Nat × Nat) :=
  if cursor + size ≤ limit then some (d.readNat cursor size, cursor + size) else none

/-- `ReadValue<PageId>`. -/
def readPageIdValue (d : PageData) (limit cursor : Nat) : Option (PageId × Nat) :=
  if cursor + 4 ≤ limit then some (d.readPageId cursor, cursor + 4) else none

/-- `ReadString`. -/
def readString (d : PageData) (limit cursor length : Nat) : Option (Bytes × Nat) :=
  if cursor + length ≤ limit then some (d.bytes cursor length, cursor + length) else none

/-- The body of the loop of `Load` over the columns of a table. -/
def readColumn (d : PageData) (limit cursor : Nat) : Except Status (Column × Nat) :=
  let header := do
    let (nameLength, cursor) ← readValue d limit cursor 2
    let (typeValue, cursor) ← readValue d limit cursor 1
    let (_, cursor) ← readValue d limit cursor 1
    let (declaredLength, cursor) ← readValue d limit cursor 4
    let type ← TypeId.ofNat? typeValue
    return (nameLength, type, declaredLength, cursor)
  match header with
  | none => .error (.ioError "Catalog column entry is corrupted")
  | some (nameLength, type, declaredLength, cursor) =>
    match readString d limit cursor nameLength with
    | none | some ([], _) => .error (.ioError "Catalog column name is corrupted")
    | some (name, cursor) => .ok (⟨name, type, UInt32.ofNat declaredLength⟩, cursor)

def readColumns (d : PageData) (limit : Nat) : Nat → Nat → Except Status (List Column × Nat)
  | 0, cursor => .ok ([], cursor)
  | count + 1, cursor => do
    let (column, cursor) ← readColumn d limit cursor
    let (columns, cursor) ← readColumns d limit count cursor
    return (column :: columns, cursor)

/-- The body of the loop of `Load` over the tables. -/
def readTable (d : PageData) (limit entryStart : Nat) : Except Status (TableMetadata × Nat) :=
  let header := do
    let (entrySize, cursor) ← readValue d limit entryStart 2
    let (nameLength, cursor) ← readValue d limit cursor 2
    let (columnCount, cursor) ← readValue d limit cursor 2
    let (_, cursor) ← readValue d limit cursor 2
    let (firstPageId, cursor) ← readPageIdValue d limit cursor
    if entrySize < 12 ∨ limit < entryStart + entrySize ∨ firstPageId.toInt ≤ headerPageId.toInt then
      none
    else return (entrySize, nameLength, columnCount, firstPageId, cursor)
  match header with
  | none => .error (.ioError "Catalog table entry is corrupted")
  | some (entrySize, nameLength, columnCount, firstPageId, cursor) =>
    match readString d (entryStart + entrySize) cursor nameLength with
    | none | some ([], _) => .error (.ioError "Catalog table name is corrupted")
    | some (name, cursor) => do
      let (columns, cursor) ← readColumns d (entryStart + entrySize) columnCount cursor
      if cursor ≠ entryStart + entrySize then
        .error (.ioError "Catalog table entry size is inconsistent")
      else .ok (⟨name, columns, firstPageId⟩, cursor)

/-- The loop of `Load` over the tables: the tables read, and the cursor or an error. -/
def readTables (d : PageData) (limit : Nat) :
    Nat → Nat → StringMap TableMetadata → StringMap TableMetadata × Except Status Nat
  | 0, cursor, tables => (tables, .ok cursor)
  | count + 1, cursor, tables =>
    match readTable d limit cursor with
    | .error e => (tables, .error e)
    | .ok (table, cursor) => readTables d limit count cursor (emplace tables table.name table)

/-- The body of the loop of `Load` over the indexes. -/
def readIndex (d : PageData) (limit entryStart : Nat) : Except Status (IndexMetadata × Nat) :=
  let header := do
    let (entrySize, cursor) ← readValue d limit entryStart 2
    let (indexNameLength, cursor) ← readValue d limit cursor 2
    let (tableNameLength, cursor) ← readValue d limit cursor 2
    let (columnNameLength, cursor) ← readValue d limit cursor 2
    let (header, cursor) ← readPageIdValue d limit cursor
    if entrySize < 12 ∨ limit < entryStart + entrySize ∨ header.toInt ≤ headerPageId.toInt then none
    else return (entrySize, indexNameLength, tableNameLength, columnNameLength, header, cursor)
  match header with
  | none => .error (.ioError "Catalog index entry is corrupted")
  | some (entrySize, indexNameLength, tableNameLength, columnNameLength, header, cursor) =>
    let stop := entryStart + entrySize
    let strings := do
      let (name, cursor) ← readString d stop cursor indexNameLength
      let (tableName, cursor) ← readString d stop cursor tableNameLength
      let (columnName, cursor) ← readString d stop cursor columnNameLength
      if name = [] ∨ tableName = [] ∨ columnName = [] ∨ cursor ≠ stop then none
      else return (⟨name, tableName, columnName, header⟩, cursor)
    match strings with
    | none => .error (.ioError "Catalog index strings are corrupted")
    | some pending => .ok pending

/-- The loop of `Load` over the indexes. -/
def readIndexes (d : PageData) (limit : Nat) : Nat → Nat → Except Status (List IndexMetadata × Nat)
  | 0, cursor => .ok ([], cursor)
  | count + 1, cursor => do
    let (pending, cursor) ← readIndex d limit cursor
    let (rest, cursor) ← readIndexes d limit count cursor
    return (pending :: rest, cursor)

/-- What `Load` reads from a catalog page with a magic number: the tables, and the indexes that
remain to be opened or an error. -/
def readCatalog (d : PageData) : StringMap TableMetadata × Except Status (List IndexMetadata) :=
  let limit := d.readNat 10 2
  if d.readNat 0 4 ≠ catalogMagic ∨ d.readNat 4 2 ≠ 1 ∨ limit < catalogHeaderSize ∨
    pageSize < limit then
    (∅, .error (.ioError "Catalog header is corrupted or incompatible"))
  else
    match readTables d limit (d.readNat 6 2) catalogHeaderSize ∅ with
    | (tables, .error e) => (tables, .error e)
    | (tables, .ok cursor) =>
      match readIndexes d limit (d.readNat 8 2) cursor with
      | .error e => (tables, .error e)
      | .ok (pending, cursor) =>
        if cursor ≠ limit then
          (tables, .error (.ioError "Catalog used-byte count is inconsistent"))
        else (tables, .ok pending)

/-- A catalog whose initialization has failed. -/
def failed (catalog : CatalogManager) (e : Status) : CatalogManager :=
  { catalog with initializationStatus := .error e }

/-- The last loop of `Load`, which opens the indexes. -/
def openIndexes : List IndexMetadata → CatalogManager → Program CatalogManager
  | [], catalog => return catalog
  | pending :: rest, catalog =>
    match catalog.tables.lookup pending.tableName with
    | none => return catalog.failed (.ioError "Catalog index references a missing table")
    | some table =>
      if ∀ column ∈ table.schema, column.name ≠ pending.columnName then
        return catalog.failed (.ioError "Catalog index references a missing column")
      else do
        match ← HashIndex.openIndex pending.headerPageId with
        | .error e => return catalog.failed e
        | .ok header =>
          let key := makeIndexKey pending.tableName pending.columnName
          if key ∈ catalog.indexes ∨ pending.name ∈ catalog.indexNames then
            return catalog.failed (.ioError "Catalog contains duplicate index metadata")
          else
            openIndexes rest { catalog with
              indexNames := catalog.indexNames.insert pending.name key
              indexes := catalog.indexes.insert key { pending with headerPageId := header } }

/-- `CatalogManager::Load`, and the constructor. -/
def load : Program CatalogManager := do
  let empty : CatalogManager := {}
  let some (_, data) ← fetchPage headerPageId
    | return empty.failed (.ioError "Could not fetch catalog header page")
  if data.readNat 0 4 = 0 then
    let _ ← unpinPage headerPageId false
    return empty
  else
    match readCatalog data with
    | (tables, .error e) =>
      let _ ← unpinPage headerPageId false
      return { empty.failed e with tables := tables }
    | (tables, .ok pending) =>
      let catalog : CatalogManager := { empty with tables := tables }
      let .true ← unpinPage headerPageId false
        | return catalog.failed (.ioError "Could not unpin catalog header page")
      openIndexes pending catalog

/-- `CatalogManager::Flush`. -/
def flush (catalog : CatalogManager) : Program (Except Status Unit × CatalogManager) := do
  match ← persist catalog with
  | .error e => return (.error e, catalog)
  | .ok () => return (.ok (), { catalog with initializationStatus := .ok () })

/-! ## Tables and indexes -/

/-- `CatalogManager::CreateTable`. -/
def createTable (catalog : CatalogManager) (tableName : Bytes) (schema : Schema)
    (firstPageId : PageId) : Program (Except Status Unit × CatalogManager) :=
  match catalog.initializationStatus with
  | .error e => return (.error e, catalog)
  | .ok () =>
    if tableName = [] then
      return (.error (.invalidArgument "Table name cannot be empty"), catalog)
    else if firstPageId.toInt ≤ headerPageId.toInt then
      return (.error (.invalidArgument "Table requires a valid first data page"), catalog)
    else if schema.getColumnCount = 0 then
      return (.error (.invalidArgument "Table schema cannot be empty"), catalog)
    else if tableName ∈ catalog.tables then
      return (.error (.invalidArgument "Table already exists in catalog"), catalog)
    else do
      let changed := { catalog with
        tables := catalog.tables.insert tableName ⟨tableName, schema, firstPageId⟩ }
      match ← persist changed with
      | .error e => return (.error e, { changed with tables := changed.tables.erase tableName })
      | .ok () => return (.ok (), changed)

/-- `CatalogManager::GetTableSchema`. -/
def getTableSchema (catalog : CatalogManager) (tableName : Bytes) : Except Status Schema :=
  match catalog.initializationStatus with
  | .error e => .error e
  | .ok () =>
    match catalog.tables.lookup tableName with
    | none => .error (.notFound "Table was not found in catalog")
    | some table => .ok table.schema

/-- `CatalogManager::GetTableFirstPageId`. -/
def getTableFirstPageId (catalog : CatalogManager) (tableName : Bytes) : Except Status PageId :=
  match catalog.initializationStatus with
  | .error e => .error e
  | .ok () =>
    match catalog.tables.lookup tableName with
    | none => .error (.notFound "Table was not found in catalog")
    | some table => .ok table.firstPageId

/-- `CatalogManager::CreateIndex` of an open index. -/
def createIndex (catalog : CatalogManager) (indexName tableName columnName : Bytes)
    (index : PageId) : Program (Except Status Unit × CatalogManager) :=
  match catalog.initializationStatus with
  | .error e => return (.error e, catalog)
  | .ok () =>
    if indexName = [] ∨ tableName = [] ∨ columnName = [] then
      return (.error (.invalidArgument "Index metadata and object must be valid"), catalog)
    else
    match catalog.tables.lookup tableName with
    | none => return (.error (.notFound "Index table was not found in catalog"), catalog)
    | some table =>
      if ∀ column ∈ table.schema, column.name ≠ columnName then
        return (.error (.notFound "Index column was not found in table schema"), catalog)
      else
      let key := makeIndexKey tableName columnName
      if key ∈ catalog.indexes then
        return (.error (.invalidArgument "An index already exists for this table column"), catalog)
      else if indexName ∈ catalog.indexNames then
        return (.error (.invalidArgument "Index name already exists"), catalog)
      else do
        let changed := { catalog with
          indexNames := catalog.indexNames.insert indexName key
          indexes := catalog.indexes.insert key ⟨indexName, tableName, columnName, index⟩ }
        match ← persist changed with
        | .ok () => return (.ok (), changed)
        | .error e =>
          let cleanup ← HashIndex.destroy index
          let restored := { changed with
            indexes := changed.indexes.erase key
            indexNames := changed.indexNames.erase indexName }
          match cleanup with
          | .error e' =>
            return (.error ⟨.ioError, str "Catalog persistence failed: " ++ e.msg ++
              str "; index cleanup failed: " ++ e'.msg⟩, restored)
          | .ok () => return (.error e, restored)

/-- `CatalogManager::HasIndex`. -/
def hasIndex (catalog : CatalogManager) (tableName columnName : Bytes) : Bool :=
  catalog.initializationStatus.isOk && decide (makeIndexKey tableName columnName ∈ catalog.indexes)

/-- `CatalogManager::HasIndexName`. -/
def hasIndexName (catalog : CatalogManager) (indexName : Bytes) : Bool :=
  catalog.initializationStatus.isOk && decide (indexName ∈ catalog.indexNames)

/-- `CatalogManager::GetIndex`; `none` is a null pointer. -/
def getIndex (catalog : CatalogManager) (tableName columnName : Bytes) : Option PageId :=
  match catalog.initializationStatus with
  | .error _ => none
  | .ok () =>
    (catalog.indexes.lookup (makeIndexKey tableName columnName)).map IndexMetadata.headerPageId

/-- `CatalogManager::GetIndexHeaderPageId`. -/
def getIndexHeaderPageId (catalog : CatalogManager) (tableName columnName : Bytes) :
    Except Status PageId :=
  match catalog.initializationStatus with
  | .error e => .error e
  | .ok () =>
    match catalog.indexes.lookup (makeIndexKey tableName columnName) with
    | none => .error (.notFound "Index was not found in catalog")
    | some index => .ok index.headerPageId

/-- `CatalogManager::GetTableIndexes`: the indexes of a table by name. -/
def getTableIndexes (catalog : CatalogManager) (tableName : Bytes) :
    Except Status (List IndexMetadata) :=
  match catalog.initializationStatus with
  | .error e => .error e
  | .ok () =>
    if tableName ∈ catalog.tables then
      let indexes := (catalog.indexes.entries.map Sigma.snd).filter fun i => i.tableName = tableName
      .ok (indexes.insertionSort fun left right => left.name ≤ right.name)
    else .error (.notFound "Table was not found in catalog")

end CatalogManager

end MiniDbms
