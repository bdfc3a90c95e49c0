import MiniDbms.Catalog.CatalogManager
import MiniDbms.Index.IndexKey
import MiniDbms.Storage.HeapFile
import MiniDbms.Storage.RecordCodec

/-!
# Table storage

`TableStorage` of `storage/table_storage.cpp`: changes to the rows of a table and to the
indexes on it, with their rollbacks. Where the source keeps positions in the vectors of
bindings and keys, the model keeps the elements at these positions; a vector that is
walked backwards is a list with its last element first.
-/

namespace MiniDbms

open Lib PagedProgram Program

namespace TableStorage

structure IndexBinding where
  indexName : Bytes
  columnName : Bytes
  columnIndex : Nat
  index : PageId
  deriving DecidableEq, Repr

structure EncodedIndexKey where
  binding : IndexBinding
  key : Option Bytes
  deriving DecidableEq, Repr

/-- The outputs of `LoadTable`. -/
structure TableContext where
  schema : Schema
  firstPageId : PageId
  bindings : List IndexBinding

/-- `CombineFailure`, when there is a rollback error. -/
def combineFailure (primary rollback : Status) (context : String) : Status :=
  ⟨.ioError, str context ++ str "; original error: " ++ primary.msg ++ str "; rollback error: " ++
    rollback.msg⟩

/-- The body of the loop of `LoadTable`. -/
def bindIndex (catalog : CatalogManager) (tableName : Bytes) (schema : Schema)
    (metadata : IndexMetadata) : Except Status IndexBinding :=
  match schema.columnIndex metadata.columnName with
  | none =>
    .error ⟨.notFound, str "Indexed column does not exist in table schema: " ++ metadata.columnName⟩
  | some columnIndex =>
    match catalog.getIndex tableName metadata.columnName with
    | none =>
      .error ⟨.ioError, str "Catalog index metadata has no open HashIndex: " ++ metadata.name⟩
    | some index => .ok ⟨metadata.name, metadata.columnName, columnIndex, index⟩

/-- `TableStorage::LoadTable`. -/
def loadTable (catalog : CatalogManager) (tableName : Bytes) : Except Status TableContext := do
  catalog.initializationStatus
  if tableName = [] then .error (.invalidArgument "Invalid TableStorage table context output")
  else
    let schema ← catalog.getTableSchema tableName
    let firstPageId ← catalog.getTableFirstPageId tableName
    let metadata ← catalog.getTableIndexes tableName
    let bindings ← metadata.mapM (bindIndex catalog tableName schema)
    return ⟨schema, firstPageId, bindings⟩

/-- `TableStorage::ValidateRecordBelongsToTable`. -/
def validateRecordBelongsToTable (firstPageId : PageId) (rid : RecordID) :
    Program (Except Status Unit) :=
  if rid.pageId.toInt ≤ 0 then
    return .error (.invalidArgument "RecordID contains an invalid page id")
  else do
    match ← HeapFile.containsPage firstPageId rid.pageId with
    | .error e => return .error e
    | .ok false =>
      return .error (.invalidArgument "RecordID does not belong to the requested table")
    | .ok true => return .ok ()

/-- The body of the loop of `EncodeIndexKeys`: a NULL has no key. -/
def encodeIndexKey (schema : Schema) (data : Bytes) (binding : IndexBinding) :
    Except Status EncodedIndexKey :=
  match RecordCodec.getValue schema data binding.columnIndex with
  | .error e => .error e
  | .ok value =>
    if value = .null then .ok ⟨binding, none⟩
    else
      match IndexKey.encode value with
      | .error e => .error e
      | .ok key => .ok ⟨binding, some key⟩

/-- `TableStorage::EncodeIndexKeys`. -/
def encodeIndexKeys (schema : Schema) (data : Bytes) (bindings : List IndexBinding) :
    Except Status (List EncodedIndexKey) :=
  bindings.mapM (encodeIndexKey schema data)

/-! ## Insertion -/

/-- The loop of `RollbackInsertedIndexEntries`, on the keys that were inserted, last first. -/
def rollbackInsertedIndexEntries (rid : RecordID) :
    List EncodedIndexKey → Program (Except Status Unit)
  | [] => return .ok ()
  | encoded :: rest =>
    match encoded.key with
    | none => rollbackInsertedIndexEntries rid rest
    | some key => do
      match ← HashIndex.remove encoded.binding.index key (some rid) with
      | .error e =>
        if e.code ≠ .notFound then return .error e else rollbackInsertedIndexEntries rid rest
      | .ok () => rollbackInsertedIndexEntries rid rest

/-- A failed insertion: the keys that were inserted and the record are removed again. -/
def rollbackInsert (rid : RecordID) (e : Status) (inserted : List EncodedIndexKey) :
    Program Status := do
  let indexRollback ← rollbackInsertedIndexEntries rid inserted
  let heapRollback ← HeapFile.deleteRecord rid
  match indexRollback, heapRollback with
  | .error e', _ => return combineFailure e e' "Insert index rollback failed"
  | .ok (), .error e' => return combineFailure e e' "Insert HeapFile rollback failed"
  | .ok (), .ok () => return e

/-- The loop of `InsertRecord` over the keys; `inserted` are those before them, last first. -/
def insertKeys (rid : RecordID) :
    List EncodedIndexKey → List EncodedIndexKey → Program (Except Status Unit)
  | _, [] => return .ok ()
  | inserted, encoded :: rest =>
    match encoded.key with
    | none => insertKeys rid (encoded :: inserted) rest
    | some key => do
      match ← HashIndex.insert encoded.binding.index key rid with
      | .ok () => insertKeys rid (encoded :: inserted) rest
      | .error e =>
        let e ← rollbackInsert rid e inserted
        return .error e

/-- `TableStorage::InsertRecord`. -/
def insertRecord (catalog : CatalogManager) (tableName : Bytes) (values : List FieldValue) :
    Program (Except Status RecordID) :=
  let keysOf := do
    let table ← loadTable catalog tableName
    let data ← RecordCodec.serialize table.schema values
    -- all keys are validated before the heap file is changed
    let keys ← encodeIndexKeys table.schema data table.bindings
    return (table, data, keys)
  match keysOf with
  | .error e => return .error e
  | .ok (table, data, keys) => do
    match ← HeapFile.insertRecord table.firstPageId data with
    | .error e => return .error e
    | .ok rid =>
      match ← insertKeys rid [] keys with
      | .error e => return .error e
      | .ok () => return .ok rid

/-! ## Reading a record of a table -/

/-- `TableStorage::GetRecord`. -/
def getRecord (catalog : CatalogManager) (tableName : Bytes) (rid : RecordID) :
    Program (Except Status Record) :=
  match loadTable catalog tableName with
  | .error e => return .error e
  | .ok table => do
    match ← validateRecordBelongsToTable table.firstPageId rid with
    | .error e => return .error e
    | .ok () => HeapFile.getRecord rid

/-! ## Update -/

/-- What happens to the key of a record in one index. -/
structure KeyChange where
  binding : IndexBinding
  oldKey : Option Bytes
  newKey : Option Bytes

/-- `AppliedChange`. -/
structure AppliedChange where
  change : KeyChange
  removedOld : Bool
  insertedNew : Bool

/-- The first half of a change: the old key is removed. The result says whether there was one. -/
def removeOldKey (rid : RecordID) (change : KeyChange) : Program (Except Status Bool) :=
  match change.oldKey with
  | none => return .ok false
  | some oldKey => do
    match ← HashIndex.remove change.binding.index oldKey (some rid) with
    | .error e => return .error e
    | .ok () => return .ok true

/-- The second half of a change: the new key is inserted, or the old one is put back. -/
def insertNewKey (rid : RecordID) (change : KeyChange) (removedOld : Bool) :
    Program (Except Status Bool) :=
  match change.newKey with
  | none => return .ok false
  | some newKey => do
    match ← HashIndex.insert change.binding.index newKey rid with
    | .ok () => return .ok true
    | .error e =>
      match removedOld, change.oldKey with
      | true, some oldKey => do
        match ← HashIndex.insert change.binding.index oldKey rid with
        | .ok () => return .error e
        | .error e' =>
          return .error (combineFailure e e' "Update local index rollback failed")
      | _, _ => return .error e

/-- The loop of `UpdateRecord` over the indexes; `applied` are the changes made, last first. -/
def applyChanges (rid : RecordID) : List AppliedChange → List KeyChange →
    Program (Except Status Unit × List AppliedChange)
  | applied, [] => return (.ok (), applied)
  | applied, change :: rest =>
    if change.oldKey = change.newKey then applyChanges rid applied rest
    else do
      match ← removeOldKey rid change with
      | .error e => return (.error e, applied)
      | .ok removedOld =>
        match ← insertNewKey rid change removedOld with
        | .error e => return (.error e, applied)
        | .ok insertedNew => applyChanges rid (⟨change, removedOld, insertedNew⟩ :: applied) rest

/-- The new key of an applied change is removed again. -/
def undoInsert (rid : RecordID) (applied : AppliedChange) (rollbackStatus : Except Status Unit) :
    Program (Except Status Unit) :=
  match applied.insertedNew, applied.change.newKey with
  | true, some newKey => do
    match ← HashIndex.remove applied.change.binding.index newKey (some rid), rollbackStatus with
    | .error e, .ok () => if e.code ≠ .notFound then return .error e else return .ok ()
    | _, rollbackStatus => return rollbackStatus
  | _, _ => return rollbackStatus

/-- The old key of an applied change is inserted again. -/
def undoRemove (rid : RecordID) (applied : AppliedChange) (rollbackStatus : Except Status Unit) :
    Program (Except Status Unit) :=
  match applied.removedOld, applied.change.oldKey with
  | true, some oldKey => do
    match ← HashIndex.insert applied.change.binding.index oldKey rid, rollbackStatus with
    | .error e, .ok () => return .error e
    | _, rollbackStatus => return rollbackStatus
  | _, _ => return rollbackStatus

/-- The rollback loop of `UpdateRecord`, on the applied changes, last first. It goes on after an
error, and keeps the first. -/
def rollbackChanges (rid : RecordID) :
    List AppliedChange → Except Status Unit → Program (Except Status Unit)
  | [], rollbackStatus => return rollbackStatus
  | applied :: rest, rollbackStatus => do
    let rollbackStatus ← undoInsert rid applied rollbackStatus
    let rollbackStatus ← undoRemove rid applied rollbackStatus
    rollbackChanges rid rest rollbackStatus

/-- What is left of `UpdateRecord` when an index could not be changed. -/
def rollbackUpdate (oldRecord : Record) (e : Status) (applied : List AppliedChange) :
    Program Status := do
  let rollbackStatus ← rollbackChanges oldRecord.rid applied (.ok ())
  let heapRollback ← HeapFile.updateRecord oldRecord
  match rollbackStatus, heapRollback with
  | .error e', _ => return combineFailure e e' "Update index rollback failed"
  | .ok (), .error e' => return combineFailure e e' "Update HeapFile rollback failed"
  | .ok (), .ok () => return e

/-- The keys of the two records in each index. -/
def keyChanges (oldKeys newKeys : List EncodedIndexKey) : List KeyChange :=
  List.zipWith (fun old new => ⟨old.binding, old.key, new.key⟩) oldKeys newKeys

/-- `TableStorage::UpdateRecord`. -/
def updateRecord (catalog : CatalogManager) (tableName : Bytes) (rid : RecordID)
    (values : List FieldValue) : Program (Except Status Unit) :=
  match loadTable catalog tableName with
  | .error e => return .error e
  | .ok table => do
    match ← validateRecordBelongsToTable table.firstPageId rid with
    | .error e => return .error e
    | .ok () =>
    match ← HeapFile.getRecord rid with
    | .error e => return .error e
    | .ok oldRecord =>
    let keysOf := do
      let data ← RecordCodec.serialize table.schema values
      let oldKeys ← encodeIndexKeys table.schema oldRecord.data table.bindings
      let newKeys ← encodeIndexKeys table.schema data table.bindings
      return (data, keyChanges oldKeys newKeys)
    match keysOf with
    | .error e => return .error e
    | .ok (data, changes) =>
    match ← HeapFile.updateRecord { rid := rid, data := data } with
    | .error e => return .error e
    | .ok () =>
    match ← applyChanges rid [] changes with
    | (.ok (), _) => return .ok ()
    | (.error e, applied) =>
      let e ← rollbackUpdate { rid := rid, data := oldRecord.data } e applied
      return .error e

/-! ## Deletion -/

/-- The loop of `RollbackRemovedIndexEntries`, on the keys that were removed, last first. -/
def rollbackRemovedIndexEntries (rid : RecordID) :
    List EncodedIndexKey → Program (Except Status Unit)
  | [] => return .ok ()
  | encoded :: rest =>
    match encoded.key with
    | none => rollbackRemovedIndexEntries rid rest
    | some key => do
      match ← HashIndex.insert encoded.binding.index key rid with
      | .error e => return .error e
      | .ok () => rollbackRemovedIndexEntries rid rest

/-- A failed deletion: the keys that were removed are put back. -/
def rollbackDelete (rid : RecordID) (e : Status) (removed : List EncodedIndexKey)
    (context : String) : Program Status := do
  match ← rollbackRemovedIndexEntries rid removed with
  | .ok () => return e
  | .error e' => return combineFailure e e' context

/-- The loop of `DeleteRecord` over the keys; `removed` are those that were removed, last first. -/
def removeKeys (rid : RecordID) : List EncodedIndexKey → List EncodedIndexKey →
    Program (Except Status (List EncodedIndexKey))
  | removed, [] => return .ok removed
  | removed, encoded :: rest =>
    match encoded.key with
    | none => removeKeys rid removed rest
    | some key => do
      match ← HashIndex.remove encoded.binding.index key (some rid) with
      | .ok () => removeKeys rid (encoded :: removed) rest
      | .error e =>
        let e ← rollbackDelete rid e removed "Delete index rollback failed"
        return .error e

/-- `TableStorage::DeleteRecord`. -/
def deleteRecord (catalog : CatalogManager) (tableName : Bytes) (rid : RecordID) :
    Program (Except Status Unit) :=
  match loadTable catalog tableName with
  | .error e => return .error e
  | .ok table => do
    match ← validateRecordBelongsToTable table.firstPageId rid with
    | .error e => return .error e
    | .ok () =>
    match ← HeapFile.getRecord rid with
    | .error e => return .error e
    | .ok oldRecord =>
    match encodeIndexKeys table.schema oldRecord.data table.bindings with
    | .error e => return .error e
    | .ok keys =>
    match ← removeKeys rid [] keys with
    | .error e => return .error e
    | .ok removed =>
    match ← HeapFile.deleteRecord rid with
    | .ok () => return .ok ()
    | .error e =>
      let e ← rollbackDelete rid e removed "Delete HeapFile rollback failed"
      return .error e

end TableStorage

end MiniDbms
