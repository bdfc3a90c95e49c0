import MiniDbms.Index.HashIndexPins
import MiniDbms.Storage.HeapFilePins
import MiniDbms.Storage.TableStorage

/-!
# The pins of table operations

Every operation of the table storage is disciplined, its rollbacks included.
-/

namespace MiniDbms

open Lib PagedProgram Program

namespace TableStorage

theorem disciplined_validateRecordBelongsToTable (firstPageId : PageId) (rid : RecordID) :
    Disciplined none (validateRecordBelongsToTable firstPageId rid)
      (validateRecordBelongsToTable firstPageId rid) := by
  unfold validateRecordBelongsToTable
  refine disciplined_ite (fun _ => disciplined_pure _) fun _ => ?_
  refine (HeapFile.disciplined_containsPage _ _).bind fun r => ?_
  rcases r with e | _ | _
  · exact disciplined_pure _
  · exact disciplined_pure _
  · exact disciplined_pure _

/-! ## Insertion -/

theorem disciplined_rollbackInsertedIndexEntries (rid : RecordID) :
    ∀ inserted : List EncodedIndexKey,
      Disciplined none (rollbackInsertedIndexEntries rid inserted)
        (rollbackInsertedIndexEntries rid inserted) := by
  intro inserted
  induction inserted with
  | nil => exact disciplined_pure _
  | cons encoded rest ih =>
    rw [rollbackInsertedIndexEntries]
    cases encoded.key with
    | none => exact ih
    | some key =>
      refine (HashIndex.disciplined_remove _ _ _).bind fun r => ?_
      cases r with
      | error e => exact disciplined_ite (fun _ => disciplined_pure _) fun _ => ih
      | ok => exact ih

theorem disciplined_rollbackInsert (rid : RecordID) (e : Status) (inserted : List EncodedIndexKey) :
    Disciplined none (rollbackInsert rid e inserted) (rollbackInsert rid e inserted) := by
  refine (disciplined_rollbackInsertedIndexEntries rid inserted).bind fun index => ?_
  refine (HeapFile.disciplined_deleteRecord rid).bind fun heap => ?_
  rcases index with e' | _
  · exact disciplined_pure _
  · rcases heap with e' | _
    · exact disciplined_pure _
    · exact disciplined_pure _

theorem disciplined_insertKeys (rid : RecordID) : ∀ keys inserted : List EncodedIndexKey,
    Disciplined none (insertKeys rid inserted keys) (insertKeys rid inserted keys) := by
  intro keys
  induction keys with
  | nil => exact fun _ => disciplined_pure _
  | cons encoded rest ih =>
    intro inserted
    rw [insertKeys]
    cases encoded.key with
    | none => exact ih _
    | some key =>
      refine (HashIndex.disciplined_insert _ _ _).bind fun r => ?_
      cases r with
      | error e =>
        exact (disciplined_rollbackInsert rid e inserted).bind fun _ => disciplined_pure _
      | ok => exact ih _

theorem disciplined_insertRecord (catalog : CatalogManager) (tableName : Bytes)
    (values : List FieldValue) : Disciplined none (insertRecord catalog tableName values)
      (insertRecord catalog tableName values) := by
  unfold insertRecord
  dsimp only
  split
  · exact disciplined_pure _
  refine (HeapFile.disciplined_insertRecord _ _).bind fun r => ?_
  cases r with
  | error e => exact disciplined_pure _
  | ok rid =>
    refine (disciplined_insertKeys rid _ _).bind fun r => ?_
    cases r with
    | error e => exact disciplined_pure _
    | ok => exact disciplined_pure _

theorem disciplined_getRecord (catalog : CatalogManager) (tableName : Bytes) (rid : RecordID) :
    Disciplined none (getRecord catalog tableName rid) (getRecord catalog tableName rid) := by
  unfold getRecord
  cases loadTable catalog tableName with
  | error e => exact disciplined_pure _
  | ok table =>
    refine (disciplined_validateRecordBelongsToTable _ _).bind fun r => ?_
    cases r with
    | error e => exact disciplined_pure _
    | ok => exact HeapFile.disciplined_getRecord rid

/-! ## Update -/

theorem disciplined_removeOldKey (rid : RecordID) (change : KeyChange) :
    Disciplined none (removeOldKey rid change) (removeOldKey rid change) := by
  unfold removeOldKey
  cases change.oldKey with
  | none => exact disciplined_pure _
  | some key =>
    refine (HashIndex.disciplined_remove _ _ _).bind fun r => ?_
    cases r with
    | error e => exact disciplined_pure _
    | ok => exact disciplined_pure _

theorem disciplined_insertNewKey (rid : RecordID) (change : KeyChange) (removedOld : Bool) :
    Disciplined none (insertNewKey rid change removedOld) (insertNewKey rid change removedOld) := by
  unfold insertNewKey
  cases change.newKey with
  | none => exact disciplined_pure _
  | some key =>
    refine (HashIndex.disciplined_insert _ _ _).bind fun r => ?_
    cases r with
    | ok => exact disciplined_pure _
    | error e =>
      dsimp only
      split
      · refine (HashIndex.disciplined_insert _ _ _).bind fun r => ?_
        cases r with
        | ok => exact disciplined_pure _
        | error e' => exact disciplined_pure _
      · exact disciplined_pure _

theorem disciplined_applyChanges (rid : RecordID) : ∀ (changes : List KeyChange)
    (applied : List AppliedChange),
    Disciplined none (applyChanges rid applied changes) (applyChanges rid applied changes) := by
  intro changes
  induction changes with
  | nil => exact fun _ => disciplined_pure _
  | cons change rest ih =>
    intro applied
    rw [applyChanges]
    refine disciplined_ite (fun _ => ih _) fun _ => ?_
    refine (disciplined_removeOldKey rid change).bind fun r => ?_
    cases r with
    | error e => exact disciplined_pure _
    | ok removedOld =>
      refine (disciplined_insertNewKey rid change removedOld).bind fun r => ?_
      cases r with
      | error e => exact disciplined_pure _
      | ok insertedNew => exact ih _

theorem disciplined_undoInsert (rid : RecordID) (applied : AppliedChange)
    (rollbackStatus : Except Status Unit) : Disciplined none (undoInsert rid applied rollbackStatus)
      (undoInsert rid applied rollbackStatus) := by
  unfold undoInsert
  split
  · refine (HashIndex.disciplined_remove _ _ _).bind fun r => ?_
    split
    · exact disciplined_ite (fun _ => disciplined_pure _) fun _ => disciplined_pure _
    · exact disciplined_pure _
  · exact disciplined_pure _

theorem disciplined_undoRemove (rid : RecordID) (applied : AppliedChange)
    (rollbackStatus : Except Status Unit) : Disciplined none (undoRemove rid applied rollbackStatus)
      (undoRemove rid applied rollbackStatus) := by
  unfold undoRemove
  split
  · refine (HashIndex.disciplined_insert _ _ _).bind fun r => ?_
    split
    · exact disciplined_pure _
    · exact disciplined_pure _
  · exact disciplined_pure _

theorem disciplined_rollbackChanges (rid : RecordID) : ∀ (applied : List AppliedChange)
    (rollbackStatus : Except Status Unit),
    Disciplined none (rollbackChanges rid applied rollbackStatus)
      (rollbackChanges rid applied rollbackStatus) := by
  intro applied
  induction applied with
  | nil => exact fun _ => disciplined_pure _
  | cons change rest ih =>
    intro rollbackStatus
    refine (disciplined_undoInsert rid change rollbackStatus).bind fun afterInsert => ?_
    exact (disciplined_undoRemove rid change afterInsert).bind ih

theorem disciplined_rollbackUpdate (oldRecord : Record) (e : Status)
    (applied : List AppliedChange) :
    Disciplined none (rollbackUpdate oldRecord e applied) (rollbackUpdate oldRecord e applied) := by
  refine (disciplined_rollbackChanges oldRecord.rid applied _).bind fun index => ?_
  refine (HeapFile.disciplined_updateRecord oldRecord).bind fun heap => ?_
  rcases index with e' | _
  · exact disciplined_pure _
  · rcases heap with e' | _
    · exact disciplined_pure _
    · exact disciplined_pure _

theorem disciplined_updateRecord (catalog : CatalogManager) (tableName : Bytes) (rid : RecordID)
    (values : List FieldValue) : Disciplined none (updateRecord catalog tableName rid values)
      (updateRecord catalog tableName rid values) := by
  unfold updateRecord
  cases loadTable catalog tableName with
  | error e => exact disciplined_pure _
  | ok table =>
  refine (disciplined_validateRecordBelongsToTable _ _).bind fun r => ?_
  cases r with
  | error e => exact disciplined_pure _
  | ok =>
  refine (HeapFile.disciplined_getRecord rid).bind fun r => ?_
  cases r with
  | error e => exact disciplined_pure _
  | ok oldRecord =>
  dsimp only
  split
  · exact disciplined_pure _
  refine (HeapFile.disciplined_updateRecord _).bind fun r => ?_
  cases r with
  | error e => exact disciplined_pure _
  | ok =>
  refine (disciplined_applyChanges rid _ _).bind fun r => ?_
  rcases r with ⟨e | _, applied⟩
  · exact (disciplined_rollbackUpdate _ e applied).bind fun _ => disciplined_pure _
  · exact disciplined_pure _

/-! ## Deletion -/

theorem disciplined_rollbackRemovedIndexEntries (rid : RecordID) :
    ∀ removed : List EncodedIndexKey,
      Disciplined none (rollbackRemovedIndexEntries rid removed)
        (rollbackRemovedIndexEntries rid removed) := by
  intro removed
  induction removed with
  | nil => exact disciplined_pure _
  | cons encoded rest ih =>
    rw [rollbackRemovedIndexEntries]
    cases encoded.key with
    | none => exact ih
    | some key =>
      refine (HashIndex.disciplined_insert _ _ _).bind fun r => ?_
      cases r with
      | error e => exact disciplined_pure _
      | ok => exact ih

theorem disciplined_rollbackDelete (rid : RecordID) (e : Status) (removed : List EncodedIndexKey)
    (context : String) :
    Disciplined none (rollbackDelete rid e removed context)
    (rollbackDelete rid e removed context) := by
  refine (disciplined_rollbackRemovedIndexEntries rid removed).bind fun r => ?_
  cases r with
  | error e' => exact disciplined_pure _
  | ok => exact disciplined_pure _

theorem disciplined_removeKeys (rid : RecordID) : ∀ keys removed : List EncodedIndexKey,
    Disciplined none (removeKeys rid removed keys) (removeKeys rid removed keys) := by
  intro keys
  induction keys with
  | nil => exact fun _ => disciplined_pure _
  | cons encoded rest ih =>
    intro removed
    rw [removeKeys]
    cases encoded.key with
    | none => exact ih _
    | some key =>
      refine (HashIndex.disciplined_remove _ _ _).bind fun r => ?_
      cases r with
      | error e =>
        exact (disciplined_rollbackDelete rid e removed _).bind fun _ => disciplined_pure _
      | ok => exact ih _

theorem disciplined_deleteRecord (catalog : CatalogManager) (tableName : Bytes) (rid : RecordID) :
    Disciplined none (deleteRecord catalog tableName rid) (deleteRecord catalog tableName rid) := by
  unfold deleteRecord
  cases loadTable catalog tableName with
  | error e => exact disciplined_pure _
  | ok table =>
  refine (disciplined_validateRecordBelongsToTable _ _).bind fun r => ?_
  cases r with
  | error e => exact disciplined_pure _
  | ok =>
  refine (HeapFile.disciplined_getRecord rid).bind fun r => ?_
  cases r with
  | error e => exact disciplined_pure _
  | ok oldRecord =>
  dsimp only
  cases encodeIndexKeys table.schema oldRecord.data table.bindings with
  | error e => exact disciplined_pure _
  | ok keys =>
  refine (disciplined_removeKeys rid keys []).bind fun r => ?_
  cases r with
  | error e => exact disciplined_pure _
  | ok removed =>
  refine (HeapFile.disciplined_deleteRecord rid).bind fun r => ?_
  cases r with
  | ok => exact disciplined_pure _
  | error e => exact (disciplined_rollbackDelete rid e removed _).bind fun _ => disciplined_pure _

end TableStorage

end MiniDbms
