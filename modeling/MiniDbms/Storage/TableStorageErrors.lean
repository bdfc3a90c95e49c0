import MiniDbms.Index.HashIndexErrors
import MiniDbms.Storage.TableStorage

/-!
# Errors of table operations

A table operation in which a call has failed returns an error, whether or not its rollback succeeds:
`CombineFailure` and the rollbacks only choose which one.
-/

namespace MiniDbms

open Lib PagedProgram Program

namespace TableStorage

/-- An operation whose last step says which error is returned. -/
theorem always_bind_error {α : Type} (x : Program Status) :
    PagedProgram.Always IsError (x >>= fun e => (pure (.error e) : Program (Except Status α))) :=
  always_bind (always_true x) fun e _ => isError_error e

theorem strict_validateRecordBelongsToTable (firstPageId : PageId) (rid : RecordID) :
    (validateRecordBelongsToTable firstPageId rid).Strict IsError := by
  refine strict_ite (strict_pure _) ?_
  refine (HeapFile.strict_containsPage _ _).bind_ok (fun e => isError_error e) fun b => ?_
  cases b with
  | false => exact strict_pure _
  | true => exact strict_pure _

/-! ## Insertion -/

theorem strict_insertKeys (rid : RecordID) : ∀ keys inserted : List EncodedIndexKey,
    (insertKeys rid inserted keys).Strict IsError := by
  intro keys
  induction keys with
  | nil => exact fun _ => strict_pure _
  | cons encoded rest ih =>
    intro inserted
    rw [insertKeys]
    cases encoded.key with
    | none => exact ih _
    | some key =>
      exact (HashIndex.strict_insert _ _ _).bind_ok (fun e => always_bind_error _) fun _ => ih _

theorem strict_insertRecord (catalog : CatalogManager) (tableName : Bytes)
    (values : List FieldValue) : (insertRecord catalog tableName values).Strict IsError := by
  unfold insertRecord
  dsimp only
  split
  · exact strict_pure _
  refine (HeapFile.strict_insertRecord _ _).bind_ok (fun e => isError_error e) fun rid => ?_
  exact (strict_insertKeys rid _ _).bind_ok (fun e => isError_error e) fun _ => strict_pure _

/-! ## Update -/

theorem strict_removeOldKey (rid : RecordID) (change : KeyChange) :
    (removeOldKey rid change).Strict IsError := by
  unfold removeOldKey
  cases change.oldKey with
  | none => exact strict_pure _
  | some key =>
    exact (HashIndex.strict_remove _ _ _).bind_ok (fun e => isError_error e) fun _ => strict_pure _

theorem strict_insertNewKey (rid : RecordID) (change : KeyChange) (removedOld : Bool) :
    (insertNewKey rid change removedOld).Strict IsError := by
  unfold insertNewKey
  cases change.newKey with
  | none => exact strict_pure _
  | some key =>
    refine (HashIndex.strict_insert _ _ _).bind_ok (fun e => ?_) fun _ => strict_pure _
    dsimp only
    split
    · refine always_bind (always_true _) fun r _ => ?_
      cases r with
      | error e' => exact isError_error _
      | ok => exact isError_error e
    · exact isError_error e

/-- The loop has stopped with an error. -/
def ChangesFailed (r : Except Status Unit × List AppliedChange) : Prop := IsError r.1

theorem strict_applyChanges (rid : RecordID) : ∀ (changes : List KeyChange)
    (applied : List AppliedChange), (applyChanges rid applied changes).Strict ChangesFailed := by
  intro changes
  induction changes with
  | nil => exact fun _ => strict_pure _
  | cons change rest ih =>
    intro applied
    rw [applyChanges]
    refine strict_ite (ih _) ?_
    refine (strict_removeOldKey rid change).bind_ok (fun e => isError_error e) fun removedOld => ?_
    exact (strict_insertNewKey rid change removedOld).bind_ok (fun e => isError_error e)
      fun _ => ih _

theorem strict_updateRecord (catalog : CatalogManager) (tableName : Bytes) (rid : RecordID)
    (values : List FieldValue) : (updateRecord catalog tableName rid values).Strict IsError := by
  unfold updateRecord
  cases loadTable catalog tableName with
  | error e => exact strict_pure _
  | ok table =>
  refine (strict_validateRecordBelongsToTable _ _).bind_ok (fun e => isError_error e) fun _ => ?_
  refine (HeapFile.strict_getRecord rid).bind_ok (fun e => isError_error e) fun oldRecord => ?_
  dsimp only
  split
  · exact strict_pure _
  refine (HeapFile.strict_updateRecord _).bind_ok (fun e => isError_error e) fun _ => ?_
  apply (strict_applyChanges rid _ _).bind
  · intro r hr
    obtain ⟨_ | _, applied⟩ := r
    · exact always_bind_error _
    · exact absurd hr (not_isError_ok _)
  · intro r
    obtain ⟨_ | _, applied⟩ := r
    · exact strict_of_always (always_bind_error _)
    · exact strict_pure _

/-! ## Deletion -/

theorem strict_removeKeys (rid : RecordID) : ∀ keys removed : List EncodedIndexKey,
    (removeKeys rid removed keys).Strict IsError := by
  intro keys
  induction keys with
  | nil => exact fun _ => strict_pure _
  | cons encoded rest ih =>
    intro removed
    rw [removeKeys]
    cases encoded.key with
    | none => exact ih _
    | some key =>
      exact (HashIndex.strict_remove _ _ _).bind_ok (fun e => always_bind_error _) fun _ => ih _

theorem strict_deleteRecord (catalog : CatalogManager) (tableName : Bytes) (rid : RecordID) :
    (deleteRecord catalog tableName rid).Strict IsError := by
  unfold deleteRecord
  cases loadTable catalog tableName with
  | error e => exact strict_pure _
  | ok table =>
  refine (strict_validateRecordBelongsToTable _ _).bind_ok (fun e => isError_error e) fun _ => ?_
  refine (HeapFile.strict_getRecord rid).bind_ok (fun e => isError_error e) fun oldRecord => ?_
  dsimp only
  cases encodeIndexKeys table.schema oldRecord.data table.bindings with
  | error e => exact strict_pure _
  | ok keys =>
  refine (strict_removeKeys rid keys []).bind_ok (fun e => isError_error e) fun removed => ?_
  exact (HeapFile.strict_deleteRecord rid).bind_ok (fun e => always_bind_error _) fun _ =>
    strict_pure _

end TableStorage

end MiniDbms
