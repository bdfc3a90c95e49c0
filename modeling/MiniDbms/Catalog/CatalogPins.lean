import MiniDbms.Catalog.CatalogManager
import MiniDbms.Index.HashIndexPins

/-!
# The pins of catalog operations

Every operation of the catalog manager is disciplined, whatever page 0 holds.
-/

namespace MiniDbms

open Lib PagedProgram Program

namespace CatalogManager

theorem disciplined_persist (catalog : CatalogManager) :
    Disciplined none (persist catalog) (persist catalog) := by
  unfold persist
  cases serialize catalog with
  | error e => exact disciplined_pure _
  | ok serialized =>
    refine disciplined_fetchPage (disciplined_pure _) fun f f' d => ?_
    refine disciplined_putPage ?_
    refine disciplined_unpinPage (.inl rfl) ?_
    refine disciplined_flushPage fun b => ?_
    cases b with
    | false => exact disciplined_pure _
    | true => exact disciplined_pure _

theorem disciplined_openIndexes : ∀ (pending : List IndexMetadata) (catalog : CatalogManager),
    Disciplined none (openIndexes pending catalog) (openIndexes pending catalog) := by
  intro pending
  induction pending with
  | nil => exact fun _ => disciplined_pure _
  | cons index rest ih =>
    intro catalog
    rw [openIndexes]
    cases catalog.tables.lookup index.tableName with
    | none => exact disciplined_pure _
    | some table =>
      refine disciplined_ite (fun _ => disciplined_pure _) fun _ => ?_
      refine (HashIndex.disciplined_openIndex _).bind fun r => ?_
      cases r with
      | error e => exact disciplined_pure _
      | ok header => exact disciplined_ite (fun _ => disciplined_pure _) fun _ => ih _

theorem disciplined_load : Disciplined none load load := by
  unfold load
  refine disciplined_fetchPage (disciplined_pure _) fun f f' d => ?_
  apply disciplined_ite
  · intro _
    exact disciplined_unpinPage (.inr rfl) (disciplined_pure _)
  intro _
  rcases readCatalog d with ⟨tables, e | pending⟩
  · exact disciplined_unpinPage (.inr rfl) (disciplined_pure _)
  · exact disciplined_unpinPage (.inr rfl) (disciplined_openIndexes _ _)

theorem disciplined_flush (catalog : CatalogManager) :
    Disciplined none (flush catalog) (flush catalog) := by
  refine (disciplined_persist catalog).bind fun r => ?_
  cases r with
  | error e => exact disciplined_pure _
  | ok => exact disciplined_pure _

theorem disciplined_createTable (catalog : CatalogManager) (tableName : Bytes) (schema : Schema)
    (firstPageId : PageId) : Disciplined none (createTable catalog tableName schema firstPageId)
      (createTable catalog tableName schema firstPageId) := by
  unfold createTable
  cases catalog.initializationStatus with
  | error e => exact disciplined_pure _
  | ok =>
    refine disciplined_ite (fun _ => disciplined_pure _) fun _ => ?_
    refine disciplined_ite (fun _ => disciplined_pure _) fun _ => ?_
    refine disciplined_ite (fun _ => disciplined_pure _) fun _ => ?_
    refine disciplined_ite (fun _ => disciplined_pure _) fun _ => ?_
    refine (disciplined_persist _).bind fun r => ?_
    cases r with
    | error e => exact disciplined_pure _
    | ok => exact disciplined_pure _

theorem disciplined_createIndex (catalog : CatalogManager) (indexName tableName columnName : Bytes)
    (index : PageId) :
    Disciplined none (createIndex catalog indexName tableName columnName index)
      (createIndex catalog indexName tableName columnName index) := by
  unfold createIndex
  cases catalog.initializationStatus with
  | error e => exact disciplined_pure _
  | ok =>
    refine disciplined_ite (fun _ => disciplined_pure _) fun _ => ?_
    dsimp only
    cases catalog.tables.lookup tableName with
    | none => exact disciplined_pure _
    | some table =>
    refine disciplined_ite (fun _ => disciplined_pure _) fun _ => ?_
    refine disciplined_ite (fun _ => disciplined_pure _) fun _ => ?_
    refine disciplined_ite (fun _ => disciplined_pure _) fun _ => ?_
    refine (disciplined_persist _).bind fun r => ?_
    cases r with
    | ok => exact disciplined_pure _
    | error e =>
      refine (HashIndex.disciplined_destroy index).bind fun cleanup => ?_
      cases cleanup with
      | error e' => exact disciplined_pure _
      | ok => exact disciplined_pure _

end CatalogManager

end MiniDbms
