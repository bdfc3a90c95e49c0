import MiniDbms.Catalog.CatalogState

/-!
# `CreateTable` and `CreateIndex`

Both check their arguments, put the new entry into the maps, and call `Persist`. A call whose
arguments fail a check does nothing (`exec_rejected`); one whose arguments pass publishes the
changed catalog, or undoes the change (`exec_accepted`).
-/

namespace MiniDbms

open Lib PagedProgram Program

namespace CatalogManager

/-- Erasing a new key undoes its insertion. -/
theorem erase_insert {α : Type} {map : StringMap α} {key : Bytes} (h : key ∉ map) (value : α) :
    (map.insert key value).erase key = map := by
  apply AList.ext
  show List.kerase key (map.insert key value).entries = map.entries
  rw [AList.entries_insert_of_notMem h]
  exact List.kerase_cons_eq rfl

/-- The calls that change the catalog. -/
inductive Change where
  | createTable (tableName : Bytes) (schema : Schema) (firstPageId : PageId)
  | createIndex (indexName tableName columnName : Bytes) (index : PageId)

namespace Change

def exec (catalog : CatalogManager) : Change → Program (Except Status Unit × CatalogManager)
  | .createTable tableName schema firstPageId => catalog.createTable tableName schema firstPageId
  | .createIndex indexName tableName columnName index =>
    catalog.createIndex indexName tableName columnName index

/-- The arguments pass all checks, and `changed` is the catalog to be published. -/
def Accepts (catalog : CatalogManager) : Change → CatalogManager → Prop
  | .createTable tableName schema firstPageId, changed =>
    catalog.initializationStatus = .ok () ∧ tableName ≠ [] ∧ 0 < firstPageId.toInt ∧
      schema.getColumnCount ≠ 0 ∧ tableName ∉ catalog.tables ∧
      changed = { catalog with
        tables := catalog.tables.insert tableName ⟨tableName, schema, firstPageId⟩ }
  | .createIndex indexName tableName columnName index, changed =>
    catalog.initializationStatus = .ok () ∧
      ¬ (indexName = [] ∨ tableName = [] ∨ columnName = []) ∧
      HasColumn catalog tableName columnName ∧
      makeIndexKey tableName columnName ∉ catalog.indexes ∧ indexName ∉ catalog.indexNames ∧
      changed = { catalog with
        indexNames := catalog.indexNames.insert indexName (makeIndexKey tableName columnName)
        indexes := catalog.indexes.insert (makeIndexKey tableName columnName)
          ⟨indexName, tableName, columnName, index⟩ }

variable {catalog changed changed' : CatalogManager} {call : Change}

theorem Accepts.unique (h : call.Accepts catalog changed) (h' : call.Accepts catalog changed') :
    changed' = changed := by
  cases call with
  | createTable =>
    obtain ⟨-, -, -, -, -, rfl⟩ := h
    exact h'.2.2.2.2.2
  | createIndex =>
    obtain ⟨-, -, -, -, -, rfl⟩ := h
    exact h'.2.2.2.2.2

/-- A call whose arguments fail a check does nothing. -/
theorem exec_rejected (h : ∀ changed, ¬ call.Accepts catalog changed) :
    ∃ e, call.exec catalog = pure (.error e, catalog) := by
  cases call with
  | createTable tableName schema firstPageId =>
    rw [exec]
    unfold CatalogManager.createTable
    split
    · exact ⟨_, rfl⟩
    rename_i hstatus
    split
    · exact ⟨_, rfl⟩
    rename_i hname
    split
    · exact ⟨_, rfl⟩
    rename_i hpage
    split
    · exact ⟨_, rfl⟩
    rename_i hcount
    split
    · exact ⟨_, rfl⟩
    rename_i hnew
    rw [toInt_headerPageId] at hpage
    exact absurd ⟨hstatus, hname, by omega, hcount, hnew, rfl⟩ (h _)
  | createIndex indexName tableName columnName index =>
    rw [exec]
    unfold CatalogManager.createIndex
    split
    · exact ⟨_, rfl⟩
    rename_i hstatus
    split
    · exact ⟨_, rfl⟩
    rename_i hnames
    split
    · exact ⟨_, rfl⟩
    rename_i table htable
    split
    · exact ⟨_, rfl⟩
    rename_i hcolumn
    dsimp only
    split
    · exact ⟨_, rfl⟩
    rename_i hkey
    split
    · exact ⟨_, rfl⟩
    rename_i hname
    simp only [ne_eq, not_forall, not_not, exists_prop] at hcolumn
    exact absurd ⟨hstatus, hnames, ⟨table, htable, hcolumn⟩, hkey, hname, rfl⟩ (h _)

/-- What follows a `Persist` that has failed: the catalog is as before, and a new index is
destroyed. -/
def undo (catalog : CatalogManager) (e : Status) :
    Change → Program (Except Status Unit × CatalogManager)
  | .createTable _ _ _ => return (.error e, catalog)
  | .createIndex _ _ _ index => do
    match ← HashIndex.destroy index with
    | .error e' =>
      return (.error ⟨.ioError, str "Catalog persistence failed: " ++ e.msg ++
        str "; index cleanup failed: " ++ e'.msg⟩, catalog)
    | .ok () => return (.error e, catalog)

/-- A call whose arguments pass publishes the new catalog, or undoes the change after `Persist` has
failed. -/
theorem exec_accepted (h : call.Accepts catalog changed) :
    call.exec catalog = (do
      match ← persist changed with
      | .ok () => return (.ok (), changed)
      | .error e => call.undo catalog e) := by
  obtain ⟨status, tables, indexes, indexNames⟩ := catalog
  cases call with
  | createTable tableName schema firstPageId =>
    obtain ⟨hstatus, hname, hpage, hcount, hnew, rfl⟩ := h
    obtain rfl : status = .ok () := hstatus
    rw [exec]
    unfold CatalogManager.createTable
    dsimp only
    rw [if_neg hname, if_neg (by rw [toInt_headerPageId]; omega), if_neg hcount, if_neg hnew]
    congr 1
    funext r
    rcases r with e | _
    · dsimp only
      rw [erase_insert hnew]
      rfl
    · rfl
  | createIndex indexName tableName columnName index =>
    obtain ⟨hstatus, hnames, ⟨table, htable, column, hmem, hcolumn⟩, hkey, hname, rfl⟩ := h
    obtain rfl : status = .ok () := hstatus
    have hcolumns : ¬ ∀ column ∈ table.schema, column.name ≠ columnName := fun hall =>
      hall column hmem hcolumn
    rw [exec]
    unfold CatalogManager.createIndex
    dsimp only
    rw [if_neg hnames, htable]
    dsimp only
    rw [if_neg hcolumns, if_neg hkey, if_neg hname]
    congr 1
    funext r
    rcases r with e | _
    · dsimp only
      rw [erase_insert hkey, erase_insert hname]
      rfl
    · rfl

end Change

end CatalogManager

end MiniDbms
