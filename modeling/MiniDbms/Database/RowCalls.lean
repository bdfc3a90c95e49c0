import MiniDbms.Database.TableRuns

/-!
# Calls of `TableStorage`

The calls on one table, whatever record id they are given (`RowCall.exec_runs`). A call that fails
leaves the rows of the table and the pairs of its indexes as they were, and never reports that a
rollback has failed (`rowCall_effect`); a call with the id of a record on a page of another part of
the database is rejected before anything is changed (`rowCall_foreign`).
-/

namespace MiniDbms

open Lib PagedProgram Program HashIndex StringMap CatalogManager

/-- The table has the same rows, and each index on it the same pairs. -/
structure SameTable (catalog : CatalogManager) (c c' : Contents) (name : Bytes) : Prop where
  rows : ∀ {table}, catalog.tables.lookup name = some table → ∀ rid,
    (c'.chain table.firstPageId).record rid = (c.chain table.firstPageId).record rid
  pairs : ∀ {key index}, catalog.indexes.lookup key = some index → index.tableName = name →
    (c'.buckets index.headerPageId).pairs = (c.buckets index.headerPageId).pairs

section

variable {ext : PageId → Nat} {h h' : Pages} {catalog : CatalogManager} {d d' : PageData}
  {c c' : Contents} {name : Bytes} {table : TableMetadata} {rid : RecordID}

/-- In consistent databases the rows of a table give the pairs of its indexes. -/
theorem sameTable_of_rows (hd : DatabaseHolds h catalog d c) (hd' : DatabaseHolds h' catalog d' c')
    (hrows : ∀ table, catalog.tables.lookup name = some table → ∀ rid,
      (c'.chain table.firstPageId).record rid = (c.chain table.firstPageId).record rid) :
    SameTable catalog c c' name where
  rows := hrows _
  pairs := by
    intro key index hi hname
    obtain ⟨table, k, ht, hk⟩ := hd.wellFormed.index_column hi
    ext e
    rw [(hd'.indexed hi ht hk).pairs, (hd.indexed hi ht hk).pairs]
    rw [hname] at ht
    simp only [hrows table ht]

/-- A call of `TableStorage` on a table. -/
inductive RowCall where
  | insertRecord (values : List FieldValue)
  | getRecord (rid : RecordID)
  | updateRecord (rid : RecordID) (values : List FieldValue)
  | deleteRecord (rid : RecordID)

namespace RowCall

/-- The call, and whether it fails. -/
def exec (catalog : CatalogManager) (name : Bytes) : RowCall → Program (Except Status Unit)
  | .insertRecord values => do
    return (← TableStorage.insertRecord catalog name values).map fun _ => ()
  | .getRecord rid => do
    return (← TableStorage.getRecord catalog name rid).map fun _ => ()
  | .updateRecord rid values => TableStorage.updateRecord catalog name rid values
  | .deleteRecord rid => TableStorage.deleteRecord catalog name rid

/-- The record that a call is given the id of. -/
def target : RowCall → Option RecordID
  | .insertRecord _ => none
  | .getRecord rid => some rid
  | .updateRecord rid _ => some rid
  | .deleteRecord rid => some rid

/-- The error says that a rollback has failed as well. -/
def ReportsRollback (e : Status) : Prop :=
  ∃ primary rollback context, e = TableStorage.combineFailure primary rollback context

theorem not_reportsRollback {e : Status} (he : e.code ≠ .ioError) : ¬ ReportsRollback e := by
  rintro ⟨primary, rollback, context, rfl⟩
  exact he rfl

/-- `GetRecord` changes nothing. -/
theorem getRecord_effect (hd : DatabaseHolds h catalog d c)
    (ht : catalog.tables.lookup name = some table) (rid : RecordID) :
    Runs (poolContext ext) (TableStorage.getRecord catalog name rid) (fun r h' => h' = h ∧
      ∀ e, r = .error e → e.code ≠ .ioError) h := by
  obtain ⟨bindings, hload, -, -⟩ := loadTable_ok hd ht
  have hheap := hd.storage.heap _ (TableStorage.isFirstPage ht)
  rw [TableStorage.getRecord, hload]
  dsimp only
  refine ((TableStorage.validateRecordBelongsToTable_runs hd ht rid).mono fun r h₁ hr => ?_).bind
  obtain ⟨rfl, hr⟩ := hr
  by_cases hin : rid.pageId ∈ (c.chain table.firstPageId).ids
  · rw [if_pos hin] at hr
    subst hr
    dsimp only
    refine (HeapFile.getRecord_runs hheap.holds hin).mono fun r h₂ hr => ?_
    obtain ⟨rfl, hr⟩ := hr
    refine ⟨rfl, fun e he => ?_⟩
    subst he
    cases hold : (c.chain table.firstPageId).record rid with
    | none =>
      rw [hold] at hr
      obtain ⟨e, he, hcode⟩ := hr
      cases he
      rw [hcode]
      decide
    | some old =>
      rw [hold] at hr
      cases hr
  · rw [if_neg hin] at hr
    obtain ⟨e, rfl, hcode⟩ := hr
    refine runs_pure ⟨rfl, fun e' he => ?_⟩
    cases he
    rw [hcode]
    decide

/-- What a call leaves: one row of the table may have changed if the call succeeds, and nothing has
if it fails. -/
theorem exec_runs (hd : DatabaseHolds h catalog d c) (ht : catalog.tables.lookup name = some table)
    (call : RowCall) : Runs (poolContext ext) (call.exec catalog name) (fun r h' => ∃ c',
      DatabaseHolds h' catalog d c' ∧
      (∀ q, q ≠ table.firstPageId → ∀ rid, (c'.chain q).record rid = (c.chain q).record rid) ∧
      ∀ e, r = .error e → e.code ≠ .ioError ∧ TableStorage.SameRows c c') h := by
  cases call with
  | insertRecord values =>
    refine ((TableStorage.insertRecord_effect hd ht values).mono fun r h' hr => ?_).bind
    rcases hr with ⟨rid, data, c', rfl, -, -, hd', hrow⟩ | ⟨e, c', rfl, hcode, hd', hsame⟩
    · exact runs_pure ⟨c', hd', fun q hq rid => by rw [hrow.others q hq], fun e he => by cases he⟩
    · exact runs_pure ⟨c', hd', fun q _ => hsame q, fun e' he => by cases he; exact ⟨hcode, hsame⟩⟩
  | getRecord rid =>
    refine ((getRecord_effect hd ht rid).mono fun r h' hr => ?_).bind
    obtain ⟨rfl, hcode⟩ := hr
    refine runs_pure ⟨c, hd, fun _ _ _ => rfl, fun e he => ⟨hcode e ?_, fun _ _ => rfl⟩⟩
    cases r with
    | error e' =>
      cases he
      rfl
    | ok record => cases he
  | updateRecord rid values =>
    refine (TableStorage.updateRecord_effect hd ht rid values).mono fun r h' hr => ?_
    rcases hr with ⟨old, data, c', rfl, -, -, hd', hrow⟩ | ⟨e, c', rfl, hcode, hd', hsame⟩
    · exact ⟨c', hd', fun q hq rid => by rw [hrow.others q hq], fun e he => by cases he⟩
    · exact ⟨c', hd', fun q _ => hsame q, fun e' he => by cases he; exact ⟨hcode, hsame⟩⟩
  | deleteRecord rid =>
    refine (TableStorage.deleteRecord_effect hd ht rid).mono fun r h' hr => ?_
    rcases hr with ⟨old, c', rfl, -, hd', hrow⟩ | ⟨e, rfl, hcode, rfl, -⟩
    · exact ⟨c', hd', fun q hq rid => by rw [hrow.others q hq], fun e he => by cases he⟩
    · exact ⟨c, hd, fun _ _ _ => rfl, fun e' he => by cases he; exact ⟨hcode, fun _ _ => rfl⟩⟩

/-- What follows the check that a record belongs to the table is not run for a record elsewhere. -/
theorem runs_validate_foreign {α : Type} {g : Except Status Unit → Program (Except Status α)}
    (hd : DatabaseHolds h catalog d c) (ht : catalog.tables.lookup name = some table)
    (hrid : rid.pageId ∉ (c.chain table.firstPageId).ids)
    (hg : ∀ e, g (.error e) = pure (.error e)) :
    Runs (poolContext ext) (TableStorage.validateRecordBelongsToTable table.firstPageId rid >>= g)
      (fun r h' => h' = h ∧ ∃ e, r = .error e) h := by
  refine ((TableStorage.validateRecordBelongsToTable_runs hd ht rid).mono fun r h' hr => ?_).bind
  obtain ⟨rfl, hr⟩ := hr
  rw [if_neg hrid] at hr
  obtain ⟨e, rfl, -⟩ := hr
  rw [hg]
  exact runs_pure ⟨rfl, e, rfl⟩

/-- A record on a page that is not of the table is rejected, and nothing is changed. -/
theorem exec_foreign (hd : DatabaseHolds h catalog d c)
    (ht : catalog.tables.lookup name = some table) {call : RowCall}
    (htarget : call.target = some rid) (hrid : rid.pageId ∉ (c.chain table.firstPageId).ids) :
    Runs (poolContext ext) (call.exec catalog name) (fun r h' => h' = h ∧ ∃ e, r = .error e) h := by
  obtain ⟨bindings, hload, -, -⟩ := loadTable_ok hd ht
  cases call with
  | insertRecord values => cases htarget
  | getRecord rid' =>
    cases htarget
    have hget : Runs (poolContext ext) (TableStorage.getRecord catalog name rid)
        (fun r h' => h' = h ∧ ∃ e, r = .error e) h := by
      rw [TableStorage.getRecord, hload]
      exact runs_validate_foreign hd ht hrid fun e => rfl
    refine (hget.mono fun r h' hr => ?_).bind
    obtain ⟨rfl, e, rfl⟩ := hr
    exact runs_pure ⟨rfl, e, rfl⟩
  | updateRecord rid' values =>
    cases htarget
    rw [exec, TableStorage.updateRecord, hload]
    exact runs_validate_foreign hd ht hrid fun e => rfl
  | deleteRecord rid' =>
    cases htarget
    rw [exec, TableStorage.deleteRecord, hload]
    exact runs_validate_foreign hd ht hrid fun e => rfl

end RowCall

end

end MiniDbms
