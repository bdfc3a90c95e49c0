import MiniDbms.Query.StatementPins

/-!
# Public operations

The public operations of the heap file, the hash index, the catalog, the table storage and the
executor that use the pool. In a run in which no `NewPage` hands out the id of a page that stays in
another frame, each of them leaves every pin count as it was, never holds a second pin and never
lacks a frame (`PublicOperation.keepsPins`).
-/

namespace MiniDbms

open Lib PagedProgram Program BufferPoolManager

inductive PublicOperation : {α : Type} → Program α → Prop where
  | heapInsertRecord (firstPageId : PageId) (record : Bytes) :
      PublicOperation (HeapFile.insertRecord firstPageId record)
  | heapGetRecord (rid : RecordID) : PublicOperation (HeapFile.getRecord rid)
  | heapUpdateRecord (record : Record) : PublicOperation (HeapFile.updateRecord record)
  | heapDeleteRecord (rid : RecordID) : PublicOperation (HeapFile.deleteRecord rid)
  | heapContainsPage (firstPageId pageId : PageId) :
      PublicOperation (HeapFile.containsPage firstPageId pageId)
  | heapGetFirstRecord (firstPageId : PageId) :
      PublicOperation (HeapFile.getFirstRecord firstPageId)
  | heapGetNextRecord (rid : RecordID) : PublicOperation (HeapFile.getNextRecord rid)
  | indexCreate (bucketCount : Nat) : PublicOperation (HashIndex.create bucketCount)
  | indexOpen (header : PageId) : PublicOperation (HashIndex.openIndex header)
  | indexGetBucketCount (header : PageId) : PublicOperation (HashIndex.validateHeader header)
  | indexInsert (header : PageId) (key : Bytes) (value : RecordID) :
      PublicOperation (HashIndex.insert header key value)
  | indexGetValue (header : PageId) (key : Bytes) : PublicOperation (HashIndex.getValue header key)
  | indexRemove (header : PageId) (key : Bytes) (value : Option RecordID) :
      PublicOperation (HashIndex.remove header key value)
  | indexDestroy (header : PageId) : PublicOperation (HashIndex.destroy header)
  | catalogLoad : PublicOperation CatalogManager.load
  | catalogFlush (catalog : CatalogManager) : PublicOperation catalog.flush
  | catalogCreateTable (catalog : CatalogManager) (tableName : Bytes) (schema : Schema)
      (firstPageId : PageId) : PublicOperation (catalog.createTable tableName schema firstPageId)
  | catalogCreateIndex (catalog : CatalogManager) (indexName tableName columnName : Bytes)
      (index : PageId) : PublicOperation (catalog.createIndex indexName tableName columnName index)
  | tableInsertRecord (catalog : CatalogManager) (tableName : Bytes) (values : List FieldValue) :
      PublicOperation (TableStorage.insertRecord catalog tableName values)
  | tableGetRecord (catalog : CatalogManager) (tableName : Bytes) (rid : RecordID) :
      PublicOperation (TableStorage.getRecord catalog tableName rid)
  | tableUpdateRecord (catalog : CatalogManager) (tableName : Bytes) (rid : RecordID)
      (values : List FieldValue) :
      PublicOperation (TableStorage.updateRecord catalog tableName rid values)
  | tableDeleteRecord (catalog : CatalogManager) (tableName : Bytes) (rid : RecordID) :
      PublicOperation (TableStorage.deleteRecord catalog tableName rid)
  | execute (catalog : CatalogManager) (statement : SQLStatement) :
      PublicOperation (QueryExecutor.execute catalog statement)

theorem PublicOperation.disciplined {α : Type} {x : Program α} (hx : PublicOperation x) :
    Disciplined none x x := by
  cases hx with
  | heapInsertRecord => exact HeapFile.disciplined_insertRecord _ _
  | heapGetRecord => exact HeapFile.disciplined_getRecord _
  | heapUpdateRecord => exact HeapFile.disciplined_updateRecord _
  | heapDeleteRecord => exact HeapFile.disciplined_deleteRecord _
  | heapContainsPage => exact HeapFile.disciplined_containsPage _ _
  | heapGetFirstRecord => exact HeapFile.disciplined_getFirstRecord _
  | heapGetNextRecord => exact HeapFile.disciplined_getNextRecord _
  | indexCreate => exact HashIndex.disciplined_create _
  | indexOpen => exact HashIndex.disciplined_openIndex _
  | indexGetBucketCount => exact HashIndex.disciplined_validateHeader _
  | indexInsert => exact HashIndex.disciplined_insert _ _ _
  | indexGetValue => exact HashIndex.disciplined_getValue _ _
  | indexRemove => exact HashIndex.disciplined_remove _ _ _
  | indexDestroy => exact HashIndex.disciplined_destroy _
  | catalogLoad => exact CatalogManager.disciplined_load
  | catalogFlush => exact CatalogManager.disciplined_flush _
  | catalogCreateTable => exact CatalogManager.disciplined_createTable _ _ _ _
  | catalogCreateIndex => exact CatalogManager.disciplined_createIndex _ _ _ _ _
  | tableInsertRecord => exact TableStorage.disciplined_insertRecord _ _ _
  | tableGetRecord => exact TableStorage.disciplined_getRecord _ _ _
  | tableUpdateRecord => exact TableStorage.disciplined_updateRecord _ _ _ _
  | tableDeleteRecord => exact TableStorage.disciplined_deleteRecord _ _ _
  | execute => exact QueryExecutor.disciplined_execute _ _

/-! ## Runs of clients -/

/-- A pool that is reached from a new one, with any disk below it: clients call the pool, or write
to pages that are in it, and no `NewPage` hands out the id of a page that stays in another frame. -/
inductive SafelyReached : BufferPoolManager → Prop where
  | start {n : Nat} (hn : 0 < n) (d : DiskManager) : SafelyReached (new n d)
  | call {w : BufferPoolManager} (hw : SafelyReached w) {c : PoolCall} (hc : w.CallSafe c) :
      SafelyReached (w.call c)
  | write {w : BufferPoolManager} (hw : SafelyReached w) {p : PageId} {f : FrameId}
      (hp : w.frameOf p = some f) (d : PageData) (mark : Bool) :
      SafelyReached (if mark then (w.writeBytes f d).setDirty f else w.writeBytes f d)

theorem SafelyReached.poolInv {w : BufferPoolManager} (h : SafelyReached w) : w.PoolInv := by
  induction h with
  | start hn d => exact new_poolInv hn d
  | call hw hc ih => exact (step_poolInv ih hc).1
  | @write w hw p f hp d mark ih =>
    have hd : (w.writeBytes f d).PoolInv :=
      (touches_setFrame ih hp { w.pages f with data := d } rfl rfl).poolInv ih
    cases mark with
    | false => exact hd
    | true =>
      exact (touches_setFrame hd hp { (w.writeBytes f d).pages f with isDirty := true } rfl
        rfl).poolInv hd

/-- In such a run every public operation leaves each pin count as it was, and has at most one pin of
its own at each of its calls; and when no page is pinned, it finds a frame for every page. -/
theorem PublicOperation.keepsPins {w : BufferPoolManager} (hw : SafelyReached w) {α : Type}
    {x : Program α} (hx : PublicOperation x) (hsafe : x.Safe w) :
    (∀ a w', x.run w = some (a, w') → ∀ p, w'.pins p = w.pins p) ∧
      (∀ c v, (c, v) ∈ x.trace w →
        ∃ held : Option PageId, ∀ p, v.pins p = w.pins p + if held = some p then 1 else 0) ∧
      ((∀ p, w.pins p = 0) → ∀ c v, (c, v) ∈ x.trace w → c.TakesFrame → ¬ v.NoFrame) := by
  obtain ⟨hcalls, hend⟩ := Disciplined.steady hx.disciplined (.start hw.poolInv) hsafe
  refine ⟨fun a w' hrun p => (hend a w' hrun).pins p, ?_, ?_⟩
  · intro c v hv
    obtain ⟨hand, hs, -⟩ := hcalls c v hv
    refine ⟨hand.map Hand.page, fun p => ?_⟩
    rw [hs.pins]
    cases hand with
    | none => rfl
    | some page =>
      by_cases hp : p = page.page
      · simp [handPins, hp]
      · simp [handPins, hp, Ne.symm hp]
  · intro hzero c v hv hc
    obtain ⟨hand, hs, hnone⟩ := hcalls c v hv
    obtain rfl := hnone hc
    exact hs.hasFrame (Nat.zero_lt_of_lt hw.poolInv.replacer.hand) hzero

/-- A client holds the first page of a heap file, on a disk that cannot free pages. -/
def heldPage : BufferPoolManager :=
  (new 2 (.newFile { DiskFaults.none with deallocate := fun _ => true })).call .newPage

/-- A record that no page has room for. -/
def longRecord : Bytes := List.replicate 4080 1

/-- The insertion allocates a second page and fails to free it; the client keeps its pin. `Create`
needs no more than the frame of an unused pool. -/
theorem PublicOperation.keepsPins_held : ∃ e w', SafelyReached heldPage ∧ heldPage.pins 1 = 1 ∧
    (HeapFile.insertRecord 1 longRecord).run heldPage = some (.error e, w') ∧
    .deletePage 2 ∈ ((HeapFile.insertRecord 1 longRecord).trace heldPage).map Prod.fst ∧
    (∀ p, w'.pins p = heldPage.pins p) ∧
    (∀ c v, (c, v) ∈ (HeapFile.insertRecord 1 longRecord).trace heldPage →
      ∃ held : Option PageId, ∀ p, v.pins p = heldPage.pins p + if held = some p then 1 else 0) ∧
    ∀ c v, (c, v) ∈ (HashIndex.create HashIndex.defaultBucketCount).trace
      (new 1 (.newFile DiskFaults.none)) → c.TakesFrame → ¬ v.NoFrame := by
  have hval : ((HeapFile.insertRecord 1 longRecord).run heldPage).map (fun r => r.1.isOk) =
      some false := by decide +kernel
  obtain ⟨⟨r, w'⟩, hrun, hr⟩ := Option.map_eq_some_iff.mp hval
  have hreached : SafelyReached heldPage := by
    refine .call (.start Nat.two_pos _) (c := .newPage) ?_
    rintro - ⟨g, f, b, v, hg, -⟩
    cases hg
  have hsafe : (HeapFile.insertRecord 1 longRecord).Safe heldPage :=
    safe_of_fresh (by decide +kernel)
  obtain ⟨hpins, hcalls, -⟩ := PublicOperation.keepsPins hreached (.heapInsertRecord _ _) hsafe
  have hcreate : (HashIndex.create HashIndex.defaultBucketCount).Safe
      (new 1 (.newFile DiskFaults.none)) := safe_of_fresh (by decide +kernel)
  obtain ⟨-, -, hframe⟩ :=
    PublicOperation.keepsPins (.start Nat.one_pos _) (.indexCreate _) hcreate
  cases r with
  | ok => cases hr
  | error e =>
    exact ⟨e, w', hreached, by decide, hrun, by decide +kernel, hpins _ w' hrun, hcalls,
      hframe fun _ => rfl⟩

/-- Another client has fetched a page that was deleted. `HashIndex::Create` gets its id again, and
the client loses its pin. -/
theorem create_drops_pin :
    SafelyReached ((new 2 (DiskManager.newFile DiskFaults.none)).runCalls refetchDeleted) ∧
      ((new 2 (DiskManager.newFile DiskFaults.none)).runCalls refetchDeleted).pins 1 = 1 ∧
      ∃ a w', (HashIndex.create HashIndex.defaultBucketCount).run
          ((new 2 (DiskManager.newFile DiskFaults.none)).runCalls refetchDeleted) = some (a, w') ∧
        w'.pins 1 = 0 := by
  refine ⟨?_, by decide +kernel, ?_⟩
  · refine .call (.call (.call (.call (.start Nat.two_pos _) (c := .newPage) ?_)
      (c := .unpinPage 1 false) nofun) (c := .deletePage 1) nofun) (c := .fetchPage 1) nofun
    rintro - ⟨g, f, b, v, hg, -⟩
    cases hg
  · have hpins : ((HashIndex.create HashIndex.defaultBucketCount).run
        ((new 2 (DiskManager.newFile DiskFaults.none)).runCalls refetchDeleted)).map
          (fun r => r.2.pins 1) = some 0 := by decide +kernel
    obtain ⟨⟨a, w'⟩, hrun, hw'⟩ := Option.map_eq_some_iff.mp hpins
    exact ⟨a, w', hrun, hw'⟩

end MiniDbms
