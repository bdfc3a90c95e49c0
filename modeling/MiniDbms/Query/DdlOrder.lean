import MiniDbms.Buffer.FlushFailures
import MiniDbms.Catalog.CatalogFailures
import MiniDbms.Query.PublicOperations

/-!
# The order of CREATE TABLE and CREATE INDEX

Both write the pages of the new object to the disk before `Persist` writes the catalog page that
lists it. CREATE TABLE checks that the write was made. CREATE INDEX calls `FlushAllPages`, which
does not say whether a write has failed (`ddl_order`).
-/

namespace MiniDbms

open Lib PagedProgram Program BufferPoolManager

/-! ## What does not flush -/

theorem flushFree_writePage {α : Type} {f : FrameId} {page : Page} {g : Unit → Program α}
    (h : (g ()).FlushFree) : (Program.writePage f page >>= g).FlushFree := h

namespace HeapFile

theorem flushFree_findLoop : ∀ (fuel : Nat) (visited : List PageId) (current : PageId)
    (firstSlot : Nat), (findLoop fuel visited current firstSlot).FlushFree := by
  intro fuel
  induction fuel with
  | zero => exact fun _ _ _ => trivial
  | succ fuel ih =>
    intro visited current firstSlot
    rw [findLoop]
    refine flushFree_ite (flushFree_pure _) (flushFree_ite (flushFree_pure _) ?_)
    refine flushFree_fetchPage (flushFree_pure _) fun f d => ?_
    refine flushFree_ite (flushFree_unpinPage (flushFree_pure _) (flushFree_pure _)) ?_
    rcases findInPage (Page.view current d)
      (SlottedPage.getSlotCount (Page.view current d) - firstSlot)
      firstSlot with _ | e | record
    · exact flushFree_unpinPage (flushFree_pure _) (ih _ _ _)
    · exact flushFree_unpinPage (flushFree_pure _) (flushFree_pure _)
    · exact flushFree_unpinPage (flushFree_pure _) (flushFree_pure _)

theorem flushFree_getFirstRecord (firstPageId : PageId) : (getFirstRecord firstPageId).FlushFree :=
  flushFree_findLoop _ _ _ _

theorem flushFree_getNextRecord (rid : RecordID) : (getNextRecord rid).FlushFree :=
  flushFree_ite (flushFree_pure _) (flushFree_findLoop _ _ _ _)

end HeapFile

namespace SeqScanOperator

theorem flushFree_next (firstPageId : PageId) (s : SeqScanState) :
    (next firstPageId s).FlushFree := by
  cases hs : s.finished with
  | true =>
    rw [next, if_pos hs]
    exact flushFree_pure _
  | false =>
    rw [next_eq hs]
    refine flushFree_bind (flushFree_ite ?_ ?_) fun result => flushFree_pure _
    · exact HeapFile.flushFree_getNextRecord _
    · exact HeapFile.flushFree_getFirstRecord _

end SeqScanOperator

namespace HashIndex

theorem flushFree_create (bucketCount : Nat) : (create bucketCount).FlushFree := by
  unfold create
  refine flushFree_ite (flushFree_pure _) (flushFree_newPage (flushFree_pure _) fun p f d => ?_)
  dsimp only
  refine flushFree_writePage (flushFree_unpinPage (flushFree_pure _) ?_)
  dsimp only
  cases (HashIndexHeaderPage.init (Page.view p d) bucketCount
    HashIndexBucketPage.maxKeyLength).1 with
  | error e => exact flushFree_deletePage (flushFree_pure _) (flushFree_pure _)
  | ok => exact flushFree_pure _

theorem flushFree_getBucketPageId (header : PageId) (key : Bytes) :
    (getBucketPageId header key).FlushFree := by
  unfold getBucketPageId
  refine flushFree_ite (flushFree_pure _) (flushFree_fetchPage (flushFree_pure _) fun f d => ?_)
  refine flushFree_unpinPage (flushFree_pure _) (flushFree_ite (flushFree_pure _) ?_)
  dsimp only
  cases HashIndexHeaderPage.getBucketPageId (Page.view header d)
    (bucketOf (HashIndexHeaderPage.getBucketCount (Page.view header d)) key) with
  | error e => exact flushFree_pure _
  | ok => exact flushFree_pure _

theorem flushFree_newBucket (key : Bytes) (value : RecordID) (allocError unpinError : String) :
    (newBucket key value allocError unpinError).FlushFree := by
  unfold newBucket
  refine flushFree_newPage (flushFree_pure _) fun p f d => ?_
  dsimp only
  refine flushFree_writePage (flushFree_unpinPage (flushFree_pure _) ?_)
  dsimp only
  cases (fillBucket (Page.view p d) key value).1 with
  | error e => exact flushFree_deletePage (flushFree_pure _) (flushFree_pure _)
  | ok => exact flushFree_pure _

theorem flushFree_linkBucket (pageId newBucketPageId : PageId)
    (link : Page → Except Status Unit × Page) (fetchError unpinError : String) :
    (linkBucket pageId newBucketPageId link fetchError unpinError).FlushFree := by
  unfold linkBucket
  apply flushFree_fetchPage
  · exact flushFree_deletePage (flushFree_pure _) (flushFree_pure _)
  intro f d
  dsimp only
  refine flushFree_writePage (flushFree_unpinPage (flushFree_pure _) ?_)
  dsimp only
  cases (link (Page.view pageId d)).1 with
  | error e => exact flushFree_deletePage (flushFree_pure _) (flushFree_pure _)
  | ok => exact flushFree_pure _

theorem flushFree_insertLoop (key : Bytes) (value : RecordID) : ∀ (fuel : Nat)
    (visited : List PageId) (current firstPageWithSpace lastPageId : PageId),
    (insertLoop key value fuel visited current firstPageWithSpace lastPageId).FlushFree := by
  intro fuel
  induction fuel with
  | zero => exact fun _ _ _ _ => trivial
  | succ fuel ih =>
    intro visited current firstPageWithSpace lastPageId
    rw [insertLoop]
    refine flushFree_ite (flushFree_pure _) (flushFree_ite (flushFree_pure _) ?_)
    refine flushFree_fetchPage (flushFree_pure _) fun f d => ?_
    refine flushFree_ite (flushFree_unpinPage (flushFree_pure _) (flushFree_pure _)) ?_
    cases HashIndexBucketPage.getValue (Page.view current d) key with
    | error e =>
      refine flushFree_ite (flushFree_unpinPage (flushFree_pure _) (flushFree_pure _)) ?_
      exact flushFree_unpinPage (flushFree_pure _) (ih _ _ _ _)
    | ok values =>
      exact flushFree_unpinPage (flushFree_pure _) (flushFree_ite (flushFree_pure _) (ih _ _ _ _))

theorem flushFree_insertIntoPage (pageId : PageId) (key : Bytes) (value : RecordID) :
    (insertIntoPage pageId key value).FlushFree := by
  unfold insertIntoPage
  refine flushFree_fetchPage (flushFree_pure _) fun f d => ?_
  dsimp only
  apply flushFree_writePage
  cases (HashIndexBucketPage.insert (Page.view pageId d) key value).1 with
  | error e => exact flushFree_unpinPage (flushFree_pure _) (flushFree_pure _)
  | ok inserted => exact flushFree_unpinPage (flushFree_pure _) (flushFree_pure _)

theorem flushFree_link (r : Except Status PageId) {link : PageId → Program (Except Status Unit)}
    (h : ∀ p, (link p).FlushFree) : (match r with
      | .error e => pure (.error e)
      | .ok p => link p : Program (Except Status Unit)).FlushFree := by
  cases r with
  | error e => exact flushFree_pure _
  | ok p => exact h p

theorem flushFree_insert (header : PageId) (key : Bytes) (value : RecordID) :
    (insert header key value).FlushFree := by
  unfold insert
  refine flushFree_ite (flushFree_pure _) (flushFree_ite (flushFree_pure _) ?_)
  refine flushFree_bind (flushFree_getBucketPageId header key) fun r => ?_
  rcases r with e | ⟨bucketIndex, bucketPageId⟩
  · exact flushFree_pure _
  apply flushFree_ite
  · exact flushFree_bind (flushFree_newBucket key value _ _) fun r =>
      flushFree_link r fun p => flushFree_linkBucket _ p _ _ _
  refine flushFree_bind (flushFree_insertLoop key value _ _ _ _ _) fun r => ?_
  rcases r with e | _ | ⟨firstPageWithSpace, lastPageId⟩
  · exact flushFree_pure _
  · exact flushFree_pure _
  refine flushFree_ite (flushFree_insertIntoPage _ _ _) (flushFree_ite (flushFree_pure _) ?_)
  exact flushFree_bind (flushFree_newBucket key value _ _) fun r =>
    flushFree_link r fun p => flushFree_linkBucket _ p _ _ _

theorem flushFree_destroyChain : ∀ (fuel : Nat) (visited : List PageId) (current : PageId),
    (destroyChain fuel visited current).FlushFree := by
  intro fuel
  induction fuel with
  | zero => exact fun _ _ => trivial
  | succ fuel ih =>
    intro visited current
    rw [destroyChain]
    refine flushFree_ite (flushFree_pure _) (flushFree_ite (flushFree_pure _) ?_)
    refine flushFree_fetchPage (flushFree_pure _) fun f d => ?_
    refine flushFree_ite (flushFree_unpinPage (flushFree_pure _) (flushFree_pure _)) ?_
    exact flushFree_unpinPage (flushFree_pure _) (flushFree_deletePage (flushFree_pure _) (ih _ _))

theorem flushFree_destroyChains : ∀ primaries visited : List PageId,
    (destroyChains primaries visited).FlushFree := by
  intro primaries
  induction primaries with
  | nil => exact fun _ => flushFree_pure _
  | cons p primaries ih =>
    intro visited
    refine flushFree_bind (flushFree_destroyChain _ _ _) fun r => ?_
    cases r with
    | error e => exact flushFree_pure _
    | ok visited => exact ih visited

theorem flushFree_destroy (header : PageId) : (destroy header).FlushFree := by
  unfold destroy
  refine flushFree_ite (flushFree_pure _) (flushFree_fetchPage (flushFree_pure _) fun f d => ?_)
  refine flushFree_ite (flushFree_unpinPage (flushFree_pure _) (flushFree_pure _)) ?_
  refine flushFree_unpinPage (flushFree_pure _) ?_
  dsimp only
  cases primaryBuckets (Page.view header d)
    (HashIndexHeaderPage.getBucketCount (Page.view header d)) 0 with
  | error e => exact flushFree_pure _
  | ok primaries =>
  refine flushFree_bind (flushFree_destroyChains primaries []) fun r => ?_
  cases r with
  | error e => exact flushFree_pure _
  | ok => exact flushFree_deletePage (flushFree_pure _) (flushFree_pure _)

end HashIndex

namespace QueryExecutor

theorem flushFree_loadIndexLoop (schema : Schema) (columnIndex : Nat) (index firstPageId : PageId) :
    ∀ (fuel : Nat) (s : SeqScanState),
      (loadIndexLoop schema columnIndex index firstPageId fuel s).FlushFree := by
  intro fuel
  induction fuel with
  | zero => exact fun _ => trivial
  | succ fuel ih =>
    intro s
    refine flushFree_bind (SeqScanOperator.flushFree_next firstPageId s) fun r => ?_
    rcases r with ⟨_ | record, s'⟩
    · exact flushFree_pure _
    dsimp only
    cases RecordCodec.getValue schema record.data columnIndex with
    | error e => exact flushFree_pure _
    | ok value =>
      refine flushFree_ite (ih _) ?_
      cases IndexKey.encode value with
      | error e => exact flushFree_pure _
      | ok encodedKey =>
        refine flushFree_bind (HashIndex.flushFree_insert index encodedKey record.rid) fun r => ?_
        cases r with
        | error e => exact flushFree_pure _
        | ok => exact ih _

end QueryExecutor

/-! ## Publication -/

variable {w v : BufferPoolManager}

namespace CatalogManager

/-- When `Persist` writes page 0, the page shows the new catalog, and since the call began only the
fetch of page 0 has written to the disk. -/
theorem persist_trace (hw : w.Coherent) {catalog : CatalogManager} {q : PageId}
    (hv : (.flushPage q, v) ∈ (persist catalog).trace w) :
    q = headerPageId ∧ ∃ serialized f, serialize catalog = .ok serialized ∧
      (w.fetchPage headerPageId).1 = some f ∧ v.image headerPageId = published serialized ∧
      (∀ x, v.frameOf x = (w.fetchPage headerPageId).2.frameOf x) ∧
      v.disk = (w.fetchPage headerPageId).2.disk ∧ ∀ x, x ≠ headerPageId →
      v.image x = w.image x := by
  unfold persist at hv
  cases hs : serialize catalog with
  | error e =>
    rw [hs] at hv
    cases hv
  | ok serialized =>
    rw [hs] at hv
    dsimp only at hv
    rw [trace_fetchPage] at hv
    have hin := (List.mem_cons.mp hv).resolve_left nofun
    rcases hf : w.fetchPage headerPageId with ⟨_ | f, w₁⟩
    · rw [hf] at hin
      cases hin
    rw [hf] at hin
    obtain ⟨hkeep, hsome⟩ := hw.fetchPage headerPageId headerPageId
    rw [hf] at hkeep hsome
    obtain ⟨hframe, -, hpin⟩ := hsome f rfl
    obtain ⟨u, hun, hu, hframe', hdata, -, hdisk, hframes, himages⟩ :=
      hkeep.coherent.overwrite hframe hpin (published serialized) false
    dsimp only at hin
    rw [trace_putPage, trace_unpinPage, if_neg (by decide)] at hin
    have hrest := (List.mem_cons.mp hin).resolve_left nofun
    rw [show (w₁.writeBytes f (Image.zero.splice 0 serialized)).unpinPage headerPageId true = _ from
      hun, trace_flushPage] at hrest
    rcases List.mem_cons.mp hrest with he | hrest
    · cases he
      refine ⟨rfl, serialized, f, rfl, rfl, ?_, hframes, hdisk, fun x hx => ?_⟩
      · rw [image_of_frameOf hframe', hdata]
      · rw [himages x hx]
        have hkeep' := (hw.fetchPage headerPageId x).1
        rw [hf] at hkeep'
        exact hkeep'.image
    · split at hrest
      · cases hrest
      · cases hrest

theorem Change.flushFree_undo (catalog : CatalogManager) (e : Status) (call : Change) :
    (call.undo catalog e).FlushFree := by
  cases call with
  | createTable => exact flushFree_pure _
  | createIndex _ _ _ index =>
    refine flushFree_bind (HashIndex.flushFree_destroy index) fun r => ?_
    cases r with
    | error e' => exact flushFree_pure _
    | ok => exact flushFree_pure _

/-- The only page that `CreateTable` and `CreateIndex` flush is page 0, with the new catalog. -/
theorem Change.exec_trace (call : Change) (hw : w.Coherent) {catalog : CatalogManager} {q : PageId}
    (hv : (.flushPage q, v) ∈ (call.exec catalog).trace w) :
    q = headerPageId ∧ ∃ changed serialized f, call.Accepts catalog changed ∧
      serialize changed = .ok serialized ∧
      (w.fetchPage headerPageId).1 = some f ∧ v.image headerPageId = published serialized ∧
      (∀ x, v.frameOf x = (w.fetchPage headerPageId).2.frameOf x) ∧
      v.disk = (w.fetchPage headerPageId).2.disk ∧ ∀ x, x ≠ headerPageId →
      v.image x = w.image x := by
  by_cases hacc : ∃ changed, call.Accepts catalog changed
  · obtain ⟨changed, hacc⟩ := hacc
    rw [exec_accepted hacc, trace_bind] at hv
    rcases List.mem_append.mp hv with hv | hv
    · obtain ⟨hq, serialized, f, h⟩ := persist_trace hw hv
      exact ⟨hq, changed, serialized, f, hacc, h⟩
    · exfalso
      revert hv
      rcases Program.run (persist changed) w with _ | ⟨e | _, w'⟩
      · exact nofun
      · exact (not_mem_trace_of_flushFree (flushFree_undo catalog e call) w' v).1 q
      · exact nofun
  · obtain ⟨e, hexec⟩ := exec_rejected fun changed hc => hacc ⟨changed, hc⟩
    rw [hexec] at hv
    cases hv

end CatalogManager

namespace QueryExecutor

/-- The bytes of an empty table page. -/
def tablePage (p : PageId) : PageData := (SlottedPage.init (Page.view p Image.zero)).2.data

theorem init_table (p : PageId) (hp : 0 < p.toInt) : SlottedPage.init (Page.view p Image.zero) =
    (.ok (), { Page.view p Image.zero with data := tablePage p, isDirty := true }) := by
  have hid : (Page.view p Image.zero).pageId ≠ invalidPageId := by
    rintro rfl
    exact absurd hp (by decide)
  unfold tablePage SlottedPage.init
  rw [if_neg hid]

/-- The end of the creation of a table page, after it was flushed. -/
def flushedTablePage (p : PageId) (flushed : Bool) : Program (Except Status PageId) :=
  match flushed with
  | true => pure (.ok p)
  | _ => do
    let _ ← PagedProgram.deletePage p
    return .error (.ioError "Could not persist the first table page")

/-- With a new page in hand, `newTablePage` initializes, unpins and flushes it. -/
theorem newTablePage_steps {p : PageId} {f : FrameId} {w₁ u : BufferPoolManager} (hp : 0 < p.toInt)
    (he : w.newPage = (some (p, f), w₁)) (hzero : (w₁.pages f).data = Image.zero)
    (hun : ((w₁.writeBytes f (tablePage p)).setDirty f).unpinPage p true = (true, u)) :
    newTablePage.run w = (flushedTablePage p (u.flushPage p).1).run (u.flushPage p).2 ∧
      newTablePage.trace w = (.newPage, w) ::
        (.unpinPage p true, (w₁.writeBytes f (tablePage p)).setDirty f) :: (.flushPage p, u) ::
          (flushedTablePage p (u.flushPage p).1).trace (u.flushPage p).2 := by
  have hmark : Program.writePage f
      { Page.view p Image.zero with data := tablePage p, isDirty := true } =
        putPage f (tablePage p) true := rfl
  unfold newTablePage
  constructor
  · rw [run_bind, PagedProgram.newPage, Program.run, he]
    dsimp only
    rw [Program.run, Option.bind_some, hzero]
    dsimp only
    rw [init_table p hp]
    dsimp only
    rw [hmark, run_bind, PagedProgram.putPage, Program.run, Program.run,
      Option.bind_some, if_pos rfl, run_bind, PagedProgram.unpinPage, Program.run]
    dsimp only [Except.isOk, Except.toBool]
    rw [hun]
    dsimp only
    rw [Program.run, Option.bind_some]
    dsimp only
    rw [run_bind, PagedProgram.flushPage, Program.run]
    rcases u.flushPage p with ⟨_ | _, v⟩ <;> rfl
  · rw [trace_newPage, he]
    dsimp only
    rw [hzero, init_table p hp]
    dsimp only
    rw [hmark, trace_putPage, trace_unpinPage, if_pos rfl]
    dsimp only [Except.isOk, Except.toBool]
    rw [hun]
    dsimp only
    rw [trace_flushPage]
    rcases u.flushPage p with ⟨_ | _, v⟩ <;> rfl

/-- The new page is not on the disk and the call fails, or it is on the disk as it is in the
pool. -/
theorem newTablePage_cases (hw : w.Coherent) (hsafe : newTablePage.Safe w) :
    ((∀ p w', newTablePage.run w ≠ some (.ok p, w')) ∧
        ∀ q v, (.flushPage q, v) ∈ newTablePage.trace w → 0 < q.toInt) ∨
      ∃ p w', newTablePage.run w = some (.ok p, w') ∧ w'.Coherent ∧ w'.image p = tablePage p ∧
        w'.disk.pages p = tablePage p ∧ 0 < p.toInt ∧
        ∀ q v, (.flushPage q, v) ∈ newTablePage.trace w → q = p ∧ (v.flushPage q).1 = true := by
  have hsafe : ¬ w.ReallocatesResident := by
    refine hsafe w ?_
    unfold newTablePage
    rw [trace_newPage]
    exact List.mem_cons_self
  have hcoherent := hw.newPage hsafe
  rcases newPage_cases hw.inv with ⟨p, f, d, w₁, he, hl, -, ha, -⟩ | ⟨w₁, he, -⟩
  · rw [he] at hcoherent
    have hframe : w₁.frameOf p = some f := by rw [hl.frameOf, if_pos rfl]
    have hpage := congrFun hl.pages f
    rw [Function.update_self] at hpage
    have hpin : 0 < (w₁.pages f).pinCount := by
      rw [hpage]
      exact Nat.one_pos
    obtain ⟨u, hun, hu, hframe', hdata, hdirty, -⟩ :=
      hcoherent.overwrite hframe hpin (tablePage p) true
    obtain ⟨hrun, htrace⟩ := newTablePage_steps ha.pos he (by rw [hpage]) hun
    have hflush := hu.flushPage_dirty hframe' hdirty
    have hkeep := hu.flushPage p p
    rw [hdata] at hflush
    -- the only page that is flushed is the new one
    have hmem : ∀ q v, (.flushPage q, v) ∈ newTablePage.trace w → q = p ∧ v = u := by
      intro q v hv
      rw [htrace] at hv
      rcases List.mem_cons.mp hv with he | hv
      · cases he
      rcases List.mem_cons.mp hv with he | hv
      · cases he
      rcases List.mem_cons.mp hv with he | hv
      · cases he
        exact ⟨rfl, rfl⟩
      · revert hv
        cases (u.flushPage p).1 with
        | true =>
          intro hv
          cases hv
        | false =>
          intro hv
          rcases List.mem_cons.mp hv with he | hv
          · cases he
          · cases hv
    rw [hrun]
    split at hflush
    · rw [hflush.1]
      refine .inl ⟨(fun p' w' he => by cases he), fun q v hv => ?_⟩
      rw [(hmem q v hv).1]
      exact ha.pos
    · rw [hflush.1]
      refine .inr ⟨p, _, rfl, hkeep.coherent, ?_, hflush.2, ha.pos, fun q v hv => ?_⟩
      · rw [hkeep.image, image_of_frameOf hframe', hdata]
      · obtain ⟨rfl, rfl⟩ := hmem q v hv
        exact ⟨rfl, hflush.1⟩
  · unfold newTablePage
    rw [trace_newPage, run_bind, PagedProgram.newPage, Program.run, he]
    refine .inl ⟨(fun p' w' he => by cases he), fun q v hv => ?_⟩
    rcases List.mem_cons.mp hv with he | hv
    · cases he
    · cases hv

/-- What follows a call of `CreateTable` of the catalog. -/
theorem flushFree_cleanup (p : PageId) (r : Except Status Unit × CatalogManager) : (match r with
    | (.ok (), catalog) => pure (.ok (), catalog)
    | (.error e, catalog) => do
      let .true ← PagedProgram.deletePage p
        | return (.error ⟨.ioError, str "CREATE TABLE failed: " ++ e.msg ++
            str "; allocated page cleanup failed"⟩, catalog)
      return (.error e, catalog) :
    Program (Except Status Unit × CatalogManager)).FlushFree := by
  obtain ⟨e | _, c⟩ := r
  · exact flushFree_deletePage (flushFree_pure _) (flushFree_pure _)
  · exact flushFree_pure _

/-- When page 0 is written, the first page of the new table is on the disk. -/
theorem executeCreateTable_order (hw : w.Coherent) {catalog : CatalogManager}
    {create : CreateTableStatement} (hsafe : (executeCreateTable catalog create).Safe w)
    (hv : (.flushPage headerPageId, v) ∈ (executeCreateTable catalog create).trace w) :
    (∃ schema p serialized, CatalogManager.serialize { catalog with
          tables := catalog.tables.insert create.tableName ⟨create.tableName, schema, p⟩ } =
            .ok serialized ∧
        v.image headerPageId = CatalogManager.published serialized ∧
        v.image p = tablePage p ∧ v.disk.pages p = v.image p) ∧
      ∀ q u, (.flushPage q, u) ∈ (executeCreateTable catalog create).trace w →
        q ≠ headerPageId → (u.flushPage q).1 = true := by
  unfold executeCreateTable at hv hsafe ⊢
  split at hv
  · cases hv
  rename_i hname
  rw [if_neg hname] at hsafe ⊢
  split at hv
  · cases hv
  rename_i hnew
  rw [if_neg hnew] at hsafe ⊢
  cases hcolumns : makeColumns [] create.columns with
  | error e =>
    rw [hcolumns] at hv
    cases hv
  | ok schema =>
    rw [hcolumns] at hv hsafe
    dsimp only at hv hsafe ⊢
    unfold Program.Safe at hsafe
    rw [trace_bind] at hv hsafe ⊢
    rcases newTablePage_cases hw fun v hv => hsafe v (List.mem_append_left _ hv) with
      ⟨hfail, hpos⟩ | ⟨p, w', hrun, hw', himage, hdisk, hp, hflush⟩
    · exfalso
      rcases List.mem_append.mp hv with hv | hv
      · exact absurd (hpos _ _ hv) (by decide)
      · revert hv
        rcases hrun : newTablePage.run w with _ | ⟨e | p, w'⟩
        · exact nofun
        · exact nofun
        · exact absurd hrun (hfail p w')
    · rw [hrun] at hv ⊢
      dsimp only at hv ⊢
      -- after the page was created, only `CreateTable` of the catalog flushes
      have hclean := flushFree_cleanup p
      constructor
      · have hv := (List.mem_append.mp hv).resolve_left fun hv => by
          obtain ⟨hq, -⟩ := hflush _ _ hv
          rw [← hq] at hp
          exact absurd hp (by decide)
        obtain ⟨-, changed, serialized, f, hacc, hser, hf, hzero, hframes, hvd, himages⟩ :=
          CatalogManager.Change.exec_trace (.createTable create.tableName schema p) hw'
            (mem_trace_of_flushFree hclean hv)
        obtain ⟨-, -, -, -, -, rfl⟩ := hacc
        have hp0 : p ≠ headerPageId := by
          rintro rfl
          exact absurd hp (by decide)
        refine ⟨schema, p, serialized, hser, hzero, (himages p hp0).trans himage, ?_⟩
        rw [himages p hp0, himage, hvd]
        rcases (hw'.fetchPage headerPageId p).1.disk with hd | hd
        · rw [hd, hdisk]
        · rw [hd, himage]
      · intro q u hu hq
        rcases List.mem_append.mp hu with hu | hu
        · exact (hflush q u hu).2
        · exact absurd (CatalogManager.Change.exec_trace
            (.createTable create.tableName schema p) hw' (mem_trace_of_flushFree hclean hu)).1 hq

/-- Between `FlushAllPages` and the write of page 0 only `Persist` fetches page 0. -/
theorem createIndex_order {u : BufferPoolManager} (hu : u.Coherent) {catalog : CatalogManager}
    {indexName tableName columnName : Bytes} {index : PageId}
    (hv : (.flushPage headerPageId, v) ∈
      (catalog.createIndex indexName tableName columnName index).trace u.flushAllPages) :
    (∃ serialized, CatalogManager.serialize { catalog with
          indexNames := catalog.indexNames.insert indexName
            (CatalogManager.makeIndexKey tableName columnName)
          indexes := catalog.indexes.insert (CatalogManager.makeIndexKey tableName columnName)
            ⟨indexName, tableName, columnName, index⟩ } = .ok serialized ∧
        v.image headerPageId = CatalogManager.published serialized) ∧
      ∀ q, q ≠ headerPageId → v.image q = u.image q ∧
        (v.disk.pages q = v.image q ↔
          ¬ (u.FlushFails q ∧ u.disk.pages q ≠ u.image q ∧ v.frameOf q ≠ none)) := by
  have hflushed : u.flushAllPages.Coherent := (hu.flushAllPages headerPageId).coherent
  obtain ⟨-, changed, serialized, f, hacc, hser, hf, hzero, hframes, hdisk, himages⟩ :=
    CatalogManager.Change.exec_trace (.createIndex indexName tableName columnName index)
      hflushed hv
  obtain ⟨-, -, -, -, -, rfl⟩ := hacc
  refine ⟨⟨serialized, hser, hzero⟩, fun q hq => ?_⟩
  have himage : v.image q = u.image q := (himages q hq).trans (hu.flushAllPages q).image
  obtain ⟨hwritten, hlost⟩ := flushAllPages_disk hu q
  refine ⟨himage, ?_⟩
  cases hres : v.frameOf q with
  | none =>
    rw [image_of_none hres]
    exact ⟨fun _ h => h.2.2 rfl, fun _ => rfl⟩
  | some g =>
    have hsame : v.disk.pages q = u.flushAllPages.disk.pages q := by
      rw [hdisk]
      exact fetchPage_disk_of_resident hflushed.inv hq hf ((hframes q).symm.trans hres)
    rw [himage, hsame]
    by_cases hfail : u.FlushFails q
    · rw [hlost hfail]
      exact ⟨fun he h => h.2.1 he, fun h => by_contra fun hne => h ⟨hfail, hne, nofun⟩⟩
    · rw [hwritten hfail]
      exact ⟨fun _ h => hfail h.1, fun _ => rfl⟩

/-- When page 0 is written, the disk has the pages of the new index as they are in the pool, but for
those that `FlushAllPages` failed to write. -/
theorem executeCreateIndex_order (hw : w.Coherent) {catalog : CatalogManager}
    {create : CreateIndexStatement} (hsafe : (executeCreateIndex catalog create).Safe w)
    (hv : (.flushPage headerPageId, v) ∈ (executeCreateIndex catalog create).trace w) :
    ∃ index u, (.flushAllPages, u) ∈ (executeCreateIndex catalog create).trace w ∧
      (∃ serialized, CatalogManager.serialize { catalog with
          indexNames := catalog.indexNames.insert create.indexName
            (CatalogManager.makeIndexKey create.tableName create.columnName)
          indexes := catalog.indexes.insert
            (CatalogManager.makeIndexKey create.tableName create.columnName)
            ⟨create.indexName, create.tableName, create.columnName, index⟩ } = .ok serialized ∧
        v.image headerPageId = CatalogManager.published serialized) ∧
      ∀ q, q ≠ headerPageId → v.image q = u.image q ∧
        (v.disk.pages q = v.image q ↔
          ¬ (u.FlushFails q ∧ u.disk.pages q ≠ u.image q ∧ v.frameOf q ≠ none)) := by
  unfold executeCreateIndex at hv hsafe ⊢
  split at hv
  · cases hv
  rename_i hindex
  rw [if_neg hindex] at hsafe ⊢
  split at hv
  · cases hv
  rename_i hname
  rw [if_neg hname] at hsafe ⊢
  dsimp only at hv hsafe ⊢
  split at hv
  · cases hv
  rename_i schema firstPageId columnIndex htarget
  rw [htarget] at hsafe
  dsimp only at hsafe
  unfold Program.Safe at hsafe
  rw [trace_bind] at hv hsafe ⊢
  have hcreate := (Disciplined.steady (HashIndex.disciplined_create HashIndex.defaultBucketCount)
    (.start hw.inv) fun v hv => hsafe v (List.mem_append_left _ hv)).2
  have hv := (List.mem_append.mp hv).resolve_left
    ((not_mem_trace_of_flushFree (HashIndex.flushFree_create _) w v).1 _)
  have hsafe := fun v hv => hsafe v (List.mem_append_right _ hv)
  rcases hrun : (HashIndex.create HashIndex.defaultBucketCount).run w with _ | ⟨e | index, w₁⟩
  · rw [hrun] at hv
    cases hv
  · rw [hrun] at hv
    cases hv
  rw [hrun] at hv hsafe
  dsimp only at hv hsafe ⊢
  have hw₁ := (hcreate _ _ hrun).coherent hw
  rw [trace_bind] at hv hsafe ⊢
  have hload := (Disciplined.steady (disciplined_loadIndexLoop schema columnIndex index firstPageId
    scanFuel {}) (.start hw₁.inv) fun v hv => hsafe v (List.mem_append_left _ hv)).2
  have hv := (List.mem_append.mp hv).resolve_left
    ((not_mem_trace_of_flushFree (flushFree_loadIndexLoop _ _ _ _ _ _) w₁ v).1 _)
  rcases hrun' : (loadIndexLoop schema columnIndex index firstPageId scanFuel {}).run w₁ with
    _ | ⟨e | _, u⟩
  · rw [hrun'] at hv
    cases hv
  · rw [hrun'] at hv
    have hfree : (destroyIndexAfterFailure index e >>= fun e =>
        pure (.error e, catalog) : Program (Except Status Unit × CatalogManager)).FlushFree := by
      refine flushFree_bind (flushFree_bind (HashIndex.flushFree_destroy index) fun r => ?_)
        fun _ => flushFree_pure _
      cases r with
      | error e' => exact flushFree_pure _
      | ok => exact flushFree_pure _
    exact absurd hv ((not_mem_trace_of_flushFree hfree u v).1 _)
  rw [hrun'] at hv
  dsimp only at hv ⊢
  rw [trace_flushAllPages] at hv ⊢
  have hv := (List.mem_cons.mp hv).resolve_left nofun
  obtain ⟨hpublished, hpages⟩ := createIndex_order ((hload _ _ hrun').coherent hw₁) hv
  exact ⟨index, u, List.mem_append_right _ (List.mem_append_right _ List.mem_cons_self), hpublished,
    hpages⟩

theorem trace_map {α β : Type} (x : Program α) (g : α → β) (w : BufferPoolManager) :
    (x >>= fun a => pure (g a)).trace w = x.trace w := by
  rw [trace_bind]
  rcases x.run w with _ | ⟨a, w'⟩
  · exact List.append_nil _
  · exact List.append_nil _

theorem trace_execute_createTable {catalog : CatalogManager}
    (hok : catalog.initializationStatus = .ok ())
    (create : CreateTableStatement) (w : BufferPoolManager) :
    (execute catalog (.createTable create)).trace w =
      (executeCreateTable catalog create).trace w := by
  unfold execute
  rw [hok]
  exact trace_map _ _ w

theorem trace_execute_createIndex {catalog : CatalogManager}
    (hok : catalog.initializationStatus = .ok ())
    (create : CreateIndexStatement) (w : BufferPoolManager) :
    (execute catalog (.createIndex create)).trace w =
      (executeCreateIndex catalog create).trace w := by
  unfold execute
  rw [hok]
  exact trace_map _ _ w

end QueryExecutor

/-! ## Runs of diligent clients -/

/-- A pool that is reached from a new one, with any disk below it: clients call the pool, write to
pages and mark them, and call public operations, and no `NewPage` hands out the id of a page that
stays in another frame. -/
inductive DiligentlyReached : BufferPoolManager → Prop where
  | start {n : Nat} (hn : 0 < n) (d : DiskManager) : DiligentlyReached (new n d)
  | call {w : BufferPoolManager} (hw : DiligentlyReached w) {c : PoolCall} (hc : w.CallSafe c) :
      DiligentlyReached (w.call c)
  | write {w : BufferPoolManager} (hw : DiligentlyReached w) {p : PageId} {f : FrameId}
      (hp : w.frameOf p = some f) (d : PageData) :
      DiligentlyReached ((w.writeBytes f d).setDirty f)
  | operation {w w' : BufferPoolManager} (hw : DiligentlyReached w) {α : Type}
    {x : Program α} {a : α}
      (hx : PublicOperation x) (hsafe : x.Safe w) (hrun : x.run w = some (a, w')) :
      DiligentlyReached w'

theorem BufferPoolManager.Coherent.call {w : BufferPoolManager} (hw : w.Coherent) {c : PoolCall}
    (hc : w.CallSafe c) : (w.call c).Coherent := by
  cases c with
  | fetchPage p => exact (hw.fetchPage p p).1.coherent
  | newPage => exact hw.newPage (hc rfl)
  | unpinPage p dirty => exact (hw.unpinPage p dirty p).coherent
  | deletePage p => exact (hw.deletePage p headerPageId (by decide)).coherent
  | flushPage p => exact (hw.flushPage p p).coherent
  | flushAllPages => exact (hw.flushAllPages headerPageId).coherent

theorem DiligentlyReached.coherent {w : BufferPoolManager} (h : DiligentlyReached w) :
    w.Coherent := by
  induction h with
  | start hn d => exact new_coherent hn d
  | call hw hc ih => exact ih.call hc
  | @write w hw p f hp d ih =>
    have ht := touches_setFrame ih.inv hp { w.pages f with data := d, isDirty := true } rfl rfl
    have hput : (w.writeBytes f d).setDirty f =
        w.setFrame f { w.pages f with data := d, isDirty := true } := by
      simp [writeBytes, setDirty, setFrame]
    rw [hput]
    refine ⟨ht.poolInv ih.inv, fun {x g} hx hclean => ?_⟩
    rw [ht.pages] at hclean ⊢
    by_cases hg : g = f
    · rw [hg, Function.update_self] at hclean
      cases hclean
    · rw [Function.update_of_ne hg] at hclean ⊢
      exact ih.clean ((ht.frameOf x).symm.trans hx) hclean
  | operation hw hx hsafe hrun ih =>
    exact ((Disciplined.steady hx.disciplined (.start ih.inv) hsafe).2 _ _ hrun).coherent ih

namespace QueryExecutor

/-- At the write of page 0 by a CREATE TABLE the first page of the table is on the disk, and every
earlier `FlushPage` has succeeded. At the write by a CREATE INDEX each page is on the disk as it is
in the pool, unless `FlushAllPages` failed to write it, the disk had other bytes, and the page is
still in the pool. -/
theorem ddl_order (hw : DiligentlyReached w) {catalog : CatalogManager} {statement : SQLStatement}
    (hsafe : (execute catalog statement).Safe w)
    (hv : (.flushPage headerPageId, v) ∈ (execute catalog statement).trace w) :
    match statement with
    | .createTable create =>
      (∃ schema p serialized, CatalogManager.serialize { catalog with
            tables := catalog.tables.insert create.tableName ⟨create.tableName, schema, p⟩ } =
              .ok serialized ∧
          v.image headerPageId = CatalogManager.published serialized ∧
          v.image p = tablePage p ∧ v.disk.pages p = v.image p) ∧
        ∀ q u, (.flushPage q, u) ∈ (execute catalog statement).trace w → q ≠ headerPageId →
          (u.flushPage q).1 = true
    | .createIndex create =>
      ∃ index u, (.flushAllPages, u) ∈ (execute catalog statement).trace w ∧
        (∃ serialized, CatalogManager.serialize { catalog with
            indexNames := catalog.indexNames.insert create.indexName
              (CatalogManager.makeIndexKey create.tableName create.columnName)
            indexes := catalog.indexes.insert
              (CatalogManager.makeIndexKey create.tableName create.columnName)
              ⟨create.indexName, create.tableName, create.columnName, index⟩ } = .ok serialized ∧
          v.image headerPageId = CatalogManager.published serialized) ∧
        ∀ q, q ≠ headerPageId → v.image q = u.image q ∧
          (v.disk.pages q = v.image q ↔
            ¬ (u.FlushFails q ∧ u.disk.pages q ≠ u.image q ∧ v.frameOf q ≠ none))
    | _ => True := by
  cases hstatus : catalog.initializationStatus with
  | error e =>
    unfold execute at hv
    rw [hstatus] at hv
    cases hv
  | ok =>
    unfold Program.Safe at hsafe
    cases statement with
    | createTable create =>
      rw [trace_execute_createTable hstatus] at hv hsafe
      dsimp only
      rw [trace_execute_createTable hstatus]
      exact executeCreateTable_order hw.coherent hsafe hv
    | createIndex create =>
      rw [trace_execute_createIndex hstatus] at hv hsafe
      dsimp only
      rw [trace_execute_createIndex hstatus]
      exact executeCreateIndex_order hw.coherent hsafe hv
    | select => trivial
    | insert => trivial
    | update => trivial
    | delete => trivial

def createUsers : SQLStatement := .createTable ⟨[117], [⟨[105], str "INT", 0⟩]⟩

def indexUsers : SQLStatement := .createIndex ⟨[120], [117], [105]⟩

theorem ddl_order_users :
    DiligentlyReached (new 3 (DiskManager.newFile DiskFaults.none)) ∧
      (execute {} createUsers).Safe (new 3 (DiskManager.newFile DiskFaults.none)) ∧
      ∃ v, (.flushPage headerPageId, v) ∈
          (execute {} createUsers).trace (new 3 (DiskManager.newFile DiskFaults.none)) ∧
        ∃ p, v.disk.pages p = v.image p := by
  have hreached : DiligentlyReached (new 3 (DiskManager.newFile DiskFaults.none)) :=
    .start (by decide) _
  have hsafe : (execute {} createUsers).Safe (new 3 (DiskManager.newFile DiskFaults.none)) :=
    safe_of_fresh (by decide +kernel)
  have hflush : ∃ c ∈ (execute {} createUsers).trace (new 3 (DiskManager.newFile DiskFaults.none)),
      c.1 = .flushPage headerPageId := by decide +kernel
  obtain ⟨⟨c, v⟩, hv, hc⟩ := hflush
  obtain rfl : c = .flushPage headerPageId := hc
  obtain ⟨⟨schema, p, serialized, -, -, -, hdisk⟩, -⟩ := ddl_order hreached hsafe hv
  exact ⟨hreached, hsafe, v, hv, p, hdisk⟩

/-- The pool and the catalog after CREATE TABLE, on a disk whose access number 6 fails. -/
def afterCreateUsers :
    Option ((Except Status Unit × QueryResult × CatalogManager) × BufferPoolManager) :=
  (execute {} createUsers).run (new 3 (DiskManager.newFile (CatalogManager.Change.writeFault 6)))

/-- `FlushAllPages` fails to write the header page of the new index, and CREATE INDEX publishes the
index all the same. -/
theorem createIndex_publishes_unwritten : ∃ result catalog w,
    afterCreateUsers = some ((.ok (), result, catalog), w) ∧
      ∃ result' catalog' w', (execute catalog indexUsers).run w =
        some ((.ok (), result', catalog'), w') ∧
        (catalog'.indexes.lookup (CatalogManager.makeIndexKey [117] [105])).map
          IndexMetadata.headerPageId = some 2 ∧
        ∃ v, (.flushPage headerPageId, v) ∈ (execute catalog indexUsers).trace w ∧
          v.disk.pages 2 ≠ v.image 2 := by
  have hval : (afterCreateUsers.map fun r => (r.1.1,
      ((execute r.1.2.2 indexUsers).run r.2).map fun r' => (r'.1.1,
        (r'.1.2.2.indexes.lookup (CatalogManager.makeIndexKey [117] [105])).map
          IndexMetadata.headerPageId),
      ((execute r.1.2.2 indexUsers).trace r.2).any fun c => c.1 = .flushPage headerPageId ∧
        (c.2.disk.pages 2).readNat 0 4 ≠ (c.2.image 2).readNat 0 4)) =
      some (.ok (), some (.ok (), some 2), true) := by decide +kernel
  obtain ⟨⟨⟨status, result, catalog⟩, w⟩, hrun, hr⟩ := Option.map_eq_some_iff.mp hval
  simp only [Prod.mk.injEq] at hr
  obtain ⟨rfl, hrun', htrace⟩ := hr
  obtain ⟨⟨⟨status', result', catalog'⟩, w'⟩, hrun', hr'⟩ := Option.map_eq_some_iff.mp hrun'
  simp only [Prod.mk.injEq] at hr'
  obtain ⟨rfl, hindex⟩ := hr'
  obtain ⟨⟨c, v⟩, hv, hc⟩ := List.any_eq_true.mp htrace
  obtain ⟨rfl, hne⟩ : c = .flushPage headerPageId ∧
      (v.disk.pages 2).readNat 0 4 ≠ (v.image 2).readNat 0 4 := by simpa using hc
  exact ⟨result, catalog, w, hrun, result', catalog', w', hrun', hindex, v, hv,
    fun he => hne (by rw [he])⟩

end QueryExecutor

end MiniDbms
