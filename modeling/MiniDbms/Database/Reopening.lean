import MiniDbms.Buffer.FreePages
import MiniDbms.Catalog.CatalogFailures
import MiniDbms.Catalog.CatalogNormal
import MiniDbms.Database.Publication
import MiniDbms.Database.TableRuns

/-!
# Closing and opening a database

The destructor of the pool writes the pages back, and the next constructors read the file and page 0
again. A consistent database comes back with the same catalog, up to the order of its entries, and
the same contents (`DatabaseState.reopen`): every page in use has a byte that is not zero
(`DatabaseHolds.noneBlank`), and nothing depends on the order of the catalog
(`DatabaseState.of_same`).
-/

namespace MiniDbms

open Lib PagedProgram Program BufferPoolManager HashIndex HeapFile StringMap CatalogManager

section

variable {h h' : Pages} {catalog catalog' : CatalogManager} {d : PageData} {c : Contents}

/-! ## No page in use is blank -/

theorem SlottedPage.Stores.ne_zero {data : PageData} {q next : PageId} {slots : List (Option Bytes)}
    (hs : SlottedPage.Stores data q next slots) (hq : 0 < q.toInt) : data ≠ Image.zero := by
  intro hzero
  have hid : PageData.readPageId Image.zero 0 = q := hzero ▸ hs.pageId
  have hread : PageData.readPageId Image.zero 0 = 0 := by
    rw [PageData.readPageId, Image.readNat_zero]
    rfl
  rw [← hid, hread] at hq
  exact absurd hq (by decide)

/-- A page with a magic number is not blank. -/
theorem ne_zero_of_magic {data : PageData} {magic : Nat} (h : data.readNat 0 4 = magic)
    (hmagic : magic ≠ 0) : data ≠ Image.zero := by
  intro hzero
  rw [hzero, Image.readNat_zero] at h
  exact hmagic h.symm

theorem HeapFile.HeapHolds.ne_zero {p q : PageId} {chain : Chain} (hh : HeapHolds h p chain)
    (hq : q ∈ chain.ids) {data : PageData} (hd : h.page q = some data) : data ≠ Image.zero := by
  obtain ⟨⟨_, slots⟩, hin, rfl⟩ := List.mem_map.mp hq
  obtain ⟨hpos, data', next, hd', hs⟩ := hh.holds.node_of_mem hin
  cases hd.symm.trans hd'
  exact SlottedPage.Stores.ne_zero hs hpos

theorem HashIndex.IndexHolds.ne_zero {x q : PageId} {b : Buckets} (hi : IndexHolds h x b)
    (hq : q ∈ b.pages x) {data : PageData} (hd : h.page q = some data) : data ≠ Image.zero := by
  obtain ⟨header, directory, hheader, hs, hchains⟩ := hi.directory
  rcases Buckets.mem_pages.mp hq with rfl | ⟨i, hlt, hq⟩
  · cases hd.symm.trans hheader
    exact ne_zero_of_magic hs.magic (by decide)
  · obtain ⟨⟨_, entries⟩, hin, rfl⟩ := List.mem_map.mp hq
    obtain ⟨-, data', next, hd', hs⟩ := (hchains i hlt).node_of_mem hin
    cases hd.symm.trans hd'
    exact ne_zero_of_magic hs.magic (by decide)

theorem DatabaseHolds.noneBlank (hd : DatabaseHolds h catalog d c) : NoneBlank h := by
  intro p data hpos hp
  obtain ⟨o, ho, hin⟩ := (hd.storage.owned.covers p).mp (by rw [hp]; exact Option.some_ne_none data)
  cases o with
  | catalog =>
    rw [List.mem_singleton.mp hin, toInt_headerPageId] at hpos
    exact absurd hpos (lt_irrefl 0)
  | table q => exact (hd.storage.heap q ho).ne_zero hin hp
  | index x => exact (hd.storage.index x ho).ne_zero hin hp

/-! ## The order of the catalog does not matter -/

theorem CatalogManager.WellFormed.of_same (hw : WellFormed catalog) (hs : Same catalog catalog') :
    WellFormed catalog' where
  status := hs.status.trans hw.status
  table ht := hw.table ((hs.tables _).symm.trans ht)
  index {key index} hi := by
    obtain ⟨hkey, hnames, hpos, hname, table, ht, hcolumn⟩ :=
      hw.index ((hs.indexes key).symm.trans hi)
    exact ⟨hkey, hnames, hpos, (hs.indexNames _).trans hname, table, (hs.tables _).trans ht,
      hcolumn⟩
  indexName {name key} hn := by
    obtain ⟨index, hi, hname⟩ := hw.indexName ((hs.indexNames name).symm.trans hn)
    exact ⟨index, (hs.indexes key).trans hi, hname⟩

theorem DatabaseHolds.of_same (hd : DatabaseHolds h catalog d c) (hs : Same catalog catalog') :
    DatabaseHolds h catalog' d c where
  wellFormed := hd.wellFormed.of_same hs
  storage := hd.storage.congr_parts rfl
    (fun p => by simp only [CatalogManager.parts, CatalogManager.IsFirstPage, hs.tables])
    (fun x => by simp only [CatalogManager.parts, CatalogManager.IsHeader, hs.indexes])
  firstPages ht ht' := hd.firstPages ((hs.tables _).symm.trans ht) ((hs.tables _).symm.trans ht')
  headers hi hi' := hd.headers ((hs.indexes _).symm.trans hi) ((hs.indexes _).symm.trans hi')
  serialized ht := hd.serialized ((hs.tables _).symm.trans ht)
  indexed hi ht := hd.indexed ((hs.indexes _).symm.trans hi) ((hs.tables _).symm.trans ht)

/-- A page 0 that is empty shows the empty catalog only in its empty form. -/
theorem CatalogManager.Shows.of_same (hd : Shows d catalog) (hs : Same catalog catalog')
    (hempty : d.readNat 0 4 = 0 → catalog' = {}) : Shows d catalog' := by
  rcases hd with ⟨hzero, rfl⟩ | ⟨serialized, hser, hd⟩
  · exact .inl ⟨hzero, hempty hzero⟩
  · exact .inr ⟨serialized, hs.serialize_eq.trans hser, hd⟩

theorem DatabaseState.of_same (hd : DatabaseState h catalog d c) (hs : Same catalog catalog')
    (hempty : d.readNat 0 4 = 0 → catalog' = {}) : DatabaseState h catalog' d c where
  toDatabaseHolds := hd.toDatabaseHolds.of_same hs
  shown := hd.shown.of_same hs hempty
  columnsNamed name table ht := hd.columnsNamed name table ((hs.tables name).symm.trans ht)
  undotted ht := hd.undotted ((hs.tables _).symm.trans ht)

theorem DatabaseState.of_page_eq (hd : DatabaseState h catalog d c) (hpage : h'.page = h.page) :
    DatabaseState h' catalog d c :=
  ⟨TableStorage.DatabaseHolds.of_page_eq hd.toDatabaseHolds hpage, hd.shown, hd.columnsNamed,
    hd.undotted⟩

/-! ## Opening -/

/-- `Load` reads the catalog of a consistent database back. -/
theorem DatabaseState.load_runs {ext : PageId → Nat} (hd : DatabaseState h catalog d c) :
    Runs (poolContext ext) load (fun catalog' h' => h' = h ∧ Same catalog catalog' ∧
      DatabaseState h catalog' d c) h := by
  have hpage : h.page headerPageId = some d := hd.storage.catalogPage
  have hheaders : ∀ key index, catalog.indexes.lookup key = some index →
      ValidHeader h index.headerPageId := fun key index hi =>
    (hd.storage.index _ ⟨key, index, hi, rfl⟩).validHeader
  by_cases hzero : d.readNat 0 4 = 0
  · refine (load_empty_runs hpage hzero).mono fun r h' hr => ?_
    obtain ⟨rfl, rfl⟩ := hr
    rcases hd.shown with ⟨-, rfl⟩ | ⟨serialized, hser, rfl⟩
    · exact ⟨rfl, ⟨rfl, fun _ => rfl, fun _ => rfl, fun _ => rfl⟩, hd⟩
    · obtain ⟨hmagic, -⟩ := readCatalog_published hd.wellFormed hser
      rw [hmagic] at hzero
      exact absurd hzero (by decide)
  · refine (CatalogManager.load_runs hpage hd.shown hd.wellFormed hheaders).mono fun r h' hr => ?_
    obtain ⟨rfl, ⟨-, hsame⟩ | ⟨hnot, -⟩⟩ := hr
    · exact ⟨rfl, hsame, hd.of_same hsame fun h0 => absurd h0 hzero⟩
    · exact absurd hd.columnsNamed hnot

/-- The catalog and the pool hold the same database again: the same catalog up to the order of its
entries, the same pages and contents, and the same free pages. -/
structure Restored (catalog : CatalogManager) (w : BufferPoolManager) (h : Pages) (d : PageData)
    (c : Contents) (catalog' : CatalogManager) (w' : BufferPoolManager) (h' : Pages) : Prop where
  same : Same catalog catalog'
  page : h'.page = h.page
  holds : Holds (fun _ => 0) w' h'
  state : DatabaseState h' catalog' d c
  blank : w'.disk.FreeBlank
  numPages : w'.disk.numPages = w.disk.numPages
  free : ∀ p, p ∈ w'.disk.freePages ↔ p ∈ w.disk.freePages

/-- After the pool was closed, the file is opened and the catalog loaded into a pool of `n`
frames. -/
theorem DatabaseState.reopen {ext : PageId → Nat} {w : BufferPoolManager}
    (hd : DatabaseState h catalog d c)
    (hw : Holds ext w h) (hb : w.disk.FreeBlank) {faults : DiskFaults} (hfaults : faults.Reliable)
    {n : Nat} (hn : 0 < n) :
    ∃ disk catalog' w' h', DiskManager.openFile w.flushAllPages.disk.pages
        w.flushAllPages.disk.numPages w.flushAllPages.disk.numPages_le faults = some disk ∧
      load.run (.new n disk) = some (catalog', w') ∧ Restored catalog w h d c catalog' w' h' := by
  obtain ⟨disk, hopen, hdisk, hblank, hnum, hpage⟩ := hw.reopen hb hd.noneBlank hfaults
  have hreliable : disk.faults.Reliable := by
    rw [hdisk]
    exact hfaults
  have hnew := holds_new hn hreliable
  have hload : Runs (poolContext fun _ => 0) load _ (pagesOf disk) :=
    (hd.of_page_eq hpage).load_runs
  obtain ⟨catalog', w', h', hrun, ⟨rfl, hsame, hd'⟩, hw', -⟩ := run_of_runs hnew hload
  have hnum' : w'.disk.numPages = w.disk.numPages :=
    (numPages_of_quiet hnew hload quiet_load hrun).trans hnum
  refine ⟨disk, catalog', w', _, hopen, hrun, hsame, hpage, hw', hd',
    freeBlank_of_runs hnew hload hblank hrun, hnum', fun p => ?_⟩
  rw [DiskManager.mem_freePages_iff, DiskManager.mem_freePages_iff, ← hw.allocated, ← hw'.allocated,
    hpage, hnum']

end

end MiniDbms
