import MiniDbms.Catalog.CatalogFailures
import MiniDbms.Index.HashIndexContents

/-!
# Reloading the catalog

`Shows d catalog`: page 0 has the bytes of the catalog, or it is empty and so is the catalog. The
calls keep this (`exec_runs`), and `Load` reads the same catalog back when every column has a name
(`load_runs`). `load_after_calls` puts them together for runs of calls.
-/

namespace MiniDbms

open Lib PagedProgram Program BufferPoolManager HashIndex StringMap

namespace CatalogManager

/-- The page 0 of a catalog. -/
def Shows (d : PageData) (catalog : CatalogManager) : Prop :=
  (d.readNat 0 4 = 0 ∧ catalog = {}) ∨
    ∃ serialized, serialize catalog = .ok serialized ∧ d = published serialized

/-- The tables of a catalog that fits page 0 have few columns. -/
theorem Shows.getColumnCount_eq {d : PageData} {catalog : CatalogManager} (hd : Shows d catalog)
    {name : Bytes} {table : TableMetadata} (ht : catalog.tables.lookup name = some table) :
    table.schema.getColumnCount = table.schema.length := by
  rcases hd with ⟨-, rfl⟩ | ⟨serialized, hs, -⟩
  · rw [AList.lookup_empty] at ht
    cases ht
  · obtain ⟨-, -, hfit, -⟩ := serialize_ok hs
    obtain ⟨front, back, hsplit⟩ := List.append_of_mem (mem_sortedValues.mpr ⟨name, ht⟩)
    have hcolumns := length_columns table.schema
    have hentries : (table.schema.flatMap columnBytes).length ≤ (entries catalog).length := by
      rw [entries, hsplit]
      simp only [List.flatMap_append, List.flatMap_cons, List.length_append, entryBytes, tableBody]
      omega
    rw [pageSize_eq] at hfit
    unfold Schema.getColumnCount
    exact Nat.mod_eq_of_lt (by omega)

section

variable {ext : PageId → Nat} {h : Pages} {d : PageData} {catalog changed : CatalogManager}

/-! ## `Persist` -/

theorem persist_error {e : Status} (hs : serialize catalog = .error e) :
    persist catalog = return .error e := by
  unfold persist
  rw [hs]

theorem persist_runs {serialized : Bytes} (hp : h.page headerPageId = some d)
    (hs : serialize catalog = .ok serialized) :
    Runs (poolContext ext) (persist catalog) (fun r h' =>
      r = .ok () ∧ h' = h.set headerPageId (published serialized)) h := by
  unfold persist
  rw [hs]
  refine runs_fetchPage hp fun f => ?_
  refine holding_putPage_unmarked ?_
  exact holding_unpinPage_flushPage (.inl rfl) rfl (runs_pure ⟨rfl, rfl⟩)

/-! ## `Load` -/

/-- What `Load` has when it has opened the indexes `l`. -/
structure Opened (catalog : CatalogManager) (l : List IndexMetadata) (catalog' : CatalogManager) :
    Prop where
  status : catalog'.initializationStatus = .ok ()
  tables : catalog'.tables = catalog.tables
  indexes : ∀ key index, catalog'.indexes.lookup key = some index ↔
    catalog.indexes.lookup key = some index ∨
      (index ∈ l ∧ makeIndexKey index.tableName index.columnName = key)
  indexNames : ∀ name key, catalog'.indexNames.lookup name = some key ↔
    catalog.indexNames.lookup name = some key ∨
      ∃ index ∈ l, index.name = name ∧ makeIndexKey index.tableName index.columnName = key

/-- One more index has been opened. -/
theorem Opened.cons {i : IndexMetadata} {l : List IndexMetadata} {catalog' : CatalogManager}
    (hkey : makeIndexKey i.tableName i.columnName ∉ catalog.indexes)
    (hname : i.name ∉ catalog.indexNames)
    (h : Opened { catalog with
      indexNames := catalog.indexNames.insert i.name (makeIndexKey i.tableName i.columnName)
      indexes := catalog.indexes.insert (makeIndexKey i.tableName i.columnName) i } l catalog') :
    Opened catalog (i :: l) catalog' := by
  refine ⟨h.status, h.tables, fun key index => ?_, fun name key => ?_⟩
  · rw [h.indexes, lookup_insert_eq_some, List.mem_cons]
    constructor
    · rintro ((⟨rfl, rfl⟩ | ⟨-, hl⟩) | ⟨hin, rfl⟩)
      · exact .inr ⟨.inl rfl, rfl⟩
      · exact .inl hl
      · exact .inr ⟨.inr hin, rfl⟩
    · rintro (hl | ⟨rfl | hin, rfl⟩)
      · refine .inl (.inr ⟨?_, hl⟩)
        rintro rfl
        exact hkey (mem_iff_lookup.mpr ⟨index, hl⟩)
      · exact .inl (.inl ⟨rfl, rfl⟩)
      · exact .inr ⟨hin, rfl⟩
  · rw [h.indexNames, lookup_insert_eq_some]
    simp only [List.mem_cons, exists_eq_or_imp]
    constructor
    · rintro ((⟨rfl, rfl⟩ | ⟨-, hl⟩) | hin)
      · exact .inr (.inl ⟨rfl, rfl⟩)
      · exact .inl hl
      · exact .inr (.inr hin)
    · rintro (hl | ⟨rfl, rfl⟩ | hin)
      · refine .inl (.inr ⟨?_, hl⟩)
        rintro rfl
        exact hname (mem_iff_lookup.mpr ⟨key, hl⟩)
      · exact .inl (.inl ⟨rfl, rfl⟩)
      · exact .inr hin

theorem openIndexes_runs : ∀ (l : List IndexMetadata) (catalog : CatalogManager),
    catalog.initializationStatus = .ok () →
    (∀ i ∈ l, HasColumn catalog i.tableName i.columnName) →
    (∀ i ∈ l, ValidHeader h i.headerPageId) →
    (l.map fun i => makeIndexKey i.tableName i.columnName).Nodup →
    (l.map IndexMetadata.name).Nodup →
    (∀ i ∈ l, makeIndexKey i.tableName i.columnName ∉ catalog.indexes ∧
      i.name ∉ catalog.indexNames) →
    Runs (poolContext ext) (openIndexes l catalog) (fun r h' => h' = h ∧ Opened catalog l r) h := by
  intro l
  induction l with
  | nil =>
    intro catalog hstatus _ _ _ _ _
    exact runs_pure ⟨rfl, hstatus, rfl, by simp, by simp⟩
  | cons i l ih =>
    intro catalog hstatus hcolumns hholds hkeys hnames hnew
    obtain ⟨table, htable, column, hmem, hcolumn⟩ := hcolumns i List.mem_cons_self
    obtain ⟨hkey, hname⟩ := hnew i List.mem_cons_self
    rw [List.map_cons] at hkeys hnames
    obtain ⟨hknot, hkeys'⟩ := List.nodup_cons.mp hkeys
    obtain ⟨hnnot, hnames'⟩ := List.nodup_cons.mp hnames
    have hfound : ¬ ∀ column ∈ table.schema, column.name ≠ i.columnName := fun hall =>
      hall column hmem hcolumn
    rw [openIndexes, htable]
    dsimp only
    rw [if_neg hfound]
    refine ((openIndex_runs (hholds i List.mem_cons_self)).mono fun r h' hr => ?_).bind
    obtain ⟨rfl, rfl⟩ := hr
    dsimp only
    rw [if_neg (not_or.mpr ⟨hkey, hname⟩)]
    refine (ih _ ?_ ?_ ?_ hkeys' hnames' ?_).mono fun r h' hr => ?_
    · exact hstatus
    · exact fun j hj => hcolumns j (List.mem_cons_of_mem _ hj)
    · exact fun j hj => hholds j (List.mem_cons_of_mem _ hj)
    · intro j hj
      obtain ⟨hk, hn⟩ := hnew j (List.mem_cons_of_mem _ hj)
      simp only [AList.mem_insert, not_or]
      refine ⟨⟨fun he => hknot ?_, hk⟩, fun he => hnnot ?_, hn⟩
      · rw [← he]
        exact List.mem_map_of_mem hj
      · rw [← he]
        exact List.mem_map_of_mem hj
    · obtain ⟨rfl, hopened⟩ := hr
      exact ⟨rfl, hopened.cons hkey hname⟩

/-- The catalog whose tables and indexes were read from the page is the one that was written. -/
theorem same_of_opened {catalog' : CatalogManager} (hwf : WellFormed catalog)
    (ho : Opened { ({} : CatalogManager) with
      tables := (sortedValues catalog.tables).foldl (fun m t => emplace m t.name t) ∅ }
      (sortedValues catalog.indexes) catalog') : Same catalog catalog' where
  status := ho.status.trans hwf.status.symm
  tables name := by
    have hl := lookup_foldl_emplace TableMetadata.name (sortedValues catalog.tables) ∅
      (nodup_sortedValues _ fun h => (hwf.table h).1) (fun _ _ => AList.notMem_empty _)
    rw [ho.tables]
    apply Option.ext
    intro t
    rw [hl name t, mem_sortedValues]
    constructor
    · rintro (hnone | ⟨⟨k, hk⟩, rfl⟩)
      · rw [AList.lookup_empty] at hnone
        cases hnone
      · rw [(hwf.table hk).1]
        exact hk
    · intro ht
      exact .inr ⟨⟨name, ht⟩, (hwf.table ht).1⟩
  indexes key := by
    apply Option.ext
    intro i
    rw [ho.indexes, AList.lookup_empty, mem_sortedValues]
    constructor
    · rintro (hnone | ⟨⟨k, hk⟩, rfl⟩)
      · cases hnone
      · rw [(hwf.index hk).1]
        exact hk
    · intro hi
      exact .inr ⟨⟨key, hi⟩, (hwf.index hi).1⟩
  indexNames name := by
    apply Option.ext
    intro key
    rw [ho.indexNames, AList.lookup_empty]
    constructor
    · rintro (hnone | ⟨i, hi, rfl, rfl⟩)
      · cases hnone
      · obtain ⟨k, hk⟩ := mem_sortedValues.mp hi
        obtain ⟨rfl, -, -, hn, -⟩ := hwf.index hk
        exact hn
    · intro hn
      obtain ⟨i, hi, rfl⟩ := hwf.indexName hn
      exact .inr ⟨i, mem_sortedValues.mpr ⟨key, hi⟩, rfl, (hwf.index hi).1⟩

/-- `Load` of an empty page 0. -/
theorem load_empty_runs (hp : h.page headerPageId = some d) (hzero : d.readNat 0 4 = 0) :
    Runs (poolContext ext) load (fun r h' => r = {} ∧ h' = h) h := by
  unfold load
  refine runs_fetchPage hp fun f => ?_
  dsimp only
  rw [if_pos hzero]
  exact holding_unpinPage (.inr rfl) (runs_pure ⟨rfl, rfl⟩)

/-- `Load` reads the catalog of page 0 back, unless a column has no name. -/
theorem load_runs (hp : h.page headerPageId = some d) (hd : Shows d catalog)
    (hwf : WellFormed catalog)
    (hi : ∀ key index, catalog.indexes.lookup key = some index →
      ValidHeader h index.headerPageId) :
    Runs (poolContext ext) load (fun r h' => h' = h ∧
      (ColumnsNamed catalog ∧ Same catalog r ∨
        ¬ ColumnsNamed catalog ∧ ∃ e, r.initializationStatus = .error e)) h := by
  rcases hd with ⟨hzero, rfl⟩ | ⟨serialized, hs, rfl⟩
  · refine (load_empty_runs hp hzero).mono fun r h' hr => ?_
    obtain ⟨rfl, rfl⟩ := hr
    refine ⟨rfl, .inl ⟨fun name table hl => ?_, rfl, fun _ => rfl, fun _ => rfl, fun _ => rfl⟩⟩
    rw [AList.lookup_empty] at hl
    cases hl
  · unfold load
    refine runs_fetchPage hp fun f => ?_
    dsimp only
    obtain ⟨hmagic, ⟨hnamed, hread⟩ | ⟨hnot, tables, e, hread⟩⟩ := readCatalog_published hwf hs
    · rw [if_neg (by rw [hmagic]; decide), hread]
      refine holding_unpinPage (.inr rfl) ?_
      refine (openIndexes_runs (sortedValues catalog.indexes) _ rfl ?_ ?_ ?_ hwf.nodup_indexNames
        ?_).mono fun r h' hr => ⟨hr.1, .inl ⟨hnamed, same_of_opened hwf hr.2⟩⟩
      · intro i hin
        obtain ⟨key, hl⟩ := mem_sortedValues.mp hin
        obtain ⟨-, -, -, -, t, ht, hcolumn⟩ := hwf.index hl
        refine ⟨t, ?_, hcolumn⟩
        rw [lookup_foldl_emplace TableMetadata.name _ ∅
          (nodup_sortedValues _ fun h => (hwf.table h).1) (fun _ _ => AList.notMem_empty _)]
        exact .inr ⟨mem_sortedValues.mpr ⟨_, ht⟩, (hwf.table ht).1⟩
      · intro i hin
        obtain ⟨key, hl⟩ := mem_sortedValues.mp hin
        exact hi key i hl
      · exact nodup_sortedValues _ fun hl => (hwf.index hl).1
      · exact fun _ _ => ⟨AList.notMem_empty _, AList.notMem_empty _⟩
    · rw [if_neg (by rw [hmagic]; decide), hread]
      exact holding_unpinPage (.inr rfl) (runs_pure ⟨rfl, .inr ⟨hnot, e, rfl⟩⟩)

end

/-! ## `CreateTable` and `CreateIndex` -/

/-- The header page of an index of the catalog. -/
def IsHeader (catalog : CatalogManager) (header : PageId) : Prop :=
  ∃ key index, catalog.indexes.lookup key = some index ∧ index.headerPageId = header

namespace Change

section

variable {ext : PageId → Nat} {h : Pages} {d : PageData} {b : PageId → Buckets}
  {catalog changed : CatalogManager} {call : Change}

/-- The index of a call is open, and its pages belong to the caller. -/
def Valid (ext : PageId → Nat) (h : Pages) (b : PageId → Buckets) (catalog : CatalogManager) :
    Change → Prop
  | .createTable _ _ _ => True
  | .createIndex _ _ _ index => IndexHolds h index (b index) ∧
      (∀ q ∈ (b index).pages index, ext q = 0) ∧
      ∀ header, IsHeader catalog header → ∀ q ∈ (b header).pages header, q ∉ (b index).pages index

theorem Accepts.wellFormed (hacc : call.Accepts catalog changed) (hv : call.Valid ext h b catalog)
    (hwf : WellFormed catalog) : WellFormed changed := by
  cases call with
  | createTable tableName schema firstPageId =>
    obtain ⟨-, hname, hpage, -, hnew, rfl⟩ := hacc
    exact hwf.insertTable hname hpage hnew
  | createIndex indexName tableName columnName index =>
    obtain ⟨-, hnames, hcolumn, hkey, hname, rfl⟩ := hacc
    exact hwf.insertIndex hnames hv.1.positive hcolumn hkey hname

/-- A header page in the changed catalog is an old one or that of the call. -/
theorem Accepts.isHeader (hacc : call.Accepts catalog changed) {header : PageId}
    (hheader : IsHeader changed header) :
    IsHeader catalog header ∨ ∃ n t c, call = .createIndex n t c header := by
  cases call with
  | createTable tableName schema firstPageId =>
    obtain ⟨-, -, -, -, -, rfl⟩ := hacc
    exact .inl hheader
  | createIndex indexName tableName columnName index =>
    obtain ⟨-, -, -, -, -, rfl⟩ := hacc
    obtain ⟨key, i, hl, rfl⟩ := hheader
    rcases lookup_insert_eq_some.mp hl with ⟨-, rfl⟩ | ⟨-, hl⟩
    · exact .inr ⟨_, _, _, rfl⟩
    · exact .inl ⟨key, i, hl, rfl⟩

/-- The catalog is as page 0 shows it, and its indexes are open. -/
structure Stored (h : Pages) (b : PageId → Buckets) (catalog : CatalogManager) : Prop where
  wellFormed : WellFormed catalog
  shown : ∃ d, h.page headerPageId = some d ∧ Shows d catalog
  indexes : ∀ header, IsHeader catalog header → IndexHolds h header (b header)

/-- What `Persist` does to page 0 leaves the indexes alone. -/
theorem indexHolds_set {header : PageId} (hi : IndexHolds h header (b header)) :
    IndexHolds (h.set headerPageId d) header (b header) := by
  apply hi.congr
  intro q hq
  apply Heap.page_set_of_ne
  rintro rfl
  exact absurd (hi.page_ne_none hq).2 (by decide)

theorem undo_runs (hs : Stored h b catalog) (hv : call.Valid ext h b catalog) (e : Status) :
    Runs (poolContext ext) (call.undo catalog e) (fun r h' => Stored h' b r.2) h := by
  cases call with
  | createTable => exact runs_pure hs
  | createIndex indexName tableName columnName index =>
    obtain ⟨hi, hpins, hdisjoint⟩ := hv
    refine ((destroy_runs hi hpins).mono fun r h' hr => ?_).bind
    obtain ⟨rfl, -, hpage⟩ := hr
    apply runs_pure
    refine ⟨hs.wellFormed, ?_, fun header hheader => (hs.indexes header hheader).congr
      fun q hq => ?_⟩
    · obtain ⟨d, hd, hshown⟩ := hs.shown
      refine ⟨d, ?_, hshown⟩
      rw [hpage, if_neg, hd]
      intro hq
      exact absurd (hi.page_ne_none hq).2 (by decide)
    · rw [hpage, if_neg (hdisjoint header hheader q hq)]

/-- A call that is accepted and fits the page. -/
theorem exec_ok_runs {serialized : Bytes} (hacc : call.Accepts catalog changed)
    (hd : h.page headerPageId = some d) (hser : serialize changed = .ok serialized) :
    Runs (poolContext ext) (call.exec catalog) (fun r h' =>
      r = (.ok (), changed) ∧ h' = h.set headerPageId (published serialized)) h := by
  rw [exec_accepted hacc]
  refine ((persist_runs hd hser).mono fun r h' hr => ?_).bind
  obtain ⟨rfl, rfl⟩ := hr
  exact runs_pure ⟨rfl, rfl⟩

/-- A call that is accepted but does not fit the page. -/
theorem exec_unserializable {e : Status} (hacc : call.Accepts catalog changed)
    (hser : serialize changed = .error e) : call.exec catalog = call.undo catalog e := by
  rw [exec_accepted hacc, persist_error hser]
  rfl

/-- Every call keeps page 0 and the catalog in step. -/
theorem exec_runs (hs : Stored h b catalog) (hv : call.Valid ext h b catalog) :
    Runs (poolContext ext) (call.exec catalog) (fun r h' => Stored h' b r.2) h := by
  by_cases hacc : ∃ changed, call.Accepts catalog changed
  · obtain ⟨changed, hacc⟩ := hacc
    have hwf := hacc.wellFormed hv hs.wellFormed
    obtain ⟨d, hd, -⟩ := hs.shown
    cases hser : serialize changed with
    | error e =>
      rw [exec_unserializable hacc hser]
      exact undo_runs hs hv e
    | ok serialized =>
      refine (exec_ok_runs hacc hd hser).mono fun r h' hr => ?_
      obtain ⟨rfl, rfl⟩ := hr
      refine ⟨hwf, ⟨_, Heap.page_set_self _ _ _, .inr ⟨serialized, hser, rfl⟩⟩, fun header hh => ?_⟩
      apply indexHolds_set
      rcases hacc.isHeader hh with hold | ⟨n, t, c, rfl⟩
      · exact hs.indexes header hold
      · exact hv.1
  · obtain ⟨e, hexec⟩ := exec_rejected fun changed hc => hacc ⟨changed, hc⟩
    rw [hexec]
    exact runs_pure hs

end

end Change

/-! ## Runs of calls -/

/-- The catalogs that calls reach from an empty page 0. Between two calls, the clients of the pool
do what they like with the other pages, as long as the indexes of the catalog stay open. -/
inductive Reached : BufferPoolManager → CatalogManager → Prop where
  | start {ext : PageId → Nat} {w w' : BufferPoolManager} {h : Pages} {d : PageData}
      {catalog : CatalogManager} (holds : Holds ext w h) (page : h.page headerPageId = some d)
      (empty : d.readNat 0 4 = 0) (run : load.run w = some (catalog, w')) : Reached w' catalog
  | call {ext : PageId → Nat} {w w' : BufferPoolManager} {h : Pages} {b : PageId → Buckets}
      {catalog catalog' : CatalogManager} {call : Change} {result : Except Status Unit}
      (reached : Reached w catalog) (holds : Holds ext w h)
      (indexes : ∀ header, IsHeader catalog header → IndexHolds h header (b header))
      (valid : call.Valid ext h b catalog)
      (run : (call.exec catalog).run w = some ((result, catalog'), w')) : Reached w' catalog'
  | clients {ext : PageId → Nat} {w w' : BufferPoolManager} {h : Pages} {b : PageId → Buckets}
      {catalog : CatalogManager} (reached : Reached w catalog) (holds : Holds ext w' h)
      (page : h.page headerPageId = some (w.image headerPageId))
      (indexes : ∀ header, IsHeader catalog header → IndexHolds h header (b header)) :
      Reached w' catalog

section

variable {w : BufferPoolManager} {catalog : CatalogManager}

/-- In every reached state, page 0 shows the catalog, and its indexes are open. -/
theorem Reached.stored (hr : Reached w catalog) :
    ∃ ext h b, Holds ext w h ∧ Change.Stored h b catalog := by
  induction hr with
  | start hw hp hzero hrun =>
    obtain ⟨r, w', h', hrun', ⟨rfl, rfl⟩, hw', -⟩ := run_of_runs hw (load_empty_runs hp hzero)
    rw [hrun] at hrun'
    cases hrun'
    refine ⟨_, _, fun _ => .empty 0, hw', wellFormed_empty, ⟨_, hp, .inl ⟨hzero, rfl⟩⟩, ?_⟩
    rintro header ⟨key, index, hl, -⟩
    rw [AList.lookup_empty] at hl
    cases hl
  | call _ hw hb hv hrun ih =>
    obtain ⟨ext', h', b', hw', hs⟩ := ih
    obtain ⟨d, hd, hshown⟩ := hs.shown
    have hs' : Change.Stored _ _ _ := ⟨hs.wellFormed, ⟨d, hw.page_eq hw' hd, hshown⟩, hb⟩
    obtain ⟨r, w'', h'', hrun', hstored, hw'', -⟩ := run_of_runs hw (Change.exec_runs hs' hv)
    rw [hrun] at hrun'
    cases hrun'
    exact ⟨_, h'', _, hw'', hstored⟩
  | clients _ hw hp hb ih =>
    obtain ⟨ext', h', b', hw', hs⟩ := ih
    obtain ⟨d, hd, hshown⟩ := hs.shown
    rw [hw'.image hd] at hp
    exact ⟨_, _, _, hw, hs.wellFormed, ⟨d, hp, hshown⟩, hb⟩

/-- In every reached state, a new `Load` succeeds and reads the same catalog, unless a table has a
column without a name. -/
theorem load_after_calls (hr : Reached w catalog) :
    ∃ catalog' w', load.run w = some (catalog', w') ∧
      ((catalog'.initializationStatus = .ok () ∧ Same catalog catalog') ↔
        ColumnsNamed catalog) := by
  obtain ⟨ext, h, b, hw, hs⟩ := hr.stored
  obtain ⟨d, hd, hshown⟩ := hs.shown
  have hload : Runs (poolContext ext) load _ h :=
    load_runs hd hshown hs.wellFormed fun key index hl =>
    (hs.indexes _ ⟨key, index, hl, rfl⟩).validHeader
  obtain ⟨catalog', w', h', hrun, ⟨-, hcases⟩, -, -⟩ := run_of_runs hw hload
  refine ⟨catalog', w', hrun, ?_⟩
  rcases hcases with ⟨hnamed, hsame⟩ | ⟨hnot, e, he⟩
  · exact ⟨fun _ => hnamed, fun _ => ⟨hsame.status.trans hs.wellFormed.status, hsame⟩⟩
  · refine ⟨fun h => ?_, fun h => absurd h hnot⟩
    rw [he] at h
    cases h.1

/-- The first call on a new database. -/
theorem reached_first {call : Change} (hacc : call.Accepts {} catalog)
    (hv : call.Valid (fun _ => 0) (pagesOf (DiskManager.newFile DiskFaults.none))
      (fun _ => .empty 0) {})
    (hfit : (serialize catalog).isOk = true) : ∃ w, Reached w catalog := by
  obtain ⟨serialized, hser⟩ : ∃ serialized, serialize catalog = .ok serialized := by
    cases hs : serialize catalog with
    | ok serialized => exact ⟨serialized, rfl⟩
    | error e =>
      rw [hs] at hfit
      cases hfit
  have ha : (DiskManager.newFile DiskFaults.none).Allocated headerPageId := by decide
  have hd : (pagesOf (DiskManager.newFile DiskFaults.none)).page headerPageId = some Image.zero :=
    page_pagesOf ha
  have hzero : Image.readNat (n := pageSize) Image.zero 0 4 = 0 := by decide
  obtain ⟨_, w, _, hrun, ⟨rfl, rfl⟩, hw, -⟩ :=
    run_of_runs (holds_new Nat.one_pos DiskFaults.none_reliable) (load_empty_runs hd hzero)
  obtain ⟨_, w', _, hrun', ⟨rfl, rfl⟩, -, -⟩ := run_of_runs hw (Change.exec_ok_runs hacc hd hser)
  have hstart : Reached w {} :=
    .start (holds_new Nat.one_pos DiskFaults.none_reliable) hd hzero hrun
  refine ⟨w', .call hstart hw ?_ hv hrun'⟩
  rintro header ⟨key, index, hl, -⟩
  rw [AList.lookup_empty] at hl
  cases hl

end

theorem reached_users : ∃ w, Reached w Change.withUsers := by
  have hacc : Change.usersTable.Accepts {} Change.withUsers :=
    ⟨rfl, by decide, by decide, by decide, by simp, rfl⟩
  exact reached_first hacc trivial (by decide +kernel)

theorem load_after_calls_users : ∃ w catalog' w', Reached w Change.withUsers ∧
    load.run w = some (catalog', w') ∧
      ((catalog'.initializationStatus = .ok () ∧ Same Change.withUsers catalog') ↔
        ColumnsNamed Change.withUsers) := by
  obtain ⟨w, hw⟩ := reached_users
  obtain ⟨catalog', w', hrun, hiff⟩ := load_after_calls hw
  exact ⟨w, catalog', w', hw, hrun, hiff⟩

/-- A table whose only column has no name. -/
def unnamedColumn : Change := .createTable [117] [⟨[], .integer, 4⟩] 1

/-- `CreateTable` accepts a column without a name, and the next `Load` fails. -/
theorem load_unnamedColumn : ∃ w catalog, Reached w catalog ∧ unnamedColumn.Accepts {} catalog ∧
    ∀ catalog' w', load.run w = some (catalog', w') → catalog'.initializationStatus ≠ .ok () := by
  have hacc : unnamedColumn.Accepts {} { ({} : CatalogManager) with
      tables := AList.insert [117] ⟨[117], [⟨[], .integer, 4⟩], 1⟩ ∅ } :=
    ⟨rfl, by decide, by decide, by decide, by simp, rfl⟩
  obtain ⟨w, hw⟩ := reached_first hacc trivial (by decide +kernel)
  refine ⟨w, _, hw, hacc, fun catalog' w' hrun hstatus => ?_⟩
  obtain ⟨ext, h, b, hholds, hs⟩ := hw.stored
  obtain ⟨d, hd, hshown⟩ := hs.shown
  have hload : Runs (poolContext ext) load _ h :=
    load_runs hd hshown hs.wellFormed fun key index hl =>
    (hs.indexes _ ⟨key, index, hl, rfl⟩).validHeader
  obtain ⟨r, v, h', hrun', ⟨-, ⟨hnamed, -⟩ | ⟨-, e, he⟩⟩, -, -⟩ := run_of_runs hholds hload
  · exact hnamed [117] _ (AList.lookup_insert _) _ List.mem_cons_self rfl
  · rw [hrun] at hrun'
    cases hrun'
    rw [hstatus] at he
    cases he

end CatalogManager

end MiniDbms
