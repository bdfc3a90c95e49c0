import MiniDbms.Catalog.CatalogSafety
import Mathlib.Algebra.Order.BigOperators.Group.List

/-!
# Flushing a loaded catalog

An accepted page need not be one that `Persist` writes: its entries may come in any order, its
reserved fields may hold anything, and a table name may come twice. `Flush` brings it into a normal
form: the bytes only depend on the catalog as three maps (`Same.serialize_eq`), every entry of the
catalog has the size of an entry of the page (`Accepted.length_entries`), and what fits page 0 is
written without an error (`serialize_of_fits`).
-/

namespace MiniDbms

open Lib StringMap

namespace CatalogManager

/-! ## Writes that fit -/

section

variable {buffer : Bytes}

theorem writeAll_of_fits : ∀ {parts : List Bytes} {buffer : Bytes},
    buffer.length + parts.flatten.length ≤ pageSize →
      writeAll buffer parts = .ok (buffer ++ parts.flatten) := by
  intro parts
  induction parts with
  | nil =>
    intro buffer _
    rw [List.flatten_nil, List.append_nil]
    rfl
  | cons part parts ih =>
    intro buffer hfit
    rw [List.flatten_cons, List.length_append] at hfit
    rw [writeAll_cons, if_pos (by omega), ih, List.flatten_cons, List.append_assoc]
    rw [List.length_append]
    omega

theorem length_name_le_columnBytes (column : Column) :
    column.name.length ≤ (columnBytes column).length := by
  simp only [columnBytes, List.length_append]
  omega

theorem writeColumn_of_fits {column : Column}
    (hfit : buffer.length + (columnBytes column).length ≤ pageSize) :
    writeColumn buffer column = .ok (buffer ++ columnBytes column) := by
  have hname := length_name_le_columnBytes column
  have hflat : [leBytes 2 column.name.length, leBytes 1 column.type.toNat, leBytes 1 0,
      leBytes 4 column.length.toNat, column.name].flatten = columnBytes column := by
    simp only [columnBytes, List.flatten_cons, List.flatten_nil, List.append_nil]
  have hpage : pageSize = 4096 := pageSize_eq
  rw [writeColumn, if_neg (by omega), writeAll_of_fits (by rw [hflat]; exact hfit), hflat]

theorem writeColumns_of_fits : ∀ {schema : Schema} {buffer : Bytes},
    buffer.length + (schema.flatMap columnBytes).length ≤ pageSize →
      schema.foldlM writeColumn buffer = .ok (buffer ++ schema.flatMap columnBytes) := by
  intro schema
  induction schema with
  | nil =>
    intro buffer _
    rw [List.flatMap_nil, List.append_nil]
    rfl
  | cons column schema ih =>
    intro buffer hfit
    rw [List.flatMap_cons, List.length_append] at hfit
    rw [List.foldlM_cons, writeColumn_of_fits (by omega)]
    show schema.foldlM writeColumn (buffer ++ columnBytes column) = _
    rw [ih, List.flatMap_cons, List.append_assoc]
    rw [List.length_append]
    omega

theorem length_tableBody (table : TableMetadata) : (tableBody table).length =
    10 + table.name.length + (table.schema.flatMap columnBytes).length := by
  simp only [tableBody, pageIdBytes, List.length_append, length_leBytes]
  omega

theorem length_indexBody (index : IndexMetadata) : (indexBody index).length =
    10 + index.name.length + index.tableName.length + index.columnName.length := by
  simp only [indexBody, pageIdBytes, List.length_append, length_leBytes]
  omega

theorem length_entryBytes (body : Bytes) : (entryBytes body).length = 2 + body.length := by
  rw [entryBytes, List.length_append, length_leBytes]

theorem writeTable_of_fits {table : TableMetadata}
    (hfit : buffer.length + (entryBytes (tableBody table)).length ≤ pageSize) :
    writeTable buffer table = .ok (buffer ++ entryBytes (tableBody table)) := by
  have hbody := length_tableBody table
  rw [length_entryBytes] at hfit
  have hpage : pageSize = 4096 := pageSize_eq
  have hcolumns := length_columns table.schema
  have hcount : table.schema.getColumnCount ≤ table.schema.length := Nat.mod_le _ _
  set head := [leBytes 2 0, leBytes 2 table.name.length, leBytes 2 table.schema.getColumnCount,
    leBytes 2 0, pageIdBytes table.firstPageId, table.name] with hhead
  have hentry : head.flatten ++ table.schema.flatMap columnBytes = leBytes 2 0 ++
      tableBody table := by
    simp only [hhead, tableBody, List.flatten_cons, List.flatten_nil, List.append_nil,
      List.append_assoc]
  have hlength := congrArg List.length hentry
  simp only [List.length_append, length_leBytes] at hlength
  rw [writeTable, if_neg (by omega), ← hhead, writeAll_of_fits (by omega)]
  simp only [bind, Except.bind]
  rw [writeColumns_of_fits (by rw [List.length_append]; omega), List.append_assoc, hentry]
  dsimp only
  rw [if_neg, setEntrySize_eq]
  simp only [List.length_append, length_leBytes]
  omega

theorem writeIndex_of_fits {index : IndexMetadata}
    (hfit : buffer.length + (entryBytes (indexBody index)).length ≤ pageSize) :
    writeIndex buffer index = .ok (buffer ++ entryBytes (indexBody index)) := by
  have hbody := length_indexBody index
  rw [length_entryBytes] at hfit
  have hpage : pageSize = 4096 := pageSize_eq
  have hentry : [leBytes 2 0, leBytes 2 index.name.length, leBytes 2 index.tableName.length,
      leBytes 2 index.columnName.length, pageIdBytes index.headerPageId, index.name,
      index.tableName, index.columnName].flatten = leBytes 2 0 ++ indexBody index := by
    simp only [indexBody, List.flatten_cons, List.flatten_nil, List.append_nil]
  have hlength := congrArg List.length hentry
  simp only [List.length_append, length_leBytes] at hlength
  rw [writeIndex, if_neg (by omega), writeAll_of_fits (by omega), hentry]
  simp only [bind, Except.bind]
  rw [if_neg, setEntrySize_eq]
  simp only [List.length_append, length_leBytes]
  omega

/-- A loop of writes whose entries fit together. -/
theorem writeEntries_of_fits {α : Type} {writeEntry : Bytes → α → Except Status Bytes}
    {body : α → Bytes}
    (hwrite : ∀ {buffer a}, buffer.length + (entryBytes (body a)).length ≤ pageSize →
      writeEntry buffer a = .ok (buffer ++ entryBytes (body a))) :
    ∀ {l : List α} {buffer : Bytes},
      buffer.length + (l.flatMap fun a => entryBytes (body a)).length ≤ pageSize →
      l.foldlM writeEntry buffer = .ok (buffer ++ l.flatMap fun a => entryBytes (body a)) := by
  intro l
  induction l with
  | nil =>
    intro buffer _
    rw [List.flatMap_nil, List.append_nil]
    rfl
  | cons a l ih =>
    intro buffer hfit
    rw [List.flatMap_cons, List.length_append] at hfit
    rw [List.foldlM_cons, hwrite (by omega)]
    show l.foldlM writeEntry (buffer ++ entryBytes (body a)) = _
    rw [ih, List.flatMap_cons, List.append_assoc]
    rw [List.length_append]
    omega

/-- A catalog whose entries fit page 0 is serialized without an error. -/
theorem serialize_of_fits {catalog : CatalogManager} (htables : catalog.tables.keys.length ≤ 65535)
    (hindexes : catalog.indexes.keys.length ≤ 65535)
    (hfit : catalogHeaderSize + (entries catalog).length ≤ pageSize) :
    serialize catalog = .ok (headerBytes catalog.tables.keys.length catalog.indexes.keys.length
      (catalogHeaderSize + (entries catalog).length) ++ entries catalog) := by
  have hpage : pageSize = 4096 := pageSize_eq
  have hsplit : (entries catalog).length =
      ((sortedValues catalog.tables).flatMap fun t => entryBytes (tableBody t)).length +
        ((sortedValues catalog.indexes).flatMap fun i => entryBytes (indexBody i)).length := by
    rw [entries, List.length_append]
  have hstart : (List.replicate catalogHeaderSize (0 : UInt8)).length = catalogHeaderSize :=
    List.length_replicate
  have hwriteTables : (sortedValues catalog.tables).foldlM writeTable
      (List.replicate catalogHeaderSize 0) = .ok (List.replicate catalogHeaderSize 0 ++
        (sortedValues catalog.tables).flatMap fun t => entryBytes (tableBody t)) := by
    apply writeEntries_of_fits
    · exact fun h => writeTable_of_fits h
    · omega
  have hwriteIndexes : (sortedValues catalog.indexes).foldlM writeIndex
      (List.replicate catalogHeaderSize 0 ++
        (sortedValues catalog.tables).flatMap fun t => entryBytes (tableBody t)) =
      .ok (List.replicate catalogHeaderSize 0 ++ entries catalog) := by
    rw [entries, ← List.append_assoc]
    apply writeEntries_of_fits
    · exact fun h => writeIndex_of_fits h
    · rw [List.length_append]
      omega
  rw [serialize, if_neg (by omega), hwriteTables]
  simp only [bind, Except.bind]
  rw [hwriteIndexes]
  dsimp only
  rw [List.drop_left' hstart, List.length_append, hstart]
  exact if_neg (by omega)

end

/-! ## The bytes depend on the maps only -/

theorem keys_perm_of_lookup {α : Type} {map map' : StringMap α}
    (h : ∀ key, map'.lookup key = map.lookup key) : map'.keys.Perm map.keys := by
  apply (List.perm_ext_iff_of_nodup map'.nodupKeys map.nodupKeys).mpr
  intro key
  show key ∈ map'.keys ↔ key ∈ map.keys
  rw [← AList.mem_keys, ← AList.mem_keys, mem_iff_lookup, mem_iff_lookup, h]

theorem sortedValues_congr {α : Type} {map map' : StringMap α}
    (h : ∀ key, map'.lookup key = map.lookup key) : sortedValues map' = sortedValues map := by
  have hkeys : map'.keys.insertionSort (· ≤ ·) = map.keys.insertionSort (· ≤ ·) := by
    have hperm := (List.perm_insertionSort (· ≤ ·) map'.keys).trans
      ((keys_perm_of_lookup h).trans (List.perm_insertionSort (· ≤ ·) map.keys).symm)
    exact hperm.eq_of_pairwise' (List.pairwise_insertionSort _ _) (List.pairwise_insertionSort _ _)
  rw [sortedValues, sortedValues, hkeys]
  exact congrArg (fun f => List.filterMap f _) (funext h)

/-- Catalogs with the same entries have the same bytes. -/
theorem Same.serialize_eq {catalog catalog' : CatalogManager} (h : Same catalog catalog') :
    serialize catalog' = serialize catalog := by
  rw [serialize, serialize, sortedValues_congr h.tables, sortedValues_congr h.indexes,
    (keys_perm_of_lookup h.tables).length_eq, (keys_perm_of_lookup h.indexes).length_eq]

/-! ## The sizes of the entries of a page -/

section

variable {α : Type} {entry : Nat → α → Nat → Prop} {o stop : Nat} {l : List α}

theorem Consecutive.of_mem {a : α} : ∀ {l : List α} {o : Nat}, Consecutive entry o l stop → a ∈ l →
    ∃ o' stop', entry o' a stop' := by
  intro l
  induction l with
  | nil => exact fun _ hmem => absurd hmem List.not_mem_nil
  | cons b l ih =>
    intro o h hmem
    obtain ⟨mid, hb, hrest⟩ := h
    rcases List.mem_cons.mp hmem with rfl | hmem
    · exact ⟨o, mid, hb⟩
    · exact ih hrest hmem

/-- Entries one behind the other take up the sum of their sizes. -/
theorem Consecutive.stop_eq {size : α → Nat}
    (hsize : ∀ {o a stop}, entry o a stop → stop = o + size a) :
    ∀ {l : List α} {o : Nat}, Consecutive entry o l stop → stop = o + (l.map size).sum := by
  intro l
  induction l with
  | nil => exact fun h => h.symm
  | cons a l ih =>
    intro o h
    obtain ⟨mid, ha, hrest⟩ := h
    rw [ih hrest, hsize ha, List.map_cons, List.sum_cons, Nat.add_assoc]

theorem sum_map_le_of_subperm {l l' : List α} (h : l.Subperm l') (size : α → Nat) :
    (l.map size).sum ≤ (l'.map size).sum := by
  obtain ⟨l'', hperm, hsub⟩ := h
  rw [← (hperm.map size).sum_nat]
  exact (hsub.map size).sum_le_sum fun _ _ => Nat.zero_le _

end

section

variable {d : PageData} {o stop : Nat}

theorem ColumnAt.stop_eq {column : Column} (h : ColumnAt d o column stop) :
    stop = o + (columnBytes column).length := by
  rw [h.stop]
  simp only [columnBytes, List.length_append, length_leBytes]
  omega

theorem TableAt.stop_eq {table : TableMetadata} (h : TableAt d o table stop) :
    stop = o + (entryBytes (tableBody table)).length := by
  have hcolumns := h.columns.stop_eq fun hc => hc.stop_eq
  rw [length_entryBytes, length_tableBody, List.length_flatMap]
  omega

theorem IndexAt.stop_eq {index : IndexMetadata} (h : IndexAt d o index stop) :
    stop = o + (entryBytes (indexBody index)).length := by
  have hstop := h.stop
  rw [length_entryBytes, length_indexBody]
  omega

end

/-! ## The catalog of an accepted page -/

section

variable {d : PageData} {tables : List TableMetadata} {indexes : List IndexMetadata}
  {catalog : CatalogManager}

theorem Accepted.table_mem (h : Accepted d tables indexes catalog) {name : Bytes}
    {table : TableMetadata} (hl : catalog.tables.lookup name = some table) :
    table ∈ tables ∧ table.name = name := by
  rw [h.lookup] at hl
  exact ⟨List.mem_of_find?_eq_some hl, by simpa using List.find?_some hl⟩

theorem Accepted.index_mem (h : Accepted d tables indexes catalog) {key : Bytes}
    {index : IndexMetadata} (hl : catalog.indexes.lookup key = some index) :
    index ∈ indexes ∧ makeIndexKey index.tableName index.columnName = key := by
  rw [h.installs.opened.indexes, AList.lookup_empty] at hl
  rcases hl with hnone | hl
  · cases hnone
  · exact hl

theorem Accepted.wellFormed (h : Accepted d tables indexes catalog) : WellFormed catalog where
  status := h.installs.opened.status
  table hl := by
    obtain ⟨hmem, rfl⟩ := h.table_mem hl
    obtain ⟨mid, htables, -⟩ := h.filled.entries
    obtain ⟨o, stop, hat⟩ := htables.of_mem hmem
    exact ⟨rfl, hat.named, hat.firstPageId_pos⟩
  index hl := by
    obtain ⟨hmem, hkey⟩ := h.index_mem hl
    obtain ⟨mid, -, hindexes⟩ := h.filled.entries
    obtain ⟨o, stop, hat⟩ := hindexes.of_mem hmem
    obtain ⟨table, htable, hcolumn⟩ := h.installs.columns _ hmem
    refine ⟨hkey, hat.named, hat.headerPageId_pos, ?_, table, ?_, hcolumn⟩
    · exact (h.installs.opened.indexNames _ _).mpr (.inr ⟨_, hmem, rfl, hkey⟩)
    · rw [h.installs.opened.tables]
      exact htable
  indexName hl := by
    rcases (h.installs.opened.indexNames _ _).mp hl with hnone | ⟨index, hmem, rfl, rfl⟩
    · rw [AList.lookup_empty] at hnone
      cases hnone
    · exact ⟨index, (h.installs.opened.indexes _ _).mpr (.inr ⟨hmem, rfl⟩), rfl⟩

theorem Accepted.columnsNamed (h : Accepted d tables indexes catalog) : ColumnsNamed catalog := by
  intro name table hl column hcolumn
  obtain ⟨mid, htables, -⟩ := h.filled.entries
  obtain ⟨o, stop, hat⟩ := htables.of_mem (h.table_mem hl).1
  obtain ⟨o', stop', hat'⟩ := hat.columns.of_mem hcolumn
  exact hat'.named

theorem Accepted.tables_subperm (h : Accepted d tables indexes catalog) :
    (sortedValues catalog.tables).Subperm tables := by
  apply List.subperm_of_subset
  · exact (nodup_sortedValues TableMetadata.name fun hl => (h.table_mem hl).2).of_map _
  · intro table hmem
    obtain ⟨name, hl⟩ := mem_sortedValues.mp hmem
    exact (h.table_mem hl).1

theorem Accepted.indexes_subperm (h : Accepted d tables indexes catalog) :
    (sortedValues catalog.indexes).Subperm indexes := by
  apply List.subperm_of_subset
  · exact (nodup_sortedValues (fun i => makeIndexKey i.tableName i.columnName)
      fun hl => (h.index_mem hl).2).of_map _
  · intro index hmem
    obtain ⟨key, hl⟩ := mem_sortedValues.mp hmem
    exact (h.index_mem hl).1

/-- The entries of the catalog take up no more than the entries of the page. -/
theorem Accepted.length_entries (h : Accepted d tables indexes catalog) :
    catalogHeaderSize + (entries catalog).length ≤ d.readNat 10 2 := by
  obtain ⟨mid, htables, hindexes⟩ := h.filled.entries
  have htablesStop := htables.stop_eq fun ht => ht.stop_eq
  have hindexesStop := hindexes.stop_eq fun hi => hi.stop_eq
  have htablesLe :=
    sum_map_le_of_subperm h.tables_subperm fun t => (entryBytes (tableBody t)).length
  have hindexesLe :=
    sum_map_le_of_subperm h.indexes_subperm fun i => (entryBytes (indexBody i)).length
  rw [entries, List.length_append, List.length_flatMap, List.length_flatMap]
  omega

theorem length_headerBytes (tableCount indexCount usedBytes : Nat) :
    (headerBytes tableCount indexCount usedBytes).length = catalogHeaderSize := by
  simp only [headerBytes, List.length_append, length_leBytes]
  rfl

/-- The used bytes in the header of a published page. -/
theorem readNat_published {tableCount indexCount usedBytes : Nat} {bytes : Bytes}
    (hfit : catalogHeaderSize + bytes.length ≤ pageSize) (hused : usedBytes < 65536) :
    (published (headerBytes tableCount indexCount usedBytes ++ bytes)).readNat 10 2 =
      usedBytes := by
  have hat : At (published (headerBytes tableCount indexCount usedBytes ++ bytes)) 0
      (headerBytes tableCount indexCount usedBytes ++ bytes) := by
    apply at_published
    rw [List.length_append, length_headerBytes]
    exact hfit
  obtain ⟨hheader, -⟩ := at_append.mp hat
  generalize published (headerBytes tableCount indexCount usedBytes ++ bytes) = d at hheader ⊢
  unfold headerBytes at hheader
  simp only [at_append, length_leBytes] at hheader
  obtain ⟨-, -, -, -, hnumber, -⟩ := hheader
  unfold At at hnumber
  rw [length_leBytes] at hnumber
  rw [Image.readNat, hnumber]
  exact leNat_leBytes_of_lt hused

/-- The bytes of the catalog are no more than those used by the page. -/
theorem Accepted.serialize_ok (h : Accepted d tables indexes catalog) :
    ∃ serialized, serialize catalog = .ok serialized ∧ serialized.length ≤ d.readNat 10 2 ∧
      (published serialized).readNat 10 2 = serialized.length := by
  have hentries := h.length_entries
  have hused := h.filled.used_le
  have htables : catalog.tables.keys.length ≤ 65535 := by
    have hle := h.tables_subperm.length_le
    have hcount := h.filled.tableCount
    have hlt := d.readNat_lt 6 2
    rw [length_sortedValues TableMetadata.name fun hl => (h.table_mem hl).2] at hle
    omega
  have hindexes : catalog.indexes.keys.length ≤ 65535 := by
    have hle := h.indexes_subperm.length_le
    have hcount := h.filled.indexCount
    have hlt := d.readNat_lt 8 2
    rw [length_sortedValues (fun i => makeIndexKey i.tableName i.columnName)
      fun hl => (h.index_mem hl).2] at hle
    omega
  have hlength : ∀ tableCount indexCount usedBytes, (headerBytes tableCount indexCount usedBytes ++
      entries catalog).length = catalogHeaderSize + (entries catalog).length := by
    intro tableCount indexCount usedBytes
    rw [List.length_append, length_headerBytes]
  refine ⟨_, serialize_of_fits htables hindexes (le_trans hentries hused), ?_, ?_⟩
  · rw [hlength]
    exact hentries
  · have hlt := d.readNat_lt 10 2
    rw [hlength]
    exact readNat_published (le_trans hentries hused) (by omega)

end

/-! ## `Flush` after `Load` -/

open PagedProgram Program BufferPoolManager HashIndex

section

variable {ext : PageId → Nat} {h : Pages} {w w₁ : BufferPoolManager} {d : PageData}
  {catalog : CatalogManager}

theorem openIndexes_valid_runs : ∀ (l : List IndexMetadata) (catalog : CatalogManager),
    catalog.initializationStatus = .ok () → (∀ i ∈ l, ValidHeader h i.headerPageId) →
    Runs (poolContext ext) (openIndexes l catalog) (fun r h' => h' = h ∧
      ((∃ e, r.initializationStatus = .error e) ∨ Installs catalog l r)) h := by
  intro l
  induction l with
  | nil =>
    intro catalog hstatus _
    exact runs_pure ⟨rfl, .inr ⟨⟨hstatus, rfl, by simp, by simp⟩, nofun, List.nodup_nil,
      List.nodup_nil, nofun⟩⟩
  | cons i l ih =>
    intro catalog hstatus hvalid
    rw [openIndexes]
    cases htable : catalog.tables.lookup i.tableName with
    | none => exact runs_pure ⟨rfl, .inl ⟨_, rfl⟩⟩
    | some table =>
      dsimp only
      split
      · exact runs_pure ⟨rfl, .inl ⟨_, rfl⟩⟩
      rename_i hfound
      have hcolumn : HasColumn catalog i.tableName i.columnName := by
        simp only [not_forall, not_not] at hfound
        obtain ⟨column, hmem, hname⟩ := hfound
        exact ⟨table, htable, column, hmem, hname⟩
      refine ((openIndex_runs (hvalid i List.mem_cons_self)).mono fun r h' hr => ?_).bind
      obtain ⟨rfl, rfl⟩ := hr
      dsimp only
      split
      · exact runs_pure ⟨rfl, .inl ⟨_, rfl⟩⟩
      rename_i hnew
      obtain ⟨hkey, hname⟩ := not_or.mp hnew
      refine (ih _ ?_ fun j hj => hvalid j (List.mem_cons_of_mem _ hj)).mono fun r h' hr => ?_
      · exact hstatus
      · obtain ⟨rfl, he | hinstalls⟩ := hr
        · exact ⟨rfl, .inl he⟩
        · exact ⟨rfl, .inr (hinstalls.cons hcolumn hkey hname)⟩

/-- The header pages of the indexes of an image are those of indexes. -/
def HeadersValid (h : Pages) (d : PageData) : Prop :=
  ∀ tables indexes, readCatalog d = (tables, .ok indexes) →
    ∀ i ∈ indexes, ValidHeader h i.headerPageId

/-- `Load` leaves the pages as they are. -/
theorem load_valid_runs (hd : h.page headerPageId = some d) (hmagic : d.readNat 0 4 = catalogMagic)
    (hheaders : HeadersValid h d) :
    Runs (poolContext ext) load (fun r h' => h' = h ∧
      ((∃ e, r.initializationStatus = .error e) ∨ ∃ tables indexes, Accepted d tables indexes r ∧
        ∀ i ∈ indexes, ValidHeader h i.headerPageId)) h := by
  unfold load
  refine runs_fetchPage hd fun f => ?_
  dsimp only
  rw [if_neg (by rw [hmagic]; decide)]
  split
  · exact holding_unpinPage (.inr rfl) (runs_pure ⟨rfl, .inl ⟨_, rfl⟩⟩)
  rename_i tables pending hread
  have hvalid := hheaders _ _ hread
  obtain ⟨l, hfilled, rfl⟩ := readCatalog_ok hread
  refine holding_unpinPage (.inr rfl) ?_
  refine (openIndexes_valid_runs pending _ rfl hvalid).mono fun r h' hr => ?_
  obtain ⟨rfl, he | hinstalls⟩ := hr
  · exact ⟨rfl, .inl he⟩
  · exact ⟨rfl, .inr ⟨l, pending, hinstalls.accepted hfilled, hvalid⟩⟩

theorem flush_runs {serialized : Bytes} (hd : h.page headerPageId = some d)
    (hs : serialize catalog = .ok serialized) (hstatus : catalog.initializationStatus = .ok ()) :
    Runs (poolContext ext) (flush catalog) (fun r h' =>
      r = (.ok (), catalog) ∧ h' = h.set headerPageId (published serialized)) h := by
  unfold flush
  refine ((persist_runs hd hs).mono fun r h' hr => ?_).bind
  obtain ⟨rfl, rfl⟩ := hr
  have hsame : { catalog with initializationStatus := .ok () } = catalog := by rw [← hstatus]
  dsimp only
  rw [hsame]
  exact runs_pure ⟨rfl, rfl⟩

/-- A `Flush` that succeeds has stored the bytes of the catalog on the disk. -/
theorem flush_disk {w' : BufferPoolManager} {serialized : Bytes} {catalog' : CatalogManager}
    (hw : w.Coherent) (hs : serialize catalog = .ok serialized)
    (hrun : (flush catalog).run w = some ((.ok (), catalog'), w')) :
    w'.disk.pages headerPageId = published serialized := by
  have hpersist := persist_run hw catalog
  rw [hs] at hpersist
  obtain ⟨r, v, hp, hcases⟩ := hpersist
  unfold flush at hrun
  rw [run_bind, hp, Option.bind_some] at hrun
  have hfail : ∀ e, r ≠ .error e := by
    rintro e rfl
    cases hrun
  obtain ⟨-, ⟨e, he⟩, -⟩ | ⟨-, -, -, hwrite⟩ := hcases
  · exact absurd he (hfail e)
  · split at hwrite
    · obtain ⟨e, he⟩ := hwrite
      exact absurd he (hfail e)
    · obtain ⟨rfl, hdisk⟩ := hwrite
      cases hrun
      exact hdisk

/-- After `Load` of a catalog page, `Flush` stores the catalog in no more bytes than the page used;
another `Load` reads the same catalog, and another `Flush`, of either, stores the same bytes. -/
theorem flush_after_load (hw : Holds ext w h) (hd : h.page headerPageId = some d)
    (hmagic : d.readNat 0 4 = catalogMagic) (hheaders : HeadersValid h d)
    (hload : load.run w = some (catalog, w₁)) (hstatus : catalog.initializationStatus = .ok ()) :
    ∃ serialized w₂ catalog' w₃, (flush catalog).run w₁ = some ((.ok (), catalog), w₂) ∧
      w₂.disk.pages headerPageId = published serialized ∧
      (published serialized).readNat 10 2 = serialized.length ∧ serialized.length ≤ d.readNat 10 2 ∧
      load.run w₂ = some (catalog', w₃) ∧ Same catalog catalog' ∧
      (∃ w₄, (flush catalog).run w₂ = some ((.ok (), catalog), w₄) ∧
        w₄.disk.pages headerPageId = published serialized) ∧
      ∃ w₄, (flush catalog').run w₃ = some ((.ok (), catalog'), w₄) ∧
        w₄.disk.pages headerPageId = published serialized := by
  have hrunsLoad : Runs (poolContext ext) load _ h := load_valid_runs hd hmagic hheaders
  obtain ⟨_, _, h₁, hrun, ⟨hquiet, hcases⟩, hw₁, -⟩ := run_of_runs hw hrunsLoad
  rw [hquiet] at hw₁
  rw [hload] at hrun
  cases hrun
  obtain ⟨e, he⟩ | ⟨tables, indexes, haccepted, hvalid⟩ := hcases
  · rw [hstatus] at he
    cases he
  obtain ⟨serialized, hs, hlength, hused⟩ := haccepted.serialize_ok
  have hflush : Runs (poolContext ext) (flush catalog) _ h := flush_runs hd hs hstatus
  obtain ⟨_, w₂, _, hrun, ⟨rfl, rfl⟩, hw₂, -⟩ := run_of_runs hw₁ hflush
  have hpage : (h.set headerPageId (published serialized)).page headerPageId =
      some (published serialized) := Heap.page_set_self ..
  have hkept : ∀ key index, catalog.indexes.lookup key = some index →
      ValidHeader (h.set headerPageId (published serialized)) index.headerPageId := by
    intro key index hl
    obtain ⟨hpos, d', hd', hchecks⟩ := hvalid index (haccepted.index_mem hl).1
    refine ⟨hpos, d', ?_, hchecks⟩
    rw [Heap.page_set_of_ne, hd']
    intro he
    rw [he] at hpos
    exact absurd hpos (by decide)
  have hreload : Runs (poolContext ext) load _ (h.set headerPageId (published serialized)) :=
    load_runs hpage (.inr ⟨serialized, hs, rfl⟩) haccepted.wellFormed hkept
  obtain ⟨catalog', w₃, h₃, hrun', ⟨hquiet', hcases⟩, hw₃, -⟩ := run_of_runs hw₂ hreload
  rw [hquiet'] at hw₃
  obtain ⟨-, hsame⟩ | ⟨hnot, -⟩ := hcases
  · have hs' : serialize catalog' = .ok serialized := hsame.serialize_eq.trans hs
    have hagain : Runs (poolContext ext) (flush catalog) _
        (h.set headerPageId (published serialized)) := flush_runs hpage hs hstatus
    have hagain' : Runs (poolContext ext) (flush catalog') _
        (h.set headerPageId (published serialized)) :=
      flush_runs hpage hs' (hsame.status.trans hstatus)
    obtain ⟨_, w₄, _, hrun₄, ⟨rfl, -⟩, -, -⟩ := run_of_runs hw₂ hagain
    obtain ⟨_, w₅, _, hrun₅, ⟨rfl, -⟩, -, -⟩ := run_of_runs hw₃ hagain'
    exact ⟨serialized, w₂, catalog', w₃, hrun, flush_disk hw₁.coherent hs hrun, hused,
      hlength, hrun', hsame, ⟨w₄, hrun₄, flush_disk hw₂.coherent hs hrun₄⟩,
      w₅, hrun₅, flush_disk hw₃.coherent hs' hrun₅⟩
  · exact absurd haccepted.columnsNamed hnot

end

/-- A page with two tables of the same name, set reserved bytes, and an index. -/
def looseCatalog : PageData := Image.zero.splice 0
  ([67, 65, 84, 49, 1, 0, 2, 0, 1, 0, 75, 0, 9, 9, 9, 9] ++
    ([22, 0, 1, 0, 1, 0, 7, 7, 1, 0, 0, 0, 116, 1, 0, 0, 5, 4, 0, 0, 0, 97] ++
      ([22, 0, 1, 0, 1, 0, 7, 7, 3, 0, 0, 0, 116, 1, 0, 0, 5, 4, 0, 0, 0, 98] ++
        [15, 0, 1, 0, 1, 0, 1, 0, 2, 0, 0, 0, 105, 116, 97])))

/-- A file with that page, and the header page of an index. -/
def looseFile : DiskManager where
  pages p := if p = headerPageId then looseCatalog
    else (HashIndexHeaderPage.init (Page.view 2 Image.zero) 1 64).2.data
  numPages := 4
  freePages := [3]
  faults := DiskFaults.none
  ops := 1
  numPages_pos := by decide
  numPages_le := by decide
  free_sorted := List.pairwise_singleton _ _
  free_range p hp := by
    rw [List.mem_singleton.mp hp]
    decide

theorem headersValid_looseCatalog : HeadersValid (pagesOf looseFile) looseCatalog := by
  intro tables indexes hread i hi
  have hindexes : (readCatalog looseCatalog).2.toOption =
      some [⟨[105], [116], [97], 2⟩] := by decide +kernel
  rw [hread] at hindexes
  cases hindexes
  obtain rfl := List.mem_singleton.mp hi
  refine ⟨by decide, _, page_pagesOf (by decide), ?_, ?_⟩
  · decide +kernel
  · decide +kernel

theorem flush_after_load_loose : ∃ serialized w₁ w₂ catalog catalog' w₃,
    load.run (BufferPoolManager.new 1 looseFile) = some (catalog, w₁) ∧
      (flush catalog).run w₁ = some ((.ok (), catalog), w₂) ∧ serialized.length ≤ 75 ∧
      w₂.disk.pages headerPageId = published serialized ∧
      load.run w₂ = some (catalog', w₃) ∧ Same catalog catalog' := by
  have hstatus : ((load.run (BufferPoolManager.new 1 looseFile)).map fun r =>
      r.1.initializationStatus.isOk) = some true := by decide +kernel
  cases hload : load.run (BufferPoolManager.new 1 looseFile) with
  | none =>
    rw [hload] at hstatus
    cases hstatus
  | some r =>
    obtain ⟨catalog, w₁⟩ := r
    rw [hload] at hstatus
    have hok : catalog.initializationStatus = .ok () := by
      cases he : catalog.initializationStatus with
      | ok => rfl
      | error e =>
        rw [Option.map_some, he] at hstatus
        cases hstatus
    have hpage : (pagesOf looseFile).page headerPageId = some looseCatalog :=
      page_pagesOf (by decide)
    obtain ⟨serialized, w₂, catalog', w₃, hflush, hdisk, -, hle, hreload, hsame, -⟩ :=
      flush_after_load (holds_new Nat.one_pos DiskFaults.none_reliable) hpage (by decide +kernel)
        headersValid_looseCatalog hload hok
    have hused : looseCatalog.readNat 10 2 = 75 := by decide +kernel
    rw [hused] at hle
    exact ⟨serialized, w₁, w₂, catalog, catalog', w₃, rfl, hflush, hle, hdisk, hreload, hsame⟩

end CatalogManager

end MiniDbms
