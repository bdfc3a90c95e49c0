import MiniDbms.Database.Publication
import MiniDbms.Query.Executor
import MiniDbms.Query.Scans

/-!
# CREATE TABLE and CREATE INDEX

What the two statements do to a database: they publish a new table or a new index that is loaded, or
fail and leave the catalog and the contents of all tables and indexes as they were, with every page
they allocated freed again (`executeCreateTable_runs`, `executeCreateIndex_runs`).
-/

namespace MiniDbms

open Lib PagedProgram Program HashIndex HeapFile StringMap CatalogManager

namespace QueryExecutor

variable {ext : PageId → Nat} {h h' : Pages} {catalog : CatalogManager} {d : PageData}
  {c : Contents} {name : Bytes} {schema : Schema} {p : PageId}

/-! ## New tables -/

/-- The first page of a new table is an empty heap file, or nothing was allocated. -/
theorem newTablePage_runs : Runs (poolContext ext) newTablePage (fun r h' =>
    (∃ p, r = .ok p ∧ h.page p = none ∧ ext p = 0 ∧ HeapHolds h' p [(p, [])] ∧
      ∀ q, q ≠ p → h'.page q = h.page q) ∨
    (∃ e, r = .error e ∧ h'.page = h.page)) h := by
  refine runs_newPage ?_ fun n f hn hgood hshared => ?_
  · exact runs_pure (.inr ⟨_, rfl, rfl⟩)
  have hpos : 0 < n.toInt := hgood
  obtain ⟨data, hinit, hstores⟩ := SlottedPage.init_stores (Page.view n (poolContext ext).blank)
    (ne_invalid_of_pos hpos)
  dsimp only
  rw [hinit]
  refine holding_writePage rfl ?_
  rw [Heap.set_set]
  refine holding_unpinPage_flushPage (.inl rfl) rfl ?_
  refine runs_pure
    (.inl ⟨n, rfl, hn, Nat.eq_zero_of_not_pos hshared, ⟨⟨rfl, hpos, data, _, ?_, hstores,
    rfl⟩, List.nodup_singleton _, nofun⟩, fun q hq => Heap.page_set_of_ne h hq _⟩)
  exact Heap.page_set_self _ _ _

/-- Deleting the only page of a new part brings the pages back. -/
theorem page_drop_eq (hp : h.page p = none) (hsame : ∀ q, q ≠ p → h'.page q = h.page q) :
    (h'.drop p).page = h.page := by
  funext q
  rw [Heap.page_drop]
  split
  · rename_i hq
    rw [hq, hp]
  · rename_i hq
    exact hsame q hq

theorem makeColumns_named : ∀ (definitions : List ColumnDefinition) (names : List Bytes)
    (schema : Schema), makeColumns names definitions = .ok schema →
    ∀ column ∈ schema, column.name ≠ [] := by
  intro definitions
  induction definitions with
  | nil =>
    intro names schema hs
    cases hs
    nofun
  | cons definition definitions ih =>
    intro names schema hs
    rw [makeColumns] at hs
    cases hcolumn : makeColumn names definition with
    | error e =>
      rw [hcolumn] at hs
      cases hs
    | ok column =>
      rw [hcolumn] at hs
      cases hrest : makeColumns (definition.name :: names) definitions with
      | error e =>
        rw [hrest] at hs
        cases hs
      | ok columns =>
        rw [hrest] at hs
        cases hs
        intro x hx
        rcases List.mem_cons.mp hx with rfl | hx
        · unfold makeColumn at hcolumn
          split at hcolumn
          · cases hcolumn
          rename_i hname
          rw [not_or] at hname
          dsimp only at hcolumn
          split at hcolumn
          · cases hcolumn
            exact hname.1
          split at hcolumn
          · cases hcolumn
            exact hname.1
          split at hcolumn
          · cases hcolumn
            exact hname.1
          · cases hcolumn
        · exact ih _ _ hrest x hx

/-- A statement that has failed: the catalog is the same, and so are the contents. -/
def Unchanged (catalog : CatalogManager) (d : PageData) (c : Contents)
    (r : Except Status Unit × CatalogManager) (h' : Pages) : Prop :=
  (∃ e, r.1 = .error e) ∧ r.2 = catalog ∧ ∃ c', DatabaseHolds h' catalog d c' ∧
    c'.chain = c.chain ∧ ∀ x, catalog.IsHeader x → c'.buckets x = c.buckets x

theorem unchanged_of_page_eq {e : Status} (hd : DatabaseHolds h catalog d c)
    (hpage : h'.page = h.page) : Unchanged catalog d c (.error e, catalog) h' :=
  ⟨⟨e, rfl⟩, rfl, c, ⟨hd.wellFormed, hd.storage.of_page_eq hpage, hd.firstPages, hd.headers,
    hd.serialized, hd.indexed⟩, rfl, fun _ _ => rfl⟩

/-- The cleanup of a CREATE TABLE that fails after it has allocated its page. -/
theorem dropTablePage_runs (hd : DatabaseHolds h catalog d c) (hp : h.page p = none)
    (hext : ext p = 0)
    (hh : HeapHolds h' p [(p, [])]) (hsame : ∀ q, q ≠ p → h'.page q = h.page q) (e : Status) :
    Runs (poolContext ext) (do
      let .true ← (PagedProgram.deletePage p : Program Bool)
        | return (.error ⟨.ioError, str "CREATE TABLE failed: " ++ e.msg ++
            str "; allocated page cleanup failed"⟩, catalog)
      return (Except.error e, catalog)) (Unchanged catalog d c) h' := by
  refine runs_deletePage (hh.page_ne_none List.mem_cons_self) (hh.positive List.mem_cons_self) ?_
    (runs_pure (unchanged_of_page_eq hd (page_drop_eq hp hsame)))
  show ¬ 0 < ext p
  omega

/-- CREATE TABLE publishes an empty table, or changes nothing. -/
theorem executeCreateTable_runs (hd : DatabaseHolds h catalog d c) (create : CreateTableStatement) :
    Runs (poolContext ext) (executeCreateTable catalog create) (fun r h' =>
      (∃ schema p serialized, r = (.ok (), catalog.withTable create.tableName schema p) ∧
        makeColumns [] create.columns = .ok schema ∧ create.tableName ∉ catalog.tables ∧
        CatalogManager.serialize (catalog.withTable create.tableName schema p) = .ok serialized ∧
        h.page p = none ∧
        DatabaseHolds h' (catalog.withTable create.tableName schema p) (published serialized)
          (c.setChain p [(p, [])])) ∨
      Unchanged catalog d c r h') h := by
  unfold executeCreateTable
  split
  · exact runs_pure (.inr (unchanged_of_page_eq hd rfl))
  split
  · exact runs_pure (.inr (unchanged_of_page_eq hd rfl))
  split
  · exact runs_pure (.inr (unchanged_of_page_eq hd rfl))
  rename_i schema hschema
  refine (newTablePage_runs.mono fun r h₁ hr => ?_).bind
  rcases hr with ⟨p, rfl, hp, hext, hh, hsame⟩ | ⟨e, rfl, hpage⟩
  swap
  · exact runs_pure (.inr (unchanged_of_page_eq hd hpage))
  dsimp only
  have hpos : 0 < p.toInt := hh.positive List.mem_cons_self
  have hfoot : Footprint h [] h₁ [p] := by
    refine ⟨fun x _ hx => hsame x fun he => hx (List.mem_singleton.mpr he), fun x hx _ => ?_,
        fun x hx => absurd hx List.not_mem_nil⟩
    rw [List.mem_singleton.mp hx, hp]
  have hcleanup : ∀ e : Status, Runs (poolContext ext) _ (Unchanged catalog d c) h₁ :=
    dropTablePage_runs hd hp hext hh hsame
  by_cases hacc : ∃ changed, (Change.createTable create.tableName schema p).Accepts catalog changed
  · obtain ⟨changed, hacc⟩ := hacc
    obtain ⟨-, hname, -, -, hnew, rfl⟩ := id hacc
    have hd₁ : h₁.page headerPageId = some d := by
      rw [hsame _ (fun he => by rw [← he, toInt_headerPageId] at hpos; omega),
        hd.storage.catalogPage]
      rfl
    cases hser : CatalogManager.serialize (catalog.withTable create.tableName schema p) with
    | ok serialized =>
      have hexec : Runs (poolContext ext) (catalog.createTable create.tableName schema p) _ h₁ :=
        Change.exec_ok_runs hacc hd₁ hser
      refine (hexec.mono fun r h₂ hr => ?_).bind
      obtain ⟨rfl, rfl⟩ := hr
      exact runs_pure (.inl ⟨schema, p, serialized, rfl, hschema, hnew, hser, hp,
        hd.publishTable hname hnew hp hh hfoot⟩)
    | error e =>
      have hexec : catalog.createTable create.tableName schema p = pure (.error e, catalog) :=
        Change.exec_unserializable hacc hser
      rw [hexec]
      exact (hcleanup e).mono fun r h' hr => .inr hr
  · obtain ⟨e, hexec⟩ := Change.exec_rejected fun changed hc => hacc ⟨changed, hc⟩
    have hexec : catalog.createTable create.tableName schema p = pure (.error e, catalog) := hexec
    rw [hexec]
    exact (hcleanup e).mono fun r h' hr => .inr hr

/-! ## Loading an index -/

variable {table : TableMetadata} {k : Nat} {x : PageId} {b : Buckets}

/-- The index has the pairs of the given records, and no others. -/
structure Loaded (schema : Schema) (k : Nat) (records : List Record) (pairs : Set Entry) :
    Prop where
  encodable : ∀ record ∈ records, ∃ v, RecordCodec.getValue schema record.data k = .ok v ∧
    (v = .null ∨ ∃ key, IndexKey.encode v = .ok key)
  pairs : ∀ e, e ∈ pairs ↔ ∃ record ∈ records, e.2 = record.rid ∧ HasKey schema k record.data e.1

theorem loaded_nil (schema : Schema) (k : Nat) : Loaded schema k [] ∅ :=
  ⟨nofun, fun _ => ⟨fun he => he.elim, fun ⟨_, hr, _⟩ => nomatch hr⟩⟩

/-- A record without a key adds nothing. -/
theorem Loaded.skip {records : List Record} {record : Record} {pairs : Set Entry}
    (hl : Loaded schema k records pairs)
    (hv : RecordCodec.getValue schema record.data k = .ok .null) :
    Loaded schema k (records ++ [record]) pairs := by
  refine ⟨fun r hr => ?_, fun e => ?_⟩
  · rcases List.mem_append.mp hr with hr | hr
    · exact hl.encodable r hr
    · rw [List.mem_singleton.mp hr]
      exact ⟨.null, hv, .inl rfl⟩
  · rw [hl.pairs]
    constructor
    · rintro ⟨r, hr, he⟩
      exact ⟨r, List.mem_append_left _ hr, he⟩
    · rintro ⟨r, hr, he, v, hget, hkey⟩
      rcases List.mem_append.mp hr with hr | hr
      · exact ⟨r, hr, he, v, hget, hkey⟩
      · rw [List.mem_singleton.mp hr, hv] at hget
        cases hget
        exact absurd rfl (IndexKey.ne_null_of_encode hkey)

/-- A record with a key adds one pair. -/
theorem Loaded.insert {records : List Record} {record : Record} {pairs : Set Entry} {v : FieldValue}
    {key : Bytes} (hl : Loaded schema k records pairs)
    (hv : RecordCodec.getValue schema record.data k = .ok v) (hkey : IndexKey.encode v = .ok key) :
    Loaded schema k (records ++ [record]) (Insert.insert (key, record.rid) pairs) := by
  refine ⟨fun r hr => ?_, fun e => ?_⟩
  · rcases List.mem_append.mp hr with hr | hr
    · exact hl.encodable r hr
    · rw [List.mem_singleton.mp hr]
      exact ⟨v, hv, .inr ⟨key, hkey⟩⟩
  · rw [Set.mem_insert_iff, hl.pairs]
    constructor
    · rintro (rfl | ⟨r, hr, he⟩)
      · exact ⟨record, List.mem_append_right _ List.mem_cons_self, rfl, v, hv, hkey⟩
      · exact ⟨r, List.mem_append_left _ hr, he⟩
    · rintro ⟨r, hr, he, v', hget, hkey'⟩
      rcases List.mem_append.mp hr with hr | hr
      · exact .inr ⟨r, hr, he, v', hget, hkey'⟩
      · rw [List.mem_singleton.mp hr] at he hget
        rw [hv] at hget
        cases hget
        rw [hkey] at hkey'
        cases hkey'
        exact .inl (Prod.ext rfl he)

theorem Loaded.indexed {p : PageId} {chain : Chain} {pairs : Set Entry} (hh : HeapHolds h p chain)
    (hl : Loaded schema k chain.records pairs) : Indexed schema chain k pairs := by
  have hmem : ∀ record, record ∈ chain.records ↔ chain.record record.rid = some record.data :=
    fun record => Chain.mem_records hh.holds.bounded hh.nodup
  refine ⟨fun rid data hr => hl.encodable ⟨rid, data⟩ ((hmem _).mpr hr), fun e => ?_⟩
  rw [hl.pairs]
  constructor
  · rintro ⟨record, hr, he, hkey⟩
    refine ⟨record.data, ?_, hkey⟩
    rw [he]
    exact (hmem record).mp hr
  · rintro ⟨data, hr, hkey⟩
    exact ⟨⟨e.2, data⟩, (hmem _).mpr hr, rfl, hkey⟩

/-- The loop enters the records that are left, or stops with an error; only the pages of the index
change. -/
theorem loadIndexLoop_runs {s : Parts} (hp : s.tables p) (hx : s.indexes x) :
    ∀ (fuel : Nat) (records before : List Record) (state : SeqScanState) (b : Buckets) (h : Pages),
      StorageHolds h s (c.setBuckets x b) → before ++ records = (c.chain p).records →
      SeqScanOperator.Rest (c.chain p) records state → Loaded schema k before b.pairs →
      (∀ record ∈ records, 0 < record.rid.pageId.toInt) → records.length < fuel →
      Runs (poolContext ext) (loadIndexLoop schema k x p fuel state) (fun r h' => ∃ b',
        StorageHolds h' s (c.setBuckets x b') ∧
        ((r = .ok () ∧ Loaded schema k (c.chain p).records b'.pairs) ∨ ∃ e, r = .error e)) h := by
  intro fuel
  induction fuel with
  | zero => exact fun _ _ _ _ _ _ _ _ _ _ hlt => absurd hlt (Nat.not_lt_zero _)
  | succ fuel ih =>
    intro records before state b h hs hsplit hrest hl hpos hlt
    have hh : HeapHolds h p (c.chain p) := hs.heap p hp
    rw [loadIndexLoop]
    cases records with
    | nil =>
      refine ((SeqScanOperator.next_runs_nil hh hrest).mono fun r h' hr => ?_).bind
      obtain ⟨r, state'⟩ := r
      obtain ⟨rfl, rfl, hstatus⟩ := hr
      rw [List.append_nil] at hsplit
      rw [hsplit] at hl
      refine runs_pure ⟨b, hs, .inl ⟨?_, hl⟩⟩
      exact hstatus
    | cons record records =>
      refine ((SeqScanOperator.next_runs_cons hh hrest).mono fun r h' hr => ?_).bind
      obtain ⟨r, state'⟩ := r
      obtain ⟨rfl, rfl, hrest'⟩ := hr
      have hsplit' : (before ++ [record]) ++ records = (c.chain p).records := by
        rw [List.append_assoc, List.singleton_append, hsplit]
      have hpos' : ∀ r ∈ records, 0 < r.rid.pageId.toInt := fun r hr =>
        hpos r (List.mem_cons_of_mem _ hr)
      have hlt' : records.length < fuel := by
        rw [List.length_cons] at hlt
        omega
      dsimp only
      cases hv : RecordCodec.getValue schema record.data k with
      | error e => exact runs_pure ⟨b, hs, .inr ⟨e, rfl⟩⟩
      | ok v =>
        dsimp only
        split
        · rename_i hnull
          subst hnull
          exact ih records _ state' b _ hs hsplit' hrest' (hl.skip hv) hpos' hlt'
        · cases hkey : IndexKey.encode v with
          | error e => exact runs_pure ⟨b, hs, .inr ⟨e, rfl⟩⟩
          | ok key =>
            dsimp only
            obtain ⟨hne, hlen⟩ := IndexKey.length_encode hkey
            have hi : IndexHolds h' x b := by
              have hi := hs.index x hx
              rw [Contents.buckets_setBuckets_self] at hi
              exact hi
            have hvalid : ValidPair (key, record.rid) := ⟨hne, hlen, hpos record List.mem_cons_self⟩
            refine ((insert_changes hi hvalid).mono fun r h₂ hr => ?_).bind
            rcases hr with ⟨rfl, b', hc, hpairs⟩ | ⟨e, rfl, -, hpage, -⟩
            · have hc' : HashIndex.Changes h' x ((c.setBuckets x b).buckets x)
                  (bucketOf b.count key) h₂ b' := by
                rw [Contents.buckets_setBuckets_self]
                exact hc
              have hs' := hs.changeIndex hx hc'
              rw [Contents.setBuckets_setBuckets] at hs'
              refine ih records _ state' b' h₂ hs' hsplit' hrest' ?_ hpos' hlt'
              rw [hpairs]
              exact hl.insert hv hkey
            · exact runs_pure ⟨b, hs.of_page_eq hpage, .inr ⟨e, rfl⟩⟩

/-! ## New indexes -/

/-- Another index holds what it likes when it is not in the catalog. -/
theorem DatabaseHolds.setBuckets (hd : DatabaseHolds h catalog d c) (hx : ¬ catalog.IsHeader x)
    (hs : StorageHolds h' (catalog.parts d) (c.setBuckets x b)) :
    DatabaseHolds h' catalog d (c.setBuckets x b) where
  wellFormed := hd.wellFormed
  storage := hs
  firstPages := hd.firstPages
  headers := hd.headers
  serialized := hd.serialized
  indexed {key index table k} hi ht hk := by
    rw [Contents.buckets_setBuckets_of_ne]
    · exact hd.indexed hi ht hk
    · rintro rfl
      exact hx ⟨key, index, hi, rfl⟩

/-- Destroying an index that is not in the catalog. -/
theorem destroy_unlisted (hd : DatabaseHolds h catalog d c) (hx : ¬ catalog.IsHeader x)
    (hext : ∀ q, ext q = 0)
    (hs : StorageHolds h' ((catalog.parts d).addIndex x) (c.setBuckets x b)) (e : Status) :
    Runs (poolContext ext) (HashIndex.destroy x) (fun r h'' => r = .ok () ∧
      Unchanged catalog d c (.error e, catalog) h'') h' := by
  have hi : IndexHolds h' x b := by
    have hi := hs.index x (.inr rfl)
    rw [Contents.buckets_setBuckets_self] at hi
    exact hi
  refine (destroy_runs hi fun q _ => hext q).mono fun r h'' hr => ?_
  obtain ⟨rfl, -, hpage⟩ := hr
  have hown : (c.setBuckets x b).own (.index x) = b.pages x := by
    rw [Contents.own, Contents.buckets_setBuckets_self]
  have hfoot : Footprint h' ((c.setBuckets x b).own (.index x)) h'' [] := by
    rw [hown]
    refine ⟨fun q hq _ => ?_, List.forall_mem_nil _, fun q hq _ => ?_⟩
    · rw [hpage, if_neg hq]
    · rw [hpage, if_pos hq]
  have hstorage : StorageHolds h'' (catalog.parts d) (c.setBuckets x b) := by
    have ho : ((catalog.parts d).addIndex x).owners (.index x) := Or.inr rfl
    refine hs.remove ho hfoot rfl fun o => ?_
    cases o with
    | catalog => exact ⟨fun _ => ⟨trivial, fun he => by cases he⟩, fun _ => trivial⟩
    | table q => exact ⟨fun hq => ⟨hq, fun he => by cases he⟩, fun hq => hq.1⟩
    | index y =>
      constructor
      · intro hy
        refine ⟨.inl hy, fun he => hx ?_⟩
        rw [← Owner.index.inj he]
        exact hy
      · rintro ⟨hy | rfl, hne⟩
        · exact hy
        · exact absurd rfl hne
  refine ⟨rfl, ⟨e, rfl⟩, rfl, _, DatabaseHolds.setBuckets hd hx hstorage, rfl, fun y hy => ?_⟩
  exact Contents.buckets_setBuckets_of_ne fun he => hx (he ▸ hy)

/-- CREATE INDEX publishes an index that has the keys of all records, or changes nothing. -/
theorem executeCreateIndex_runs (hd : DatabaseHolds h catalog d c) (hext : ∀ q, ext q = 0)
    (hcolumns : ColumnsNamed catalog) {create : CreateIndexStatement}
    (hname : create.indexName ≠ []) :
    Runs (poolContext ext) (executeCreateIndex catalog create) (fun r h' =>
      (∃ x b serialized,
        r = (.ok (), catalog.withIndex create.indexName create.tableName create.columnName x) ∧
        makeIndexKey create.tableName create.columnName ∉ catalog.indexes ∧
        CatalogManager.serialize
          (catalog.withIndex create.indexName create.tableName create.columnName x) =
            .ok serialized ∧ h.page x = none ∧
        DatabaseHolds h' (catalog.withIndex create.indexName create.tableName create.columnName x)
          (published serialized) (c.setBuckets x b)) ∨
      Unchanged catalog d c r h') h := by
  have hw := hd.wellFormed
  unfold executeCreateIndex
  split
  · exact runs_pure (.inr (unchanged_of_page_eq hd rfl))
  rename_i hindex
  split
  · exact runs_pure (.inr (unchanged_of_page_eq hd rfl))
  rename_i hindexName
  have hkey : makeIndexKey create.tableName create.columnName ∉ catalog.indexes := by
    intro hin
    apply hindex
    rw [hasIndex, hw.status, decide_eq_true hin]
    rfl
  have hnew : create.indexName ∉ catalog.indexNames := by
    intro hin
    apply hindexName
    rw [hasIndexName, hw.status, decide_eq_true hin]
    rfl
  cases ht : catalog.tables.lookup create.tableName with
  | none =>
    rw [getTableSchema, hw.status]
    dsimp only
    rw [ht]
    exact runs_pure (.inr (unchanged_of_page_eq hd rfl))
  | some table =>
  rw [getTableSchema, getTableFirstPageId, hw.status]
  dsimp only
  rw [ht]
  simp only [Bind.bind, Except.bind]
  cases hk : table.schema.columnIndex create.columnName with
  | none =>
    rw [findColumn, hk]
    exact runs_pure (.inr (unchanged_of_page_eq hd rfl))
  | some k =>
  rw [findColumn, hk]
  dsimp only
  refine ((create_runs (by decide) (by decide)).mono fun r h₁ hr => ?_).bind
  rcases hr with ⟨x, data, rfl, hx, hset, hi⟩ | ⟨e, rfl, -, rfl⟩
  swap
  · exact runs_pure (.inr (unchanged_of_page_eq hd rfl))
  dsimp only
  have hheader : ¬ catalog.IsHeader x := fun hin => hd.page_header hin hx
  have hpages : Buckets.pages x (.empty defaultBucketCount) = [x] := by
    rw [Buckets.pages]
    simp only [Buckets.empty, List.cons.injEq, true_and, List.flatMap_eq_nil_iff]
    exact fun _ _ => rfl
  have hfoot : Footprint h [] h₁ (Buckets.pages x (.empty defaultBucketCount)) := by
    rw [hpages, hset]
    refine ⟨fun q _ hq => Heap.page_set_of_ne h (fun he => hq (List.mem_singleton.mpr he)) data,
      fun q hq _ => ?_, fun q hq => absurd hq List.not_mem_nil⟩
    rw [List.mem_singleton.mp hq, hx]
  have hs₁ := hd.storage.addIndex hheader hi hfoot
  have hp : catalog.IsFirstPage table.firstPageId := ⟨create.tableName, table, ht, rfl⟩
  have hh := hd.storage.heap _ hp
  have hmem : ∀ record ∈ (c.chain table.firstPageId).records, 0 < record.rid.pageId.toInt :=
    fun record hr => hh.positive (Chain.pageId_mem_ids hr)
  have hxi : ((catalog.parts d).addIndex x).indexes x := Or.inr rfl
  have hload : Runs (poolContext ext) (loadIndexLoop table.schema k x table.firstPageId scanFuel {})
      _ h₁ := loadIndexLoop_runs (p := table.firstPageId) hp hxi scanFuel _ [] {} _ h₁ hs₁
    (List.nil_append _) (SeqScanOperator.rest_start _)
    (by rw [Buckets.pairs_empty]; exact loaded_nil table.schema k) hmem
    (HeapFile.length_records_lt hh)
  refine (hload.mono fun r h₂ hr => ?_).bind
  obtain ⟨b, hs₂, ⟨rfl, hl⟩ | ⟨e, rfl⟩⟩ := hr
  swap
  · refine Runs.bind (Runs.bind ((destroy_unlisted hd hheader hext hs₂ e).mono fun r h₃ hr => ?_))
    obtain ⟨rfl, hun⟩ := hr
    exact runs_pure (runs_pure (.inr hun))
  dsimp only
  apply runs_flushAllPages
  have hcolumnName : create.columnName ≠ [] := by
    obtain ⟨column, hin, hcolumn⟩ :=
      Schema.columnIndex_isSome.mp (Option.isSome_iff_exists.mpr ⟨k, hk⟩)
    rw [← hcolumn]
    exact hcolumns _ table ht column hin
  have hnames : ¬ (create.indexName = [] ∨ create.tableName = [] ∨ create.columnName = []) := by
    rw [not_or, not_or]
    exact ⟨hname, (hw.table ht).2.1, hcolumnName⟩
  have hacc : (Change.createIndex create.indexName create.tableName create.columnName x).Accepts
      catalog (catalog.withIndex create.indexName create.tableName create.columnName x) :=
    ⟨hw.status, hnames, ⟨table, ht, Schema.columnIndex_isSome.mp
      (Option.isSome_iff_exists.mpr ⟨k, hk⟩)⟩, hkey, hnew, rfl⟩
  have hd₂ : h₂.page headerPageId = some d := hs₂.catalogPage
  cases hser : CatalogManager.serialize
      (catalog.withIndex create.indexName create.tableName create.columnName x) with
  | ok serialized =>
    have hexec : Runs (poolContext ext) (catalog.createIndex create.indexName create.tableName
        create.columnName x) _ h₂ := Change.exec_ok_runs hacc hd₂ hser
    refine hexec.mono fun r h₃ hr => .inl ?_
    obtain ⟨rfl, rfl⟩ := hr
    exact ⟨x, b, serialized, rfl, hkey, hser, hx,
      hd.publishIndex hnames ht hk hkey hnew hx hs₂ (hl.indexed hh)⟩
  | error e =>
    have hexec : catalog.createIndex create.indexName create.tableName create.columnName x = _ :=
      Change.exec_unserializable hacc hser
    rw [hexec]
    refine ((destroy_unlisted hd hheader hext hs₂ e).mono fun r h₃ hr => ?_).bind
    obtain ⟨rfl, hun⟩ := hr
    exact runs_pure (.inr hun)

end QueryExecutor

end MiniDbms
