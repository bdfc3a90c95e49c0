import MiniDbms.Database.RowCalls
import MiniDbms.Query.Databases

/-!
# Databases that SQL texts lead to

What holds in every reached state: each index has exactly the keys of the live records of its table
(`reached_indexes`), each page of the file is free or has one use (`reached_pages`), and a SELECT
without an index returns the rows that satisfy its conditions, in the order of the heap file
(`reached_select`). What operations do there: an UPDATE or a DELETE changes the rows that it selects
(`mutation_effect`), a failed call of `TableStorage` changes none (`rowCall_atomic`), and neither
touches another table (`reached_isolation`).
-/

namespace MiniDbms

open Lib PagedProgram Program HashIndex HeapFile StringMap CatalogManager QueryExecutor

namespace QueryExecutor

/-- The pages hold the heap files and the indexes of the catalog. -/
structure Stored (h : Pages) (catalog : CatalogManager) (c : Contents) : Prop where
  heap : ∀ {name table}, catalog.tables.lookup name = some table →
    HeapHolds h table.firstPageId (c.chain table.firstPageId)
  index : ∀ {key index}, catalog.indexes.lookup key = some index →
    IndexHolds h index.headerPageId (c.buckets index.headerPageId)

theorem stored_of_holds {h : Pages} {catalog : CatalogManager} {d : PageData} {c : Contents}
    (hd : DatabaseHolds h catalog d c) : Stored h catalog c where
  heap := heapHolds_of_lookup hd
  index hi := hd.storage.index _ ⟨_, _, hi, rfl⟩

/-! ## A database with two tables -/

/-- The tables `t` and `u`, an index on `t`, and a row in `t`. -/
def sampleStatements : List SQLStatement :=
  [.createTable ⟨str "t", [⟨str "a", str "INT", 0⟩]⟩,
    .createTable ⟨str "u", [⟨str "b", str "INT", 0⟩]⟩,
    .createIndex ⟨str "i", str "t", str "a"⟩, .insert ⟨str "t", [⟨.number, str "7"⟩]⟩]

theorem reached_sample : ∃ catalog w, Reached 1 catalog w ∧
    (catalog.tables.lookup (str "t")).map TableMetadata.schema = some [⟨str "a", .integer, 4⟩] ∧
    (catalog.indexes.lookup (str "t.a")).isSome := by
  obtain ⟨catalog, w, hreached, hw⟩ := Reached.of_any 1 DiskFaults.none_reliable
    [str "CREATE TABLE t (a INT);", str "CREATE TABLE u (b INT);", str "CREATE INDEX i ON t (a);",
      str "INSERT INTO t VALUES (7);"] sampleStatements
    (fun catalog _ =>
      (catalog.tables.lookup (str "t")).map TableMetadata.schema = some [⟨str "a", .integer, 4⟩] ∧
      (catalog.indexes.lookup (str "t.a")).isSome)
    (by decide +kernel) (by decide +kernel)
  exact ⟨catalog, w, hreached, of_decide_eq_true hw⟩

variable {n : Nat} {catalog : CatalogManager} {w : BufferPoolManager}

/-! ## Indexes -/

/-- The keys that the live records of a table have in an index on the column `k`. -/
def keyPairs (schema : Schema) (k : Nat) (chain : Chain) : Set Entry :=
  {e | ∃ data v, chain.record e.2 = some data ∧ RecordCodec.getValue schema data k = .ok v ∧
    v ≠ .null ∧ IndexKey.encode v = .ok e.1}

theorem Indexed.pairs_eq {schema : Schema} {k : Nat} {chain : Chain} {pairs : Set Entry}
    (hi : Indexed schema chain k pairs) : pairs = keyPairs schema k chain := by
  ext e
  rw [hi.pairs]
  constructor
  · rintro ⟨data, hdata, v, hv, hkey⟩
    exact ⟨data, v, hdata, hv, IndexKey.ne_null_of_encode hkey, hkey⟩
  · rintro ⟨data, v, hdata, hv, -, hkey⟩
    exact ⟨data, hdata, v, hv, hkey⟩

/-- Each index stores the keys of the live records of its table, each once, and nothing else. -/
def IndexesExact (catalog : CatalogManager) (w : BufferPoolManager) : Prop :=
  ∃ h c, Holds (fun _ => 0) w h ∧ Stored h catalog c ∧
    ∀ key index, catalog.indexes.lookup key = some index → ∃ table k,
      catalog.tables.lookup index.tableName = some table ∧
      table.schema.columnIndex index.columnName = some k ∧
      {e | e ∈ (c.buckets index.headerPageId).entries} =
        keyPairs table.schema k (c.chain table.firstPageId) ∧
      (c.buckets index.headerPageId).entries.Nodup

/-- In every reached state the indexes agree with their tables, whether the statements before have
succeeded or failed. -/
theorem reached_indexes (hn : 0 < n) (hr : Reached n catalog w) : IndexesExact catalog w := by
  obtain ⟨h, d, c, hw, hd⟩ := hr.state hn
  have hstored := stored_of_holds hd.toDatabaseHolds
  refine ⟨h, c, hw, hstored, fun key index hi => ?_⟩
  obtain ⟨table, k, ht, hk⟩ := hd.wellFormed.index_column hi
  have hindex := hstored.index hi
  refine ⟨table, k, ht, hk, ?_, hindex.wellFormed.nodup_entries⟩
  rw [← Indexed.pairs_eq (hd.indexed hi ht hk)]
  ext e
  exact hindex.wellFormed.mem_entries hindex.count_pos

theorem sample_indexes : ∃ catalog w, Reached 1 catalog w ∧
    (catalog.indexes.lookup (str "t.a")).isSome ∧ IndexesExact catalog w := by
  obtain ⟨catalog, w, hreached, -, hindex⟩ := reached_sample
  exact ⟨catalog, w, hreached, hindex, reached_indexes Nat.one_pos hreached⟩

/-! ## Pages -/

/-- What a page of the file after page 0 can be. -/
inductive PageUse where
  | free
  | table (name : Bytes)
  | header (key : Bytes)
  | bucket (key : Bytes) (i : Nat)

/-- The page is free, a page of a table, the header page of an index, or a page of the chain of one
of its buckets. -/
def Uses (catalog : CatalogManager) (w : BufferPoolManager) (c : Contents) (p : PageId) :
    PageUse → Prop
  | .free => p ∈ w.disk.freePages
  | .table name => ∃ table, catalog.tables.lookup name = some table ∧
      p ∈ (c.chain table.firstPageId).ids
  | .header key => ∃ index, catalog.indexes.lookup key = some index ∧ p = index.headerPageId
  | .bucket key i => ∃ index, catalog.indexes.lookup key = some index ∧
      i < (c.buckets index.headerPageId).count ∧
      p ∈ chainIds ((c.buckets index.headerPageId).chain i)

/-- Every page after page 0 has exactly one use. The chains have no page twice and end with
`INVALID_PAGE_ID` (`HeapHolds`, `IndexHolds`). -/
def PagesPartitioned (catalog : CatalogManager) (w : BufferPoolManager) : Prop :=
  ∃ h c, Holds (fun _ => 0) w h ∧ Stored h catalog c ∧
    ∀ p : PageId, 1 ≤ p.toInt → p.toInt < w.disk.numPages → ∃! use, Uses catalog w c p use

/-- The part of the database that a page in use belongs to. -/
def OwnedBy (catalog : CatalogManager) : PageUse → Owner → Prop
  | .free, _ => False
  | .table name, o => ∃ table, catalog.tables.lookup name = some table ∧
      o = .table table.firstPageId
  | .header key, o => ∃ index, catalog.indexes.lookup key = some index ∧
      o = .index index.headerPageId
  | .bucket key _, o => ∃ index, catalog.indexes.lookup key = some index ∧
      o = .index index.headerPageId

section

variable {h : Pages} {d : PageData} {c : Contents} {p : PageId} {use use' : PageUse}

theorem Uses.owner (hu : Uses catalog w c p use) (hne : use ≠ .free) :
    ∃ o, OwnedBy catalog use o ∧ (catalog.parts d).owners o ∧ p ∈ c.own o := by
  cases use with
  | free => exact absurd rfl hne
  | table name =>
    obtain ⟨table, ht, hin⟩ := hu
    exact ⟨_, ⟨table, ht, rfl⟩, ⟨name, table, ht, rfl⟩, hin⟩
  | header key =>
    obtain ⟨index, hi, rfl⟩ := hu
    exact ⟨_, ⟨index, hi, rfl⟩, ⟨key, index, hi, rfl⟩, Buckets.mem_pages.mpr (.inl rfl)⟩
  | bucket key i =>
    obtain ⟨index, hi, hlt, hin⟩ := hu
    exact ⟨_, ⟨index, hi, rfl⟩, ⟨key, index, hi, rfl⟩, Buckets.mem_pages_of_chain hlt hin⟩

/-- A free page belongs to nothing. -/
theorem Uses.eq_free (hw : Holds (fun _ => 0) w h) (hd : DatabaseHolds h catalog d c)
    (hp : p ∈ w.disk.freePages) (hu : Uses catalog w c p use) : use = .free := by
  by_contra hne
  obtain ⟨o, -, ho, hin⟩ := hu.owner (d := d) hne
  have hpage := (hd.storage.owned.covers p).mpr ⟨o, ho, hin⟩
  exact ((hw.allocated p).mp hpage).2.2 hp

/-- The header page and the bucket pages of one index are different. -/
theorem Uses.unique_of_index (hd : DatabaseHolds h catalog d c) {key key' : Bytes}
    {index index' : IndexMetadata} (hi : catalog.indexes.lookup key = some index)
    (hi' : catalog.indexes.lookup key' = some index')
    (he : Owner.index index'.headerPageId = .index index.headerPageId) :
    key' = key ∧ index' = index := by
  obtain rfl := hd.headers hi' hi (Owner.index.inj he)
  rw [hi] at hi'
  exact ⟨rfl, (Option.some.inj hi').symm⟩

/-- A page has no second use. -/
theorem Uses.unique (hw : Holds (fun _ => 0) w h) (hd : DatabaseHolds h catalog d c)
    (hu : Uses catalog w c p use) (hu' : Uses catalog w c p use') : use' = use := by
  by_cases hp : p ∈ w.disk.freePages
  · rw [hu.eq_free hw hd hp, hu'.eq_free hw hd hp]
  have hne : ∀ {use}, Uses catalog w c p use → use ≠ .free := by
    rintro _ hu rfl
    exact hp hu
  obtain ⟨o, hown, ho, hin⟩ := hu.owner (d := d) (hne hu)
  obtain ⟨o', hown', ho', hin'⟩ := hu'.owner (d := d) (hne hu')
  obtain rfl := hd.storage.owned.unique _ _ p ho ho' hin hin'
  cases use with
  | free => exact absurd rfl (hne hu)
  | table name =>
    obtain ⟨table, ht, rfl⟩ := hown
    cases use' with
    | free => exact absurd rfl (hne hu')
    | table name' =>
      obtain ⟨table', ht', he⟩ := hown'
      rw [hd.firstPages ht' ht (Owner.table.inj he).symm]
    | header =>
      obtain ⟨_, _, he⟩ := hown'
      cases he
    | bucket =>
      obtain ⟨_, _, he⟩ := hown'
      cases he
  | header key =>
    obtain ⟨index, hi, rfl⟩ := hown
    obtain ⟨index₀, hi₀, rfl⟩ := hu
    cases hi.symm.trans hi₀
    cases use' with
    | free => exact absurd rfl (hne hu')
    | table =>
      obtain ⟨_, _, he⟩ := hown'
      cases he
    | header key' =>
      obtain ⟨index', hi', he⟩ := hown'
      rw [(Uses.unique_of_index hd hi hi' he.symm).1]
    | bucket key' i =>
      obtain ⟨index', hi', he⟩ := hown'
      obtain ⟨rfl, rfl⟩ := Uses.unique_of_index hd hi hi' he.symm
      obtain ⟨index₁, hi₁, hlt, hmem⟩ := hu'
      cases hi.symm.trans hi₁
      exact absurd hmem ((stored_of_holds hd).index hi |>.wellFormed.header i hlt)
  | bucket key i =>
    obtain ⟨index, hi, rfl⟩ := hown
    obtain ⟨index₀, hi₀, hlt, hmem⟩ := hu
    cases hi.symm.trans hi₀
    have hwell := ((stored_of_holds hd).index hi).wellFormed
    cases use' with
    | free => exact absurd rfl (hne hu')
    | table =>
      obtain ⟨_, _, he⟩ := hown'
      cases he
    | header key' =>
      obtain ⟨index', hi', he⟩ := hown'
      obtain ⟨rfl, rfl⟩ := Uses.unique_of_index hd hi hi' he.symm
      obtain ⟨index₁, hi₁, rfl⟩ := hu'
      cases hi.symm.trans hi₁
      exact absurd hmem (hwell.header i hlt)
    | bucket key' j =>
      obtain ⟨index', hi', he⟩ := hown'
      obtain ⟨rfl, rfl⟩ := Uses.unique_of_index hd hi hi' he.symm
      obtain ⟨index₁, hi₁, hlt', hmem'⟩ := hu'
      cases hi.symm.trans hi₁
      by_contra hij
      exact hwell.disjoint i hlt j hlt' (fun he => hij (by rw [he])) p hmem hmem'

/-- Every page after page 0 has a use. -/
theorem exists_use (hw : Holds (fun _ => 0) w h) (hd : DatabaseHolds h catalog d c)
    (hpos : 1 ≤ p.toInt) (hlt : p.toInt < w.disk.numPages) : ∃ use, Uses catalog w c p use := by
  by_cases hp : p ∈ w.disk.freePages
  · exact ⟨.free, hp⟩
  have hpage : h.page p ≠ none := (hw.allocated p).mpr ⟨by omega, hlt, hp⟩
  obtain ⟨o, ho, hin⟩ := (hd.storage.owned.covers p).mp hpage
  cases o with
  | catalog =>
    obtain rfl := List.mem_singleton.mp hin
    rw [toInt_headerPageId] at hpos
    omega
  | table q =>
    obtain ⟨name, table, ht, rfl⟩ := ho
    exact ⟨.table name, table, ht, hin⟩
  | index x =>
    obtain ⟨key, index, hi, rfl⟩ := ho
    rcases Buckets.mem_pages.mp hin with he | ⟨i, hi', hmem⟩
    · exact ⟨.header key, index, hi, he⟩
    · exact ⟨.bucket key i, index, hi, hi', hmem⟩

end

/-- In every reached state no page is leaked and none is in two uses, whether the statements before
have succeeded or failed. -/
theorem reached_pages (hn : 0 < n) (hr : Reached n catalog w) : PagesPartitioned catalog w := by
  obtain ⟨h, d, c, hw, hd⟩ := hr.state hn
  refine ⟨h, c, hw, stored_of_holds hd.toDatabaseHolds, fun p hpos hlt => ?_⟩
  obtain ⟨use, hu⟩ := exists_use hw hd.toDatabaseHolds hpos hlt
  exact ⟨use, hu, fun use' hu' => hu.unique hw hd.toDatabaseHolds hu'⟩

theorem sample_pages : ∃ catalog w, Reached 1 catalog w ∧
    (catalog.indexes.lookup (str "t.a")).isSome ∧ PagesPartitioned catalog w := by
  obtain ⟨catalog, w, hreached, -, hindex⟩ := reached_sample
  exact ⟨catalog, w, hreached, hindex, reached_pages Nat.one_pos hreached⟩

/-! ## SELECT -/

/-- No condition of the SELECT can be answered by an index. -/
def Sequential (catalog : CatalogManager) (select : SelectStatement) : Prop :=
  ∀ condition ∈ select.conditions, condition.op = str "=" →
    catalog.hasIndex select.tableName condition.column = false

theorem findIndexedCondition_none {name : Bytes} {schema : Schema} :
    ∀ {conditions : List Condition}, (∀ condition ∈ conditions, condition.op = str "=" →
      catalog.hasIndex name condition.column = false) →
    findIndexedCondition catalog name schema conditions = .ok none := by
  intro conditions
  induction conditions with
  | nil => exact fun _ => rfl
  | cons condition conditions ih =>
    intro h
    rw [findIndexedCondition, if_pos]
    · exact ih fun x hx => h x (List.mem_cons_of_mem _ hx)
    · by_cases hop : condition.op = str "="
      · exact .inr (h condition List.mem_cons_self hop)
      · exact .inl hop

/-- The column has this number and this name. -/
def IsColumn (schema : Schema) (field : Bytes) (column : Nat × Column) : Prop :=
  schema.columnIndex field = some column.1 ∧ schema[column.1]? = some column.2

/-- The columns that a SELECT of these fields returns: all for `*`. -/
def Asks (schema : Schema) (fields : List Bytes) (columns : List (Nat × Column)) : Prop :=
  if fields = [] ∨ fields.head? = some (str "*") then columns = allColumns schema
  else List.Forall₂ (IsColumn schema) fields columns

section

variable {schema : Schema} {fields : List Bytes} {columns : List (Nat × Column)}

theorem isColumn_getD {field : Bytes} {k : Nat} (hk : schema.columnIndex field = some k) :
    IsColumn schema field (k, schema.getD k ⟨[], .integer, 0⟩) := by
  have hlt := Schema.lt_of_columnIndex hk
  refine ⟨hk, ?_⟩
  rw [List.getD_eq_getElem _ _ hlt, List.getElem?_eq_getElem hlt]

theorem IsColumn.unique {field : Bytes} {x y : Nat × Column} (hx : IsColumn schema field x)
    (hy : IsColumn schema field y) : x = y := by
  obtain ⟨i, a⟩ := x
  obtain ⟨j, b⟩ := y
  obtain ⟨hi, ha⟩ := hx
  obtain ⟨hj, hb⟩ := hy
  cases hi.symm.trans hj
  cases ha.symm.trans hb
  rfl

theorem selectColumns_eq_ok : ∀ {fields : List Bytes} {columns : List (Nat × Column)},
    selectColumns schema fields = .ok columns ↔ List.Forall₂ (IsColumn schema) fields columns := by
  intro fields
  induction fields with
  | nil =>
    intro columns
    rw [List.forall₂_nil_left_iff, selectColumns]
    constructor
    · intro h
      cases h
      rfl
    · rintro rfl
      rfl
  | cons field fields ih =>
    intro columns
    rw [selectColumns, List.forall₂_cons_left_iff]
    cases hk : schema.columnIndex field with
    | none =>
      rw [findColumn, hk]
      refine iff_of_false (fun h => by cases h) ?_
      rintro ⟨column, -, ⟨hk', -⟩, -⟩
      cases hk.symm.trans hk'
    | some k =>
      rw [findColumn_of_some hk]
      dsimp only
      cases hrest : selectColumns schema fields with
      | error e =>
        refine iff_of_false (fun h => by cases h) ?_
        rintro ⟨column, rest, -, hrest', -⟩
        cases hrest.symm.trans (ih.mpr hrest')
      | ok rest =>
        constructor
        · intro h
          cases h
          exact ⟨_, rest, isColumn_getD hk, ih.mp hrest, rfl⟩
        · rintro ⟨column, rest', hcolumn, hrest', rfl⟩
          cases hrest.symm.trans (ih.mpr hrest')
          rw [hcolumn.unique (isColumn_getD hk)]

theorem requested_eq_ok : requested schema fields = .ok columns ↔ Asks schema fields columns := by
  unfold requested Asks
  by_cases hall : fields = [] ∨ fields.head? = some (str "*")
  · rw [if_pos hall, if_neg fun h => hall.elim h.1 h.2]
    constructor
    · intro h
      cases h
      rfl
    · rintro rfl
      rfl
  · rw [not_or] at hall
    rw [if_pos hall, if_neg (not_or.mpr hall), selectColumns_eq_ok]

end

/-- A SELECT without an index returns the values of the requested columns in the rows that satisfy
all conditions, in the order of the heap file. It succeeds if the table and the columns exist, the
literals can be converted, and the rows can be encoded. -/
def SelectsInOrder (catalog : CatalogManager) (w : BufferPoolManager) (select : SelectStatement) :
    Prop :=
  ∃ h c status result w', Holds (fun _ => 0) w h ∧ Stored h catalog c ∧
    (execute catalog (.select select)).run w = some ((status, result, catalog), w') ∧
    (status = .ok () → ∃ table columns records,
      catalog.tables.lookup select.tableName = some table ∧
      Asks table.schema select.fields columns ∧
      (records = (c.chain table.firstPageId).records.filter fun record =>
        SatisfiesAll table.schema select.conditions record.data) ∧
      Selects (c.chain table.firstPageId) table.schema select.conditions records ∧
      (result.columnNames = columns.map fun column => column.2.name) ∧
      result.rows = records.map fun record =>
        pick columns (RecordCodec.decoded table.schema record.data)) ∧
    ∀ table columns, catalog.tables.lookup select.tableName = some table →
      Asks table.schema select.fields columns →
      (∀ condition ∈ select.conditions, ∃ k target, condition.Target table.schema k target) →
      (∀ rid data, (c.chain table.firstPageId).record rid = some data →
        SatisfiesAll table.schema select.conditions data → ∃ encoded,
          RecordCodec.serialize (columns.map Prod.snd)
            (pick columns (RecordCodec.decoded table.schema data)) = .ok encoded) →
      status = .ok ()

theorem execute_select (hc : catalog.initializationStatus = .ok ()) (select : SelectStatement) :
    execute catalog (.select select) = executeSelect catalog select >>= fun r =>
      return (r.1, r.2, catalog) := by
  unfold execute
  rw [hc]

theorem reached_select (hn : 0 < n) (hr : Reached n catalog w) {select : SelectStatement}
    (hseq : Sequential catalog select) : SelectsInOrder catalog w select := by
  obtain ⟨h, d, c, hw, hd⟩ := hr.state hn
  have hstored := stored_of_holds hd.toDatabaseHolds
  have hrun := execute_select hd.wellFormed.status select
  cases ht : catalog.tables.lookup select.tableName with
  | none =>
    refine ⟨h, c, .error (.notFound "Table was not found in catalog"), {}, w, hw, hstored, ?_,
      fun he => ?_, fun table _ ht' => ?_⟩
    · rw [hrun, executeSelect, buildPlan, getTableSchema_none hd.toDatabaseHolds ht]
      rfl
    · cases he
    · cases ht.symm.trans ht'
  | some table =>
    obtain ⟨⟨status, result⟩, w', h', hexec, hdone, -, -⟩ :=
      run_of_runs hw (executeSelect_runs hd ht)
    refine ⟨h, c, status, result, w', hw, hstored, ?_, fun hok => ?_,
      fun table' columns ht' hasks htargets hfits => ?_⟩
    · rw [hrun, run_bind, hexec]
      rfl
    · obtain ⟨columns, records, indexed, hrequested, hfind, hselects, hordered, hreturns⟩ :=
        hdone.returns hok
      rw [findIndexedCondition_none hseq] at hfind
      cases hfind
      exact ⟨table, columns, records, ht, requested_eq_ok.mp hrequested, hordered rfl, hselects,
        hreturns.columnNames, hreturns.rows⟩
    · cases ht.symm.trans ht'
      exact hdone.ok ⟨columns, requested_eq_ok.mpr hasks, htargets,
        ⟨none, findIndexedCondition_none hseq⟩, hfits⟩

/-- `SELECT * FROM t;` -/
def selectAll : SelectStatement := ⟨str "t", [str "*"], [], false⟩

theorem sample_select : ∃ catalog w, Reached 1 catalog w ∧
    (catalog.indexes.lookup (str "t.a")).isSome ∧ SelectsInOrder catalog w selectAll := by
  obtain ⟨catalog, w, hreached, -, hindex⟩ := reached_sample
  have hseq : Sequential catalog selectAll := List.forall_mem_nil _
  exact ⟨catalog, w, hreached, hindex, reached_select Nat.one_pos hreached hseq⟩

/-! ## UPDATE and DELETE -/

section

variable {ext : PageId → Nat} {w₁ : BufferPoolManager} {h : Pages} {d : PageData} {c : Contents}
  {m : Mutation} {plan : Plan} {outputSchema : Schema}

/-- What an UPDATE or a DELETE does from the pool `w`, if its plan is open in the pool `w₁`. The
plan drains to the rows that satisfy the conditions before the statement, each once. The statement
changes exactly the first `rows_affected` of them, which are all when it succeeds, and the database
is consistent again. -/
def Mutates (ext : PageId → Nat) (catalog : CatalogManager) (d : PageData) (c : Contents)
    (m : Mutation) (w w₁ : BufferPoolManager) (plan : Plan) (state : plan.State) : Prop :=
  ∃ table records w₂ status result w' h' c',
    catalog.tables.lookup m.tableName = some table ∧
    (collectLoop plan.operator .ok scanFuel state []).run w₁ = some (.ok records, w₂) ∧
    Selects (c.chain table.firstPageId) table.schema m.conditions records ∧
    (execute catalog m.statement).run w = some ((status, result, catalog), w') ∧ Holds ext w' h' ∧
    result.rowsAffected ≤ records.length ∧
    (status = .ok () → result.rowsAffected = records.length) ∧
    DatabaseHolds h' catalog d c' ∧
    RowsChanged c.chain table.firstPageId Record.rid (fun r => m.NewRow table.schema r.data)
      (records.take result.rowsAffected) c'.chain

/-- The conditions of a parsed statement look up the indexes of its table only. -/
theorem keysSeparateFor_of_parse {text : Bytes} (hw : WellFormed catalog)
    (hparse : Parser.parse (Tokenizer.tokenize text) = .ok m.statement) :
    catalog.KeysSeparateFor m.tableName m.conditions := by
  intro condition hin index hi
  obtain ⟨hkey, -⟩ := hw.index hi
  exact makeIndexKey_inj (undotted_of_parse hparse condition hin) hkey

theorem mutation_effect {state : plan.State} (hw : Holds ext w h) (hd : DatabaseHolds h catalog d c)
    (hkeys : catalog.KeysSeparateFor m.tableName m.conditions)
    (hplan : buildScanPlan catalog m.tableName m.conditions = .ok (plan, outputSchema))
    (hopen : (plan.operator.openOperator plan.state).run w = some ((.ok (), state), w₁)) :
    Mutates ext catalog d c m w w₁ plan state := by
  cases ht : catalog.tables.lookup m.tableName with
  | none =>
    rw [buildScanPlan, buildPlan, getTableSchema_none hd ht] at hplan
    cases hplan
  | some table =>
  rcases buildScanPlan_ok hd hkeys ht hplan with
    hfails | ⟨records, hp, hselects⟩
  · obtain ⟨r, v, -, hrun, ⟨-, e, he⟩, -, -⟩ := run_of_runs hw hfails
    rw [hopen] at hrun
    cases hrun
    cases he
  · obtain ⟨r, v, h₁, hrun, ⟨rfl, -, hy⟩, hv, -⟩ := run_of_runs hw hp
    rw [hopen] at hrun
    cases hrun
    have hlt := length_lt_scanFuel (heapHolds_of_lookup hd ht) hselects.nodup fun record hin =>
      ((hselects.mem record).mp hin).1
    obtain ⟨r, w₂, h₂, hdrain, ⟨rfl, rfl⟩, -, -⟩ := run_of_runs hv
      (collectLoop_runs (f := id) scanFuel records state [] hy (fun _ _ => rfl) hlt)
    rw [List.nil_append, List.map_id] at hdrain
    obtain ⟨⟨status, rows⟩, w', h', hexec, ⟨c', hle, hok, happlied⟩, hw', -⟩ :=
      run_of_runs hw (Mutation.exec_runs hd ht hplan hp hselects)
    refine ⟨table, records, w₂, status, { rowsAffected := rows }, w', h', c', ht, hdrain,
      hselects, ?_, hw', hle, hok, happlied.holds, happlied.rows⟩
    rw [Mutation.execute_eq hd.wellFormed.status, run_bind, hexec]
    rfl

/-- A table with an index and three rows. -/
def keyedStatements : List SQLStatement :=
  [.createTable ⟨str "t", [⟨str "a", str "INT", 0⟩]⟩, .createIndex ⟨str "i", str "t", str "a"⟩,
    .insert ⟨str "t", [⟨.number, str "7"⟩]⟩, .insert ⟨str "t", [⟨.number, str "5"⟩]⟩,
    .insert ⟨str "t", [⟨.number, str "7"⟩]⟩]

/-- `UPDATE t SET a = 8 WHERE a = 7;` -/
def updateSevens : Mutation :=
  .update ⟨str "t", str "a", ⟨.number, str "8"⟩, [⟨str "a", str "=", ⟨.number, str "7"⟩⟩]⟩

/-- The rows that the UPDATE changes. -/
def selectSevens : SelectStatement := ⟨str "t", [str "*"], updateSevens.conditions, false⟩

/-- An UPDATE of two rows in the column whose index its plan scans. -/
theorem sample_mutation : ∃ catalog w w₁ h d c index key plan state, Reached 1 catalog w ∧
    DatabaseState h catalog d c ∧
    plan = (Plan.indexScan index key).filters [⟨str "a", .integer, 4⟩] updateSevens.conditions ∧
    ((executeSelect catalog selectSevens).run w).map (fun r => (r.1.1, r.1.2.rows)) =
      some (.ok (), [[.integer 7], [.integer 7]]) ∧
    Mutates (fun _ => 0) catalog d c updateSevens w w₁ plan state := by
  obtain ⟨catalog, w, hreached, hp⟩ := Reached.of_any 1 DiskFaults.none_reliable
    [str "CREATE TABLE t (a INT);", str "CREATE INDEX i ON t (a);", str "INSERT INTO t VALUES (7);",
      str "INSERT INTO t VALUES (5);", str "INSERT INTO t VALUES (7);"] keyedStatements
    (fun catalog w =>
      (catalog.tables.lookup (str "t")).map TableMetadata.schema = some [⟨str "a", .integer, 4⟩] ∧
      catalog.hasIndex (str "t") (str "a") ∧
      ((executeSelect catalog selectSevens).run w).map (fun r => (r.1.1, r.1.2.rows)) =
        some (.ok (), [[.integer 7], [.integer 7]]))
    (by decide +kernel) (by decide +kernel)
  obtain ⟨htable, hindex, hselect⟩ := of_decide_eq_true hp
  obtain ⟨table, ht, hschema⟩ := Option.map_eq_some_iff.mp htable
  obtain ⟨h, d, c, hw, hd⟩ := hreached.state Nat.one_pos
  have hparse : Parser.parse (Tokenizer.tokenize (str "UPDATE t SET a = 8 WHERE a = 7;")) =
      .ok updateSevens.statement := by decide +kernel
  have hkeys : catalog.KeysSeparateFor (str "t") updateSevens.conditions :=
    keysSeparateFor_of_parse hd.wellFormed hparse
  have hfind : ∃ key, findIndexedCondition catalog (str "t") table.schema updateSevens.conditions =
      .ok (some (⟨str "a", str "=", ⟨.number, str "7"⟩⟩, key)) := by
    rw [hschema, show updateSevens.conditions = [_] from rfl, findIndexedCondition]
    refine ⟨_, if_neg fun h => h.elim (fun hop => hop rfl) fun hno => ?_⟩
    cases hindex.symm.trans hno
  obtain ⟨key, hfind⟩ := hfind
  have htargets : ∀ condition ∈ updateSevens.conditions, ∃ k target,
      condition.Target table.schema k target := by
    intro condition hin
    rw [List.mem_singleton.mp hin, hschema]
    exact ⟨0, .integer 7, rfl, rfl⟩
  obtain ⟨scan, records, hscan, hproduces, -⟩ :=
    filteredScan_produces hd.toDatabaseHolds hkeys ht hfind htargets
  have hplan : buildScanPlan catalog (str "t") updateSevens.conditions =
      .ok (scan.filters table.schema updateSevens.conditions, table.schema) := by
    rw [buildScanPlan, buildPlan_eq hd.toDatabaseHolds ht, hfind]
    dsimp only
    rw [hscan]
    rfl
  obtain ⟨⟨status, state⟩, w₁, -, hopen, ⟨-, rfl, -⟩, -, -⟩ := run_of_runs hw hproduces
  rw [buildScan] at hscan
  cases hi : catalog.getIndex (str "t") (str "a") with
  | none =>
    rw [hi] at hscan
    cases hscan
  | some index =>
    rw [hi] at hscan
    cases hscan
    exact ⟨catalog, w, w₁, h, d, c, index, key, _, state, hreached, hd, by rw [hschema], hselect,
      mutation_effect hw hd.toDatabaseHolds hkeys hplan hopen⟩

end

/-! ## Calls of `TableStorage` -/

section

variable {ext : PageId → Nat} {h : Pages} {d : PageData} {c : Contents} {name : Bytes}
  {table : TableMetadata}

/-- A call on the table `name` that fails leaves its rows and the pairs of its indexes as they were,
and no rollback has failed. -/
def Atomic (ext : PageId → Nat) (catalog : CatalogManager) (d : PageData) (c : Contents)
    (name : Bytes) (w : BufferPoolManager) (call : RowCall) : Prop :=
  ∃ r w' h' c', (call.exec catalog name).run w = some (r, w') ∧ Holds ext w' h' ∧
    DatabaseHolds h' catalog d c' ∧
    ∀ e, r = .error e → SameTable catalog c c' name ∧ ¬ RowCall.ReportsRollback e

/-- Whichever allocations fail, a row is changed with all its keys or not at all. Only allocations
can fail in a pool that holds the pages (`Holds`). -/
theorem rowCall_atomic (hw : Holds ext w h) (hd : DatabaseHolds h catalog d c)
    (ht : catalog.tables.lookup name = some table) (call : RowCall) :
    Atomic ext catalog d c name w call := by
  obtain ⟨r, w', h', hrun, ⟨c', hd', -, herror⟩, hw', -⟩ := run_of_runs hw (call.exec_runs hd ht)
  refine ⟨r, w', h', c', hrun, hw', hd', fun e he => ?_⟩
  obtain ⟨hcode, hsame⟩ := herror e he
  exact ⟨sameTable_of_rows hd hd' fun table _ => hsame table.firstPageId,
    RowCall.not_reportsRollback hcode⟩

/-- A disk that is full once the pages of `sampleStatements` are allocated. -/
def fullDisk : DiskFaults := { DiskFaults.none with allocate := fun n => decide (21 ≤ n) }

theorem fullDisk_reliable : fullDisk.Reliable :=
  ⟨fun _ => rfl, fun _ => rfl, fun _ => rfl⟩

/-- The key of `8` needs a bucket page, which cannot be allocated after the record is stored. -/
theorem sample_atomic : ∃ catalog w h d c, Reached 1 catalog w ∧ DatabaseState h catalog d c ∧
    (∃ e w', ((RowCall.insertRecord [.integer 8]).exec catalog (str "t")).run w =
      some (.error e, w') ∧ e.code = .outOfMemory) ∧
    ∀ call, Atomic (fun _ => 0) catalog d c (str "t") w call := by
  obtain ⟨catalog, w, hreached, hp⟩ := Reached.of_any 1 fullDisk_reliable
    [str "CREATE TABLE t (a INT);", str "CREATE TABLE u (b INT);", str "CREATE INDEX i ON t (a);",
      str "INSERT INTO t VALUES (7);"] sampleStatements
    (fun catalog w => (catalog.tables.lookup (str "t")).isSome &&
      decide ((((RowCall.insertRecord [.integer 8]).exec catalog (str "t")).run w).map
        (fun r => r.1.mapError Status.code) = some (.error .outOfMemory)))
    (by decide +kernel) (by decide +kernel)
  obtain ⟨htable, hcall⟩ := Bool.and_eq_true_iff.mp hp
  obtain ⟨table, ht⟩ := Option.isSome_iff_exists.mp htable
  obtain ⟨⟨r, w'⟩, hrun, hr⟩ := Option.map_eq_some_iff.mp (of_decide_eq_true hcall)
  obtain ⟨h, d, c, hw, hd⟩ := hreached.state Nat.one_pos
  refine ⟨catalog, w, h, d, c, hreached, hd, ?_, rowCall_atomic hw hd.toDatabaseHolds ht⟩
  cases r with
  | ok => cases hr
  | error e => exact ⟨e, w', hrun, Except.error.inj hr⟩

/-! ## Other tables -/

/-- What can be done to the rows of a table. -/
inductive TableOperation where
  | statement (statement : SQLStatement)
  | call (call : RowCall)

namespace TableOperation

/-- The operation is an INSERT, UPDATE or DELETE on the table, or a call of `TableStorage`. -/
def On (name : Bytes) : TableOperation → Prop
  | .statement s => s.ChangesRows ∧ s.target = name
  | .call _ => True

/-- The status, and the catalog afterwards. -/
def exec (catalog : CatalogManager) (name : Bytes) :
    TableOperation → Program (Except Status Unit × CatalogManager)
  | .statement s => do
    let (status, _, catalog) ← execute catalog s
    return (status, catalog)
  | .call rowCall => do
    let status ← rowCall.exec catalog name
    return (status, catalog)

end TableOperation

theorem execute_rows_runs (hd : DatabaseState h catalog d c) {statement : SQLStatement}
    (hrows : statement.ChangesRows) : Runs (poolContext ext) (execute catalog statement)
      (fun r h' => r.2.2 = catalog ∧ RowsDone catalog d c statement.target h') h := by
  unfold execute
  rw [hd.wellFormed.status]
  dsimp only
  cases statement with
  | insert s =>
    refine ((executeInsert_runs hd.toDatabaseHolds s).mono fun r h' hr => ?_).bind
    exact runs_pure ⟨rfl, hr⟩
  | update s =>
    have hruns : Runs (poolContext ext) (executeUpdate catalog s) _ h :=
      executeMutation_runs hd.toDatabaseHolds hd.keysSeparate (.update s)
    refine (hruns.mono fun r h' hr => ?_).bind
    exact runs_pure ⟨rfl, hr⟩
  | delete s =>
    have hruns : Runs (poolContext ext) (executeDelete catalog s) _ h :=
      executeMutation_runs hd.toDatabaseHolds hd.keysSeparate (.delete s)
    refine (hruns.mono fun r h' hr => ?_).bind
    exact runs_pure ⟨rfl, hr⟩
  | select | createTable | createIndex => cases hrows

/-- Every operation on a table leaves the catalog and the other tables as they were. -/
theorem operation_runs (hd : DatabaseState h catalog d c)
    (ht : catalog.tables.lookup name = some table) {operation : TableOperation}
    (hon : operation.On name) : Runs (poolContext ext) (operation.exec catalog name) (fun r h' =>
      r.2 = catalog ∧ ∃ c', DatabaseHolds h' catalog d c' ∧
        ∀ other, other ≠ name → SameTable catalog c c' other) h := by
  cases operation with
  | statement statement =>
    obtain ⟨hrows, rfl⟩ := hon
    refine ((execute_rows_runs hd hrows).mono fun r h' hr => ?_).bind
    obtain ⟨hcatalog, c', hd', hspares⟩ := hr
    exact runs_pure ⟨hcatalog, c', hd', fun other hne =>
      sameTable_of_rows hd.toDatabaseHolds hd' fun table => hspares other table hne⟩
  | call call =>
    refine ((call.exec_runs hd.toDatabaseHolds ht).mono fun r h' hr => ?_).bind
    obtain ⟨c', hd', hothers, -⟩ := hr
    exact runs_pure ⟨rfl, c', hd', fun other hne =>
      sameTable_of_rows hd.toDatabaseHolds hd' fun table => hd.spares ht hothers other table hne⟩

/-- No operation on the table `name` touches another table, its indexes, the catalog or page 0. A
record id whose page is not of the table is rejected, and all pages stay as they are. -/
def Isolated (catalog : CatalogManager) (w : BufferPoolManager) (name : Bytes)
    (table : TableMetadata) :
    Prop :=
  ∃ h d c, Holds (fun _ => 0) w h ∧ DatabaseState h catalog d c ∧
    (∀ operation : TableOperation, operation.On name → ∃ status w' h' c',
      (operation.exec catalog name).run w = some ((status, catalog), w') ∧
      Holds (fun _ => 0) w' h' ∧
      DatabaseState h' catalog d c' ∧ ∀ other, other ≠ name → SameTable catalog c c' other) ∧
    ∀ (call : RowCall) (rid : RecordID), call.target = some rid →
      rid.pageId ∉ (c.chain table.firstPageId).ids →
      ∃ e w', (call.exec catalog name).run w = some (.error e, w') ∧ Holds (fun _ => 0) w' h

theorem reached_isolation (hn : 0 < n) (hr : Reached n catalog w)
    (ht : catalog.tables.lookup name = some table) : Isolated catalog w name table := by
  obtain ⟨h, d, c, hw, hd⟩ := hr.state hn
  refine ⟨h, d, c, hw, hd, fun operation hon => ?_, fun call rid htarget hrid => ?_⟩
  · obtain ⟨⟨status, catalog'⟩, w', h', hrun, ⟨rfl, c', hd', hsame⟩, hw', -⟩ :=
      run_of_runs hw (operation_runs hd ht hon)
    exact ⟨status, w', h', c', hrun, hw', hd.of_holds hd', hsame⟩
  · obtain ⟨r, w', h', hrun, ⟨rfl, e, rfl⟩, hw', -⟩ :=
      run_of_runs hw (call.exec_foreign hd.toDatabaseHolds ht htarget hrid)
    exact ⟨e, w', hrun, hw'⟩

theorem sample_isolation : ∃ catalog w table, Reached 1 catalog w ∧
    catalog.tables.lookup (str "t") = some table ∧ Isolated catalog w (str "t") table := by
  obtain ⟨catalog, w, hreached, htable, -⟩ := reached_sample
  obtain ⟨table, ht, -⟩ := Option.map_eq_some_iff.mp htable
  exact ⟨catalog, w, table, hreached, ht, reached_isolation Nat.one_pos hreached ht⟩

end

end QueryExecutor

end MiniDbms
