import MiniDbms.Database.Publication
import MiniDbms.Query.Executor
import MiniDbms.Query.Scans

/-!
# The plans of the executor

What the plans of `BuildPlan` yield on a consistent database: the records of the table that satisfy
the WHERE clause, each once (`Selects`), whether an index is used or not (`scan_produces`,
`filteredScan_produces`). A sequential plan yields them in the order of the heap file.
-/

namespace MiniDbms

open Lib PagedProgram Program HashIndex StringMap CatalogManager QueryExecutor

/-- An index that is found for a column of a table is an index on this column. -/
def CatalogManager.KeysSeparate (catalog : CatalogManager) : Prop :=
  ∀ {name table columnName index}, catalog.tables.lookup name = some table →
    catalog.indexes.lookup (makeIndexKey name columnName) = some index →
    index.tableName = name ∧ index.columnName = columnName

/-- If no table has a `.` in its name, then the key of an index gives away its table. -/
theorem CatalogManager.WellFormed.keysSeparate {catalog : CatalogManager} (hw : WellFormed catalog)
    (hnames : ∀ {name table}, catalog.tables.lookup name = some table → 46 ∉ name) :
    catalog.KeysSeparate := by
  intro name table columnName index ht hi
  obtain ⟨hkey, -, -, -, table', ht', -⟩ := hw.index hi
  have hname := hnames ht
  have hname' := hnames ht'
  -- the first dot ends the name of the table
  have hlength : index.tableName.length = name.length := by
    have hdot := congrArg (List.idxOf 46) hkey
    rw [makeIndexKey, makeIndexKey, List.idxOf_append_of_notMem hname',
      List.idxOf_append_of_notMem hname, List.idxOf_cons_self, List.idxOf_cons_self] at hdot
    exact hdot
  obtain ⟨hn, hc⟩ := List.append_inj hkey hlength
  cases hc
  exact ⟨hn, rfl⟩

/-- So do the indexes that are looked up for the conditions of a WHERE clause. -/
def CatalogManager.KeysSeparateFor (catalog : CatalogManager) (name : Bytes)
    (conditions : List Condition) : Prop :=
  ∀ condition ∈ conditions, ∀ index,
    catalog.indexes.lookup (makeIndexKey name condition.column) = some index →
      index.tableName = name ∧ index.columnName = condition.column

theorem CatalogManager.KeysSeparate.forConditions {catalog : CatalogManager} {name : Bytes}
    {table : TableMetadata} (hkeys : catalog.KeysSeparate)
    (ht : catalog.tables.lookup name = some table) (conditions : List Condition) :
    catalog.KeysSeparateFor name conditions :=
  fun _ _ _ hi => hkeys ht hi

theorem DatabaseState.keysSeparate {h : Pages} {catalog : CatalogManager} {d : PageData}
    {c : Contents} (hd : DatabaseState h catalog d c) : catalog.KeysSeparate :=
  hd.wellFormed.keysSeparate hd.undotted

/-- The list has exactly the live records that satisfy the conditions, each once. -/
structure Selects (chain : Chain) (schema : Schema) (conditions : List Condition)
    (records : List Record) : Prop where
  nodup : (records.map Record.rid).Nodup
  mem : ∀ record, record ∈ records ↔
    chain.record record.rid = some record.data ∧ SatisfiesAll schema conditions record.data

theorem Compares.eq {a b : FieldValue} (h : Compares (str "=") a b) : a = b := by
  have horder : ∀ {α : Type} [LinearOrder α] {x y : α}, OrderRelation (str "=") x y → x = y := by
    intro α _ x y hr
    rcases hr with ⟨-, h⟩ | ⟨he, -⟩ | ⟨he, -⟩ | ⟨he, -⟩ | ⟨he, -⟩
    · exact h
    all_goals exact absurd he (by decide)
  cases h with
  | integer h => rw [Int32.toInt_inj.mp (horder h)]
  | text h => rw [List.map_injective_iff.mpr (fun x y => UInt8.toNat_inj.mp) (horder h)]
  | boolean => rfl

namespace QueryExecutor

section

variable {catalog : CatalogManager} {name : Bytes} {schema : Schema} {columnName : Bytes}
  {conditions : List Condition} {condition : Condition} {key : Bytes}

theorem findColumn_ok {k : Nat} (h : findColumn schema columnName = .ok k) :
    schema.columnIndex columnName = some k := by
  unfold findColumn at h
  cases hk : schema.columnIndex columnName with
  | none =>
    rw [hk] at h
    cases h
  | some k' =>
    rw [hk] at h
    cases h
    rfl

theorem findColumn_of_some {k : Nat} (h : schema.columnIndex columnName = some k) :
    findColumn schema columnName = .ok k := by
  rw [findColumn, h]

/-- The condition that the plan answers with an index. -/
structure IsIndexed (catalog : CatalogManager) (name : Bytes) (schema : Schema)
    (conditions : List Condition) (condition : Condition) (key : Bytes) : Prop where
  mem : condition ∈ conditions
  op : condition.op = str "="
  hasIndex : catalog.hasIndex name condition.column = true
  target : ∃ k v, condition.Target schema k v ∧ IndexKey.encode v = .ok key

theorem findIndexedCondition_some :
    findIndexedCondition catalog name schema conditions = .ok (some (condition, key)) →
      IsIndexed catalog name schema conditions condition key := by
  induction conditions with
  | nil => exact nofun
  | cons first conditions ih =>
    intro h
    rw [findIndexedCondition] at h
    split at h
    · obtain ⟨hmem, hop, hindex, ht⟩ := ih h
      exact ⟨List.mem_cons_of_mem _ hmem, hop, hindex, ht⟩
    · rename_i hc
      rw [not_or, not_not, Bool.not_eq_false] at hc
      split at h
      · cases h
      · rename_i k hk
        split at h
        · cases h
        · rename_i v hv
          split at h
          · cases h
          · rename_i key' hkey
            cases h
            exact ⟨List.mem_cons_self, hc.1, hc.2, k, v, ⟨findColumn_ok hk, hv⟩, hkey⟩

end

section

variable {ext : PageId → Nat} {h : Pages} {catalog : CatalogManager} {d : PageData} {c : Contents}
  {name : Bytes} {table : TableMetadata} {conditions : List Condition}

theorem getTableSchema_eq (hd : DatabaseHolds h catalog d c)
    (ht : catalog.tables.lookup name = some table) :
    catalog.getTableSchema name = .ok table.schema := by
  rw [getTableSchema, hd.wellFormed.status]
  dsimp only
  rw [ht]

theorem getTableFirstPageId_eq (hd : DatabaseHolds h catalog d c)
    (ht : catalog.tables.lookup name = some table) :
    catalog.getTableFirstPageId name = .ok table.firstPageId := by
  rw [getTableFirstPageId, hd.wellFormed.status]
  dsimp only
  rw [ht]

theorem heapHolds_of_lookup (hd : DatabaseHolds h catalog d c)
    (ht : catalog.tables.lookup name = some table) :
    HeapFile.HeapHolds h table.firstPageId (c.chain table.firstPageId) :=
  hd.storage.heap _ ⟨name, table, ht, rfl⟩

/-- Live records can be decoded. -/
theorem deserialize_of_live (hd : DatabaseHolds h catalog d c)
    (ht : catalog.tables.lookup name = some table) {rid : RecordID} {data : Bytes}
    (hr : (c.chain table.firstPageId).record rid = some data) :
    ∃ values, RecordCodec.deserialize table.schema data = .ok values := by
  obtain ⟨values, hs⟩ := hd.serialized ht rid data hr
  exact ⟨values, RecordCodec.deserialize_serialize hs⟩

/-- Distinct live records are no more than a scan has turns. -/
theorem length_lt_scanFuel {p : PageId} {chain : Chain} (hh : HeapFile.HeapHolds h p chain)
    {records : List Record} (hnodup : (records.map Record.rid).Nodup)
    (hlive : ∀ record ∈ records, chain.record record.rid = some record.data) :
    records.length < scanFuel := by
  have hsub : records ⊆ chain.records := fun record hin =>
    (Chain.mem_records hh.holds.bounded hh.nodup).mpr (hlive record hin)
  have hle := (List.subperm_of_subset hnodup.of_map hsub).length_le
  exact Nat.lt_of_le_of_lt hle (HeapFile.length_records_lt hh)

/-- The scan at the bottom of a plan yields distinct live records, among them all that satisfy the
conditions. -/
theorem scan_produces (hd : DatabaseHolds h catalog d c)
    (hkeys : catalog.KeysSeparateFor name conditions)
    (ht : catalog.tables.lookup name = some table) {indexed : Option (Condition × Bytes)}
    (hfind : findIndexedCondition catalog name table.schema conditions = .ok indexed) :
    ∃ scan records, buildScan catalog name table.firstPageId indexed = .ok scan ∧
      scan.Produces ext h records (.ok ()) ∧ (records.map Record.rid).Nodup ∧
      (∀ record ∈ records, (c.chain table.firstPageId).record record.rid = some record.data) ∧
      (∀ record, (c.chain table.firstPageId).record record.rid = some record.data →
        SatisfiesAll table.schema conditions record.data → record ∈ records) ∧
      (indexed = none → records = (c.chain table.firstPageId).records) := by
  have hh := heapHolds_of_lookup hd ht
  have hmem : ∀ record, record ∈ (c.chain table.firstPageId).records ↔
      (c.chain table.firstPageId).record record.rid = some record.data := fun record =>
    Chain.mem_records hh.holds.bounded hh.nodup
  rcases indexed with _ | ⟨condition, key⟩
  · refine ⟨_, _, rfl, seqScan_produces hh, Chain.nodup_records hh.holds.bounded hh.nodup,
      fun record => (hmem record).mp, fun record hr _ => (hmem record).mpr hr, fun _ => rfl⟩
  · obtain ⟨hin, hop, hhas, k, v, htarget, hkey⟩ := findIndexedCondition_some hfind
    have hidx : makeIndexKey name condition.column ∈ catalog.indexes := by
      rw [hasIndex, Bool.and_eq_true, decide_eq_true_eq] at hhas
      exact hhas.2
    obtain ⟨index, hindex⟩ := mem_iff_lookup.mp hidx
    obtain ⟨rfl, hcolumn⟩ := hkeys condition hin index hindex
    have hk : table.schema.columnIndex index.columnName = some k := by
      rw [hcolumn]
      exact htarget.1
    have hpairs := hd.indexed hindex ht hk
    have hlive : ∀ e ∈ (c.buckets index.headerPageId).pairs,
        (c.chain table.firstPageId).record e.2 ≠ none := by
      intro e he
      obtain ⟨data, hdata, -⟩ := (hpairs.pairs e).mp he
      rw [hdata]
      exact Option.some_ne_none _
    obtain ⟨records, hproduces, hnodup, hrecords⟩ := indexScan_produces
      (hd.storage.index _ ⟨_, index, hindex, rfl⟩) (IndexKey.length_encode hkey).2 hh hlive
    have hscan : buildScan catalog index.tableName table.firstPageId (some (condition, key)) =
        .ok (.indexScan index.headerPageId key) := by
      rw [buildScan, getIndex, hd.wellFormed.status]
      dsimp only
      rw [hindex]
      rfl
    refine ⟨_, records, hscan, hproduces, hnodup, fun record hr => ((hrecords record).mp hr).2,
      fun record hr hsat => ?_, fun hnone => absurd hnone (Option.some_ne_none _)⟩
    -- a record that satisfies the condition has its key in the index
    rw [hrecords, hpairs.pairs]
    refine ⟨⟨record.data, hr, ?_⟩, hr⟩
    obtain ⟨values, hvalues, hall⟩ := hsat
    obtain ⟨actual, hget, hactual⟩ := RecordCodec.getValue_eq hvalues (Schema.lt_of_columnIndex hk)
    have hcompares := (Condition.satisfies_iff htarget hactual).mp (hall condition hin)
    rw [hop] at hcompares
    exact ⟨actual, hget, hcompares.eq ▸ hkey⟩

/-- The filtered scan yields the records that satisfy the conditions. -/
theorem filteredScan_produces (hd : DatabaseHolds h catalog d c)
    (hkeys : catalog.KeysSeparateFor name conditions)
    (ht : catalog.tables.lookup name = some table) {indexed : Option (Condition × Bytes)}
    (hfind : findIndexedCondition catalog name table.schema conditions = .ok indexed)
    (htargets : ∀ condition ∈ conditions, ∃ k target, condition.Target table.schema k target) :
    ∃ scan records, buildScan catalog name table.firstPageId indexed = .ok scan ∧
      (scan.filters table.schema conditions).Produces ext h records (.ok ()) ∧
      Selects (c.chain table.firstPageId) table.schema conditions records ∧
      (indexed = none → records = (c.chain table.firstPageId).records.filter fun record =>
        SatisfiesAll table.schema conditions record.data) := by
  obtain ⟨scan, records, hscan, hp, hnodup, hlive, hall, hseq⟩ := scan_produces hd hkeys ht hfind
  have hlt := length_lt_scanFuel (heapHolds_of_lookup hd ht) hnodup hlive
  refine ⟨scan, _, hscan, filters_produces conditions scan records htargets hp (fun record hin =>
    deserialize_of_live hd ht (hlive record hin)) hlt, ⟨?_, fun record => ?_⟩, fun hnone => ?_⟩
  · exact hnodup.sublist (List.filter_sublist.map Record.rid)
  · rw [List.mem_filter, decide_eq_true_eq]
    constructor
    · rintro ⟨hin, hsat⟩
      exact ⟨hlive record hin, hsat⟩
    · rintro ⟨hr, hsat⟩
      exact ⟨hall record hr hsat, hsat⟩
  · rw [hseq hnone]

/-- `BuildPlan` for a table of the catalog. -/
theorem buildPlan_eq (hd : DatabaseHolds h catalog d c)
    (ht : catalog.tables.lookup name = some table) (fields : List Bytes) (isExplain : Bool) :
    buildPlan catalog ⟨name, fields, conditions, isExplain⟩ =
      match findIndexedCondition catalog name table.schema conditions with
      | .error e => .error e
      | .ok indexed =>
        match buildScan catalog name table.firstPageId indexed with
        | .error e => .error e
        | .ok scan =>
          buildProjection table.schema fields (scan.filters table.schema conditions) := by
  rw [buildPlan, getTableSchema_eq hd ht]
  dsimp only
  rw [getTableFirstPageId_eq hd ht]
  rfl

/-- The plan of an UPDATE or a DELETE, when it is built: a filtered scan. -/
theorem buildScanPlan_ok (hd : DatabaseHolds h catalog d c)
    (hkeys : catalog.KeysSeparateFor name conditions)
    (ht : catalog.tables.lookup name = some table) {plan : Plan} {outputSchema : Schema}
    (hplan : buildScanPlan catalog name conditions = .ok (plan, outputSchema)) :
    plan.Fails ext h ∨ ∃ records, plan.Produces ext h records (.ok ()) ∧
      Selects (c.chain table.firstPageId) table.schema conditions records := by
  rw [buildScanPlan, buildPlan_eq hd ht] at hplan
  cases hfind : findIndexedCondition catalog name table.schema conditions with
  | error e =>
    rw [hfind] at hplan
    cases hplan
  | ok indexed =>
    rw [hfind] at hplan
    dsimp only at hplan
    by_cases htargets : ∀ condition ∈ conditions, ∃ k target, condition.Target table.schema k target
    · obtain ⟨scan, records, hscan, hp, hselects, -⟩ :=
        filteredScan_produces hd hkeys ht hfind htargets
      rw [hscan] at hplan
      cases hplan
      exact .inr ⟨records, hp, hselects⟩
    · simp only [not_forall, not_exists] at htargets
      obtain ⟨condition, hin, hno⟩ := htargets
      cases hscan : buildScan catalog name table.firstPageId indexed with
      | error e =>
        rw [hscan] at hplan
        cases hplan
      | ok scan =>
        rw [hscan] at hplan
        cases hplan
        exact .inl (filters_fails conditions scan (.inr ⟨condition, hin, hno⟩))

end

end QueryExecutor

end MiniDbms
