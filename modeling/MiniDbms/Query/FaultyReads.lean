import MiniDbms.Buffer.CleanPools
import MiniDbms.Query.ReadOnlySessions
import MiniDbms.Query.Restarts
import MiniDbms.Query.StatementErrors

/-!
# SELECT on a disk that fails

What a SELECT with status OK returns when any access to the disk may fail. A record whose page
cannot be loaded is left out by an index scan (`Emits` bounds what an operator returns by the ids
that it has left, instead of listing it). But no row is made up, changed or returned twice: the rows
are those of distinct live records that satisfy the WHERE clause, and of a sequential plan those of
all of them (`select_on_failing_disk`).
-/

namespace MiniDbms

open Lib PagedProgram Program HashIndex HeapFile

/-- From a state that has the ids left, the operator returns records with these ids only, in this
order, and each has the property. -/
def AbstractOperator.Emits {σ : Type} (operator : AbstractOperator σ) (img : PageId → PageData)
    (Left : List RecordID → σ → Prop) (P : Record → Prop) : Prop :=
  ∀ rids s, Left rids s → (operator.next s).Sees img fun r => ∀ record, r.1 = some record →
    P record ∧ ∃ skipped rest, rids = skipped ++ record.rid :: rest ∧ Left rest r.2

/-- The plan opens onto a state that has the ids left, or with an error. -/
structure Plan.EmitsOnly (ext : PageId → Nat) (h : Pages) (img : PageId → PageData) (plan : Plan)
    (rids : List RecordID) (P : Record → Prop) : Prop where
  strict : ∀ s, (plan.operator.openOperator s).Strict fun r => IsError r.1
  emits : ∃ Left, plan.operator.Emits img Left P ∧
    Runs (poolContext ext) (plan.operator.openOperator plan.state)
      (fun r h' => h' = h ∧ (r.1 = .ok () → Left rids r.2)) h

variable {ext : PageId → Nat} {h : Pages} {img : PageId → PageData} {P Q : Record → Prop}
  {rids : List RecordID}

theorem Plan.EmitsOnly.mono {plan : Plan} (hp : plan.EmitsOnly ext h img rids P)
    (hPQ : ∀ record, P record → Q record) : plan.EmitsOnly ext h img rids Q := by
  obtain ⟨Left, hemits, hopen⟩ := hp.emits
  refine ⟨hp.strict, Left, fun l s hs => (hemits l s hs).mono fun r hr record hsome => ?_, hopen⟩
  exact ⟨hPQ record (hr record hsome).1, (hr record hsome).2⟩

/-! ## The operators -/

/-- What a record id reads of a heap file, when its page can be loaded. -/
theorem HeapFile.getRecord_sees {p : PageId} {chain : Chain} (hc : ChainHolds h p chain)
    (himg : ∀ {q d}, h.page q = some d → img q = d) {rid : RecordID} (hq : rid.pageId ∈ chain.ids) :
    (HeapFile.getRecord rid).Sees img fun r => ∀ record, r = .ok record →
      record.rid = rid ∧ chain.record rid = some record.data := by
  obtain ⟨hpos, d, next, hd, hs⟩ := hc.stores hq
  have hid : rid.pageId ≠ invalidPageId := ne_invalid_of_pos hpos
  have hs' : SlottedPage.Stores (Page.view rid.pageId d).data (Page.view rid.pageId d).pageId next
    (chain.slots rid.pageId) := hs
  rw [HeapFile.getRecord, if_neg (by rw [toInt_headerPageId]; omega)]
  refine sees_fetchPage (sees_pure fun record hr => by cases hr) fun f => ?_
  refine sees_unpinPage (sees_pure fun record hr => by cases hr) (sees_pure fun record hr => ?_)
  rw [himg hd] at hr
  cases hlive : chain.record rid with
  | some data =>
    rw [SlottedPage.readRecord_stores hs' hid hlive] at hr
    cases hr
    exact ⟨rfl, rfl⟩
  | none =>
    obtain ⟨e, he, -⟩ := SlottedPage.readRecord_free hs' hid hlive
    rw [he] at hr
    cases hr

/-- The states of an index scan. -/
def IndexScanOperator.Left (chain : Chain) (rids : List RecordID) (s : IndexScanState) : Prop :=
  s.rids = rids ∧ ∀ rid ∈ rids, rid.pageId ∈ chain.ids

theorem IndexScanOperator.emits {p : PageId} {chain : Chain} (hc : ChainHolds h p chain)
    (himg : ∀ {q d}, h.page q = some d → img q = d) (index : PageId) (key : Bytes) :
    (operator index key).Emits img (Left chain)
      fun record => chain.record record.rid = some record.data := by
  have hloop : ∀ rids : List RecordID, (∀ rid ∈ rids, rid.pageId ∈ chain.ids) →
      (nextLoop rids).Sees img fun r => ∀ record, r.1 = some record →
        chain.record record.rid = some record.data ∧
        ∃ skipped rest, rids = skipped ++ record.rid :: rest ∧ Left chain rest r.2 := by
    intro rids
    induction rids with
    | nil => exact fun _ => sees_pure fun record hr => by cases hr
    | cons candidate rids ih =>
      intro hids
      have hrest : ∀ rid ∈ rids, rid.pageId ∈ chain.ids :=
        fun rid hin => hids rid (List.mem_cons_of_mem _ hin)
      refine (getRecord_sees hc himg (hids candidate List.mem_cons_self)).bind fun r hr => ?_
      cases r with
      | ok record =>
        obtain ⟨rfl, hdata⟩ := hr record rfl
        refine sees_pure fun record' hr' => ?_
        cases hr'
        exact ⟨hdata, [], rids, rfl, rfl, hrest⟩
      | error e =>
        dsimp only
        split
        · refine (ih hrest).mono fun r hr record hsome => ?_
          obtain ⟨hlive, skipped, rest, hrids, hleft⟩ := hr record hsome
          exact ⟨hlive, candidate :: skipped, rest, by rw [hrids]; rfl, hleft⟩
        · exact sees_pure fun record hr' => by cases hr'
  intro rids s hs
  obtain ⟨rfl, hids⟩ := hs
  show (next s).Sees img _
  unfold next
  cases s.status with
  | error e => exact sees_pure fun record hr => by cases hr
  | ok => exact hloop s.rids hids

theorem indexScan_emits {p index : PageId} {chain : Chain} {key : Bytes} {b : Buckets}
    (hi : IndexHolds h index b) (hk : key.length ≤ HashIndexBucketPage.maxKeyLength)
    (hc : ChainHolds h p chain) (himg : ∀ {q d}, h.page q = some d → img q = d)
    (hlive : ∀ e ∈ b.pairs, chain.record e.2 ≠ none) : ∃ rids, rids.Nodup ∧
      (Plan.indexScan index key).EmitsOnly ext h img rids
        fun record => chain.record record.rid = some record.data := by
  obtain ⟨hnodup, hmem⟩ := values_spec hi.wellFormed hi.count_pos key
  refine ⟨_, hnodup, fun s => ?_, IndexScanOperator.Left chain,
    IndexScanOperator.emits hc himg index key, ?_⟩
  · exact (strict_getValue index key).bind_ok (fun e => isError_error e) fun rids => strict_pure _
  · refine ((getValue_runs hi hk).mono fun r h' hr => ?_).bind
    obtain ⟨rfl, rfl⟩ := hr
    refine runs_pure ⟨rfl, fun _ => ⟨rfl, fun rid hin => ?_⟩⟩
    obtain ⟨data, hdata⟩ := Option.ne_none_iff_exists'.mp (hlive _ ((hmem rid).mp hin))
    exact mem_ids_of_record hdata

/-- The states of a filter that is open. -/
def FilterOperator.Left {σ : Type} (Left : List RecordID → σ → Prop) (schema : Schema)
    (condition : Condition) (rids : List RecordID) (s : FilterState σ) : Prop :=
  Left rids s.child ∧ condition.Target schema s.columnIndex s.targetValue

theorem FilterOperator.emits {σ : Type} {child : AbstractOperator σ}
    {Left : List RecordID → σ → Prop}
    {schema : Schema} {condition : Condition} (hchild : child.Emits img Left P)
    (hrows : ∀ record, P record →
      ∃ values, RecordCodec.deserialize schema record.data = .ok values) :
    (operator child schema condition).Emits img (FilterOperator.Left Left schema condition)
      fun record => P record ∧ SatisfiesAll schema [condition] record.data := by
  have hloop : ∀ (fuel : Nat) (rids : List RecordID) (s : FilterState σ),
      FilterOperator.Left Left schema condition rids s →
      (nextLoop child schema condition fuel s).Sees img fun r => ∀ record, r.1 = some record →
        (P record ∧ SatisfiesAll schema [condition] record.data) ∧
        ∃ skipped rest, rids = skipped ++ record.rid :: rest ∧
          FilterOperator.Left Left schema condition rest r.2 := by
    intro fuel
    induction fuel with
    | zero => exact fun _ _ _ => trivial
    | succ fuel ih =>
      intro rids s hs
      refine (hchild rids s.child hs.1).bind fun r hr => ?_
      obtain ⟨_ | record, c⟩ := r
      · exact sees_pure fun record hr => by cases hr
      obtain ⟨hP, skipped, rest, hrids, hleft⟩ := hr record rfl
      dsimp only
      rw [evaluate_eq hs.2 (hrows record hP)]
      by_cases hsat : SatisfiesAll schema [condition] record.data
      · rw [decide_eq_true hsat]
        refine sees_pure fun record' hr' => ?_
        cases hr'
        exact ⟨⟨hP, hsat⟩, skipped, rest, hrids, hleft, hs.2⟩
      · rw [decide_eq_false hsat]
        have hrest := ih rest { s with child := c } ⟨hleft, hs.2⟩
        refine hrest.mono fun r hr record' hsome => ?_
        obtain ⟨hP', skipped', rest', hl, hleft'⟩ := hr record' hsome
        exact ⟨hP', skipped ++ record.rid :: skipped', rest', by simp [hrids, hl], hleft'⟩
  intro rids s hs
  show (next child schema condition s).Sees img _
  unfold next
  cases s.status with
  | error e => exact sees_pure fun record hr => by cases hr
  | ok => exact hloop scanFuel rids s hs

theorem filter_emits {plan : Plan} {schema : Schema} (condition : Condition)
    (hp : plan.EmitsOnly ext h img rids P)
    (hrows : ∀ record, P record →
      ∃ values, RecordCodec.deserialize schema record.data = .ok values) :
    (plan.filter schema condition).EmitsOnly ext h img rids
      fun record => P record ∧ SatisfiesAll schema [condition] record.data := by
  obtain ⟨Left, hemits, hopen⟩ := hp.emits
  refine ⟨FilterOperator.strict_openOperator hp.strict schema condition,
    FilterOperator.Left Left schema condition, FilterOperator.emits hemits hrows, ?_⟩
  show Runs _ (FilterOperator.openOperator plan.operator schema condition _) _ _
  unfold FilterOperator.openOperator
  split
  · exact runs_pure ⟨rfl, fun hr => by cases hr⟩
  · rename_i k hk
    split
    · exact runs_pure ⟨rfl, fun hr => by cases hr⟩
    · rename_i target htarget
      refine (hopen.mono fun r h' hr => ?_).bind
      exact runs_pure ⟨hr.1, fun hok => ⟨hr.2 hok, hk, htarget⟩⟩

theorem filters_emits {schema : Schema} : ∀ (conditions : List Condition) {plan : Plan}
    {P : Record → Prop}, plan.EmitsOnly ext h img rids P →
    (∀ record, P record → ∃ values, RecordCodec.deserialize schema record.data = .ok values) →
    (plan.filters schema conditions).EmitsOnly ext h img rids
      fun record => P record ∧ SatisfiesAll schema conditions record.data := by
  intro conditions
  induction conditions with
  | nil =>
    intro plan P hp hrows
    refine hp.mono fun record hP => ⟨hP, ?_⟩
    obtain ⟨values, hvalues⟩ := hrows record hP
    exact ⟨values, hvalues, List.forall_mem_nil _⟩
  | cons condition conditions ih =>
    intro plan P hp hrows
    refine (ih (filter_emits condition hp hrows) fun record hP => hrows record hP.1).mono
      fun record hP => ?_
    exact ⟨hP.1.1, satisfiesAll_cons.mpr ⟨hP.1.2, hP.2⟩⟩

theorem projection_emits {plan : Plan} (inputSchema : Schema) (selectedFields : List Nat)
    (hp : plan.EmitsOnly ext h img rids P) :
    (plan.projection inputSchema selectedFields).EmitsOnly ext h img rids fun record =>
      ∃ data, P ⟨record.rid, data⟩ ∧
        RecordCodec.project inputSchema data selectedFields = .ok record.data := by
  obtain ⟨Left, hemits, hopen⟩ := hp.emits
  refine ⟨ProjectionOperator.strict_openOperator hp.strict inputSchema selectedFields,
    fun rids s => Left rids s.child, fun l s hs => ?_, ?_⟩
  · show (ProjectionOperator.next plan.operator inputSchema selectedFields s).Sees img _
    unfold ProjectionOperator.next
    cases s.status with
    | error e => exact sees_pure fun record hr => by cases hr
    | ok =>
      refine (hemits l s.child hs).bind fun r hr => ?_
      obtain ⟨_ | input, c⟩ := r
      · exact sees_pure fun record hr => by cases hr
      obtain ⟨hP, skipped, rest, hl, hleft⟩ := hr input rfl
      dsimp only
      cases hproject : RecordCodec.project inputSchema input.data selectedFields with
      | error e => exact sees_pure fun record hr => by cases hr
      | ok data =>
        refine sees_pure fun record hr => ?_
        cases hr
        exact ⟨⟨input.data, hP, hproject⟩, skipped, rest, hl, hleft⟩
  · show Runs _ (ProjectionOperator.openOperator plan.operator inputSchema selectedFields _) _ _
    unfold ProjectionOperator.openOperator
    split
    · exact runs_pure ⟨rfl, fun hr => by cases hr⟩
    split
    · exact runs_pure ⟨rfl, fun hr => by cases hr⟩
    · refine (hopen.mono fun r h' hr => ?_).bind
      exact runs_pure ⟨hr.1, fun hok => hr.2 hok⟩

/-- Whether allocations have failed does not matter to a database. -/
theorem Queryable.settled {catalog : CatalogManager} {d : PageData} {c : Contents}
    (hd : Queryable h catalog d c)
    : Queryable h.settled catalog d c where
  wellFormed := hd.wellFormed
  storage := by
    have hs := hd.storage
    exact ⟨hs.catalogPage, fun p hp => (hs.heap p hp).congr fun _ _ => rfl,
      fun p hp => (hs.index p hp).congr fun _ _ => rfl, hs.owned.nodup, hs.owned.unique,
      hs.owned.covers⟩
  firstPages := hd.firstPages
  headers := hd.headers
  serialized := hd.serialized
  indexed := hd.indexed
  keysSeparate := hd.keysSeparate
  counts := hd.counts

namespace QueryExecutor

/-! ## The loop -/

/-- The loop decodes what the plan emits. -/
theorem selectLoop_sees {σ : Type} {operator : AbstractOperator σ} {Left : List RecordID → σ → Prop}
    {schema : Schema} (hemits : operator.Emits img Left P)
    (hrows : ∀ record, P record →
      ∃ values, RecordCodec.deserialize schema record.data = .ok values) :
    ∀ (fuel : Nat) (rids : List RecordID) (s : σ) (result : QueryResult), Left rids s →
      (selectLoop operator schema fuel s result).Sees img fun r => ∃ emitted : List Record,
        (emitted.map Record.rid).Sublist rids ∧ (∀ record ∈ emitted, P record) ∧
        r.2 = { result with
          rows := result.rows ++ emitted.map fun record => RecordCodec.decoded schema record.data
          rowsReturned := result.rowsReturned + emitted.length } := by
  intro fuel
  induction fuel with
  | zero => exact fun _ _ _ _ => trivial
  | succ fuel ih =>
    intro rids s result hs
    refine (hemits rids s hs).bind fun r hr => ?_
    obtain ⟨_ | record, s'⟩ := r
    · refine sees_pure ⟨[], List.nil_sublist _, List.forall_mem_nil _, ?_⟩
      simp
    obtain ⟨hP, skipped, rest, rfl, hleft⟩ := hr record rfl
    obtain ⟨values, hvalues⟩ := hrows record hP
    dsimp only
    rw [hvalues]
    refine (ih rest s' _ hleft).mono fun r hr => ?_
    obtain ⟨emitted, hsub, hall, hresult⟩ := hr
    refine ⟨record :: emitted, ?_, List.forall_mem_cons.mpr ⟨hP, hall⟩, ?_⟩
    · exact (hsub.cons_cons record.rid).trans (List.sublist_append_right _ _)
    · rw [hresult]
      simp [RecordCodec.decoded_eq hvalues, Nat.add_assoc, Nat.add_comm 1]

/-! ## The plan -/

/-- The record shows the requested values of a live record that satisfies the WHERE clause. -/
def Shown (chain : Chain) (schema : Schema) (conditions : List Condition)
    (columns : List (Nat × Column)) (record : Record) : Prop :=
  ∃ data, chain.record record.rid = some data ∧ SatisfiesAll schema conditions data ∧
    RecordCodec.deserialize (columns.map Prod.snd) record.data =
      .ok (pick columns (RecordCodec.decoded schema data))

variable {catalog : CatalogManager} {d : PageData} {c : Contents} {table : TableMetadata}
  {select : SelectStatement}

/-- The plan that reads through an index. -/
theorem buildPlan_emits (hd : Queryable h catalog d c)
    (himg : ∀ {q d}, h.page q = some d → img q = d)
    (ht : catalog.tables.lookup select.tableName = some table) {condition : Condition} {key : Bytes}
    (hfind : findIndexedCondition catalog select.tableName table.schema select.conditions =
      .ok (some (condition, key))) {plan : Plan} {outputSchema : Schema}
    (hplan : buildPlan catalog select = .ok (plan, outputSchema)) :
    ∃ columns rids, requested table.schema select.fields = .ok columns ∧
      outputSchema = columns.map Prod.snd ∧ rids.Nodup ∧ plan.EmitsOnly ext h img rids
        (Shown (c.chain table.firstPageId) table.schema select.conditions columns) := by
  have hkeys : catalog.KeysSeparate := hd.keysSeparate
  replace hd := hd.toDatabaseHolds
  have hheap := heapHolds_of_lookup hd ht
  have hbuild : buildPlan catalog select = _ := buildPlan_eq hd ht select.fields select.isExplain
  rw [hbuild, hfind] at hplan
  dsimp only at hplan
  obtain ⟨hin, hop, hhas, k, v, htarget, hkey⟩ := findIndexedCondition_some hfind
  have hidx : CatalogManager.makeIndexKey select.tableName condition.column ∈ catalog.indexes := by
    rw [CatalogManager.hasIndex, Bool.and_eq_true, decide_eq_true_eq] at hhas
    exact hhas.2
  obtain ⟨index, hindex⟩ := StringMap.mem_iff_lookup.mp hidx
  obtain ⟨hname, hcolumn⟩ := hkeys ht hindex
  have hk : table.schema.columnIndex index.columnName = some k := by
    rw [hcolumn]
    exact htarget.1
  have hpairs := hd.indexed hindex (by rw [hname]; exact ht) hk
  have hscan : buildScan catalog select.tableName table.firstPageId (some (condition, key)) =
      .ok (.indexScan index.headerPageId key) := by
    rw [buildScan, CatalogManager.getIndex, hd.wellFormed.status]
    dsimp only
    rw [hindex]
    rfl
  rw [hscan] at hplan
  dsimp only at hplan
  have hlive : ∀ e ∈ (c.buckets index.headerPageId).pairs,
      (c.chain table.firstPageId).record e.2 ≠ none := by
    intro e he
    obtain ⟨data, hdata, -⟩ := (hpairs.pairs e).mp he
    rw [hdata]
    exact Option.some_ne_none _
  have hscanned : ∃ rids, rids.Nodup ∧
      (Plan.indexScan index.headerPageId key).EmitsOnly ext h img rids
      fun record => (c.chain table.firstPageId).record record.rid = some record.data :=
    indexScan_emits (hd.storage.index _ ⟨_, index, hindex, rfl⟩) (IndexKey.length_encode hkey).2
      hheap.holds himg hlive
  obtain ⟨rids, hnodup, hemits⟩ := hscanned
  have hfiltered :=
    filters_emits select.conditions hemits fun record hr => deserialize_of_live hd ht hr
  unfold buildProjection at hplan
  split at hplan
  · rename_i hfields
    split at hplan
    · cases hplan
    rename_i columns hcolumns
    cases hplan
    refine ⟨columns, rids, by rw [requested, if_pos hfields, hcolumns], rfl, hnodup, ?_⟩
    refine (projection_emits table.schema (columns.map Prod.fst) hfiltered).mono fun record hr => ?_
    obtain ⟨data, ⟨hrecord, hsat⟩, hproject⟩ := hr
    obtain ⟨values, hvalues⟩ := deserialize_of_live hd ht hrecord
    refine ⟨data, hrecord, hsat, ?_⟩
    rw [project_eq (selectColumns_ok hcolumns).1 hvalues] at hproject
    rw [RecordCodec.decoded_eq hvalues]
    exact RecordCodec.deserialize_serialize hproject
  · rename_i hfields
    cases hplan
    refine ⟨allColumns table.schema, rids, by rw [requested, if_neg hfields],
      (map_snd_allColumns _).symm, hnodup, ?_⟩
    refine hfiltered.mono fun record hr => ⟨record.data, hr.1, hr.2, ?_⟩
    obtain ⟨values, hvalues⟩ := deserialize_of_live hd ht hr.1
    rw [map_snd_allColumns, RecordCodec.decoded_eq hvalues,
      pick_allColumns (RecordCodec.length_deserialize hvalues)]
    exact hvalues

/-! ## The statement -/

/-- A plan that uses no index can use none. -/
theorem sequential_of_find {schema : Schema} : ∀ {conditions : List Condition},
    findIndexedCondition catalog select.tableName schema conditions = .ok none →
    ∀ condition ∈ conditions, condition.op = str "=" →
      catalog.hasIndex select.tableName condition.column = false := by
  intro conditions
  induction conditions with
  | nil => exact fun _ => List.forall_mem_nil _
  | cons first conditions ih =>
    intro hfind
    rw [findIndexedCondition] at hfind
    split at hfind
    · rename_i hno
      refine List.forall_mem_cons.mpr ⟨fun hop => hno.resolve_left (fun hne => hne hop), ih hfind⟩
    · split at hfind
      · cases hfind
      split at hfind
      · cases hfind
      split at hfind
      · cases hfind
      · cases hfind

/-- What a SELECT returns on a disk that fails: the requested values of distinct live records that
satisfy the WHERE clause, and of all of them when no index can be used. -/
def SoundAnswer (catalog : CatalogManager) (w : BufferPoolManager) (select : SelectStatement)
    (result : QueryResult) : Prop :=
  ∃ h c table columns records, Holds (fun _ => 0) w h ∧ Stored h catalog c ∧
    catalog.tables.lookup select.tableName = some table ∧
    requested table.schema select.fields = .ok columns ∧
    (records.map Record.rid).Nodup ∧
    (∀ record ∈ records, (c.chain table.firstPageId).record record.rid = some record.data ∧
      SatisfiesAll table.schema select.conditions record.data) ∧
    Returns columns table.schema records result ∧
    (Sequential catalog select → records = (c.chain table.firstPageId).records.filter fun record =>
      SatisfiesAll table.schema select.conditions record.data)

variable {w w' : BufferPoolManager} {faults : DiskFaults} {result : QueryResult}

/-- Through an index. -/
theorem select_indexed (hw : Holds (fun _ => 0) w h) (hd : Queryable h catalog d c)
    (ht : catalog.tables.lookup select.tableName = some table) {condition : Condition} {key : Bytes}
    (hfind : findIndexedCondition catalog select.tableName table.schema select.conditions =
      .ok (some (condition, key)))
    (hrun : (executeSelect catalog select).run (w.withFaults faults) =
      some ((.ok (), result), w')) :
    ∃ columns, ∃ emitted : List Record, requested table.schema select.fields = .ok columns ∧
      (emitted.map Record.rid).Nodup ∧
      (∀ record ∈ emitted,
        Shown (c.chain table.firstPageId) table.schema select.conditions columns record) ∧
      result = ⟨columns.map fun column => column.2.name, emitted.map fun record =>
        RecordCodec.decoded (columns.map Prod.snd) record.data, emitted.length, 0⟩ := by
  unfold executeSelect at hrun
  rcases hplan : buildPlan catalog select with e | ⟨plan, outputSchema⟩
  · rw [hplan] at hrun
    cases hrun
  rw [hplan] at hrun
  have hemits : ∃ columns rids, requested table.schema select.fields = .ok columns ∧
      outputSchema = columns.map Prod.snd ∧ rids.Nodup ∧
      plan.EmitsOnly (fun _ => 0) h.settled w.image rids
        (Shown (c.chain table.firstPageId) table.schema select.conditions columns) :=
    buildPlan_emits hd.settled (fun hp => hw.image hp) ht hfind hplan
  obtain ⟨columns, rids, hcolumns, rfl, hnodup, hstrict, Left, hleft, hopens⟩ := hemits
  dsimp only at hrun
  rw [run_bind] at hrun
  rcases hopen : (plan.operator.openOperator plan.state).run (w.withFaults faults) with
    _ | ⟨⟨e | _, s⟩, v⟩
  · rw [hopen] at hrun
    cases hrun
  · rw [hopen] at hrun
    cases hrun
  rw [hopen, Option.bind_some] at hrun
  -- it opens onto the state that it opens onto without faults
  have hopen' : (plan.operator.openOperator plan.state).run (w.withFaults faults).faultless =
      some ((.ok (), s), v.faultless) := run_faultless (hstrict plan.state) hopen (not_isError_ok _)
  obtain ⟨r, v', h', hrun', ⟨-, hr⟩, -, -⟩ := run_of_runs hw.faultless hopens
  cases hopen'.symm.trans hrun'
  have hread := (isReadOnly_buildPlan hplan).openOperator plan.state
  obtain ⟨-, hv, himage⟩ := run_sees (hread.sees w.image) (hw.coherent.withFaults faults) rfl hopen
  obtain ⟨⟨emitted, hsub, hall, hresult⟩, -, -⟩ := run_sees
    (selectLoop_sees hleft (fun record hr => ⟨_, hr.choose_spec.2.2⟩) scanFuel rids s _ (hr rfl))
    hv himage hrun
  refine ⟨columns, emitted, hcolumns, hnodup.sublist hsub, hall, ?_⟩
  dsimp only at hresult
  rw [hresult]
  simp

/-- Whatever the disk does from some state of the database on, a SELECT that reports success returns
no row that it should not, and no row twice; without an index it returns all. -/
theorem select_on_failing_disk (ho : Operated catalog w)
    (hrun : (executeSelect catalog select).run (w.withFaults faults) =
      some ((.ok (), result), w')) :
    SoundAnswer catalog w select result := by
  obtain ⟨h, d, c, hw, hd, -⟩ := ho.state
  have hq := hd.queryable
  cases ht : catalog.tables.lookup select.tableName with
  | none =>
    have hplan : buildPlan catalog select =
        .error (.notFound "Table was not found in catalog") := by
      rw [buildPlan, CatalogManager.getTableSchema, hd.wellFormed.status]
      dsimp only
      rw [ht]
    rw [executeSelect, hplan] at hrun
    cases hrun
  | some table =>
    rcases hfind : findIndexedCondition catalog select.tableName table.schema select.conditions with
      e | _ | ⟨condition, key⟩
    · have hplan : buildPlan catalog select = .error e := by
        have hbuild : buildPlan catalog select = _ :=
          buildPlan_eq hd.toDatabaseHolds ht select.fields select.isExplain
        rw [hbuild, hfind]
      rw [executeSelect, hplan] at hrun
      cases hrun
    · have hrun' := run_faultless (strict_executeSelect (sequential_of_find hfind)) hrun
        (not_isError_ok _)
      have hqueried : Runs (poolContext fun _ => 0) (executeSelect catalog select)
          (SelectDone h.settled catalog table (c.chain table.firstPageId) select) h.settled :=
        executeSelect_queried hq.settled ht
      obtain ⟨r, v, h', hdone', hdone, -, -⟩ := run_of_runs hw.faultless hqueried
      cases Eq.trans (Eq.symm hrun') hdone'
      obtain ⟨columns, records, indexed, hcolumns, hfind', hselects, hseq, hreturns⟩ :=
        hdone.returns rfl
      cases hfind.symm.trans hfind'
      exact ⟨h, c, table, columns, records, hw, stored_of_holds hd.toDatabaseHolds, ht, hcolumns,
        hselects.nodup, fun record hin => (hselects.mem record).mp hin, hreturns, fun _ => hseq rfl⟩
    · obtain ⟨columns, emitted, hcolumns, hnodup, hall, rfl⟩ := select_indexed hw hq ht hfind hrun
      set chain := c.chain table.firstPageId
      -- the live records whose values are shown
      refine ⟨h, c, table, columns, emitted.map fun record =>
        ⟨record.rid, (chain.record record.rid).getD []⟩, hw, stored_of_holds hd.toDatabaseHolds, ht,
        hcolumns, ?_, fun record hin => ?_, ⟨rfl, ?_, ?_⟩, fun hseq => ?_⟩
      · rw [List.map_map]
        exact hnodup
      · obtain ⟨shown, hshown, rfl⟩ := List.mem_map.mp hin
        obtain ⟨data, hdata, hsat, -⟩ := hall shown hshown
        dsimp only
        rw [hdata]
        exact ⟨rfl, hsat⟩
      · rw [List.map_map]
        refine List.map_congr_left fun shown hin => ?_
        obtain ⟨data, hdata, -, hvalues⟩ := hall shown hin
        rw [RecordCodec.decoded_eq hvalues, Function.comp_apply, hdata]
        rfl
      · rw [List.length_map]
      · rw [findIndexedCondition_none hseq] at hfind
        cases hfind

/-- The page of the only row cannot be read: the answer is sound, but empty. -/
theorem sample_failing_disk : ∃ catalog w faults result w', Operated catalog w ∧
    (executeSelect catalog
      ⟨str "t", [str "a"], [⟨str "a", str "=", ⟨.number, str "7"⟩⟩], false⟩).run
      (w.withFaults faults) = some ((.ok (), result), w') ∧ result.rows = [] ∧
    SoundAnswer catalog w ⟨str "t", [str "a"], [⟨str "a", str "=", ⟨.number, str "7"⟩⟩], false⟩
      result := by
  obtain ⟨catalog, w, hreached, hw⟩ := Reached.of_any 1 DiskFaults.none_reliable
    [str "CREATE TABLE t (a INT);", str "CREATE TABLE u (b INT);", str "CREATE INDEX i ON t (a);",
      str "INSERT INTO t VALUES (7);"] sampleStatements
    (fun catalog w => decide (((executeSelect catalog
        ⟨str "t", [str "a"], [⟨str "a", str "=", ⟨.number, str "7"⟩⟩], false⟩).run
        (w.withFaults { DiskFaults.none with read := fun n => decide (23 ≤ n) })).map
        (fun r => (r.1.1, r.1.2.rows)) = some (.ok (), [])))
    (by decide +kernel) (by decide +kernel)
  obtain ⟨⟨⟨status, result⟩, w'⟩, hrun, hr⟩ := Option.map_eq_some_iff.mp (of_decide_eq_true hw)
  simp only [Prod.mk.injEq] at hr
  obtain ⟨rfl, hrows⟩ := hr
  have ho := Operated.of_reached Nat.one_pos hreached
  exact ⟨catalog, w, _, result, w', ho, hrun, hrows, select_on_failing_disk ho hrun⟩

end QueryExecutor

end MiniDbms
