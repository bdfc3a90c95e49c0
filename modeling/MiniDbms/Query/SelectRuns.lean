import MiniDbms.Query.Plans
import MiniDbms.Storage.RecordRoundTrip

/-!
# SELECT

`requested schema fields` are the columns that a SELECT returns, `pick` their values in a row. On a
consistent database a SELECT that succeeds returns the requested values of the rows that satisfy the
WHERE clause, each once, and of a sequential plan in the order of the heap file
(`executeSelect_runs`). It succeeds if and only if the plan is built and opens and every projected
row can be encoded. `Queryable` is what this needs of a database: page 0 may show another catalog.
-/

namespace MiniDbms

open Lib PagedProgram Program HashIndex StringMap CatalogManager QueryExecutor

/-! ## Projected rows -/

/-- The values of a record. -/
def RecordCodec.decoded (schema : Schema) (data : Bytes) : List FieldValue :=
  match deserialize schema data with
  | .ok values => values
  | .error _ => []

theorem RecordCodec.decoded_eq {schema : Schema} {data : Bytes} {values : List FieldValue}
    (h : deserialize schema data = .ok values) : decoded schema data = values := by
  rw [decoded, h]

/-- The values of the columns in a row. -/
def pick (columns : List (Nat × Column)) (values : List FieldValue) : List FieldValue :=
  columns.map fun c => values.getD c.1 .null

/-- All columns with their numbers. -/
def allColumns (schema : Schema) : List (Nat × Column) := schema.zipIdx.map fun c => (c.2, c.1)

/-- The columns that a SELECT returns. -/
def requested (schema : Schema) (fields : List Bytes) : Except Status (List (Nat × Column)) :=
  if fields ≠ [] ∧ fields.head? ≠ some (str "*") then selectColumns schema fields
  else .ok (allColumns schema)

section

variable {schema : Schema} {fields : List Bytes} {columns : List (Nat × Column)}
  {values : List FieldValue} {data : Bytes}

theorem map_snd_allColumns (schema : Schema) : (allColumns schema).map Prod.snd = schema := by
  rw [allColumns, List.map_map]
  exact List.zipIdx_map_fst 0 schema

theorem pick_allColumns (hlen : values.length = schema.length) :
    pick (allColumns schema) values = values := by
  apply List.ext_getElem
  · rw [pick, allColumns, List.length_map, List.length_map, List.length_zipIdx, hlen]
  · intro i h₁ h₂
    simp only [pick, allColumns, List.getElem_map, List.getElem_zipIdx, Nat.zero_add]
    exact List.getD_eq_getElem _ _ h₂

/-- The columns with these numbers. -/
def Numbered (schema : Schema) (columns : List (Nat × Column)) : Prop :=
  ∀ c ∈ columns, schema[c.1]? = some c.2

theorem selectColumns_ok : ∀ {fields : List Bytes} {columns : List (Nat × Column)},
    selectColumns schema fields = .ok columns →
    Numbered schema columns ∧ columns.map (fun c => c.2.name) = fields := by
  intro fields
  induction fields with
  | nil =>
    intro columns h
    cases h
    exact ⟨nofun, rfl⟩
  | cons field fields ih =>
    intro columns h
    rw [selectColumns] at h
    split at h
    · cases h
    · rename_i k hk
      split at h
      · cases h
      · rename_i rest hrest
        cases h
        obtain ⟨hnumbered, hnames⟩ := ih hrest
        have hindex := findColumn_ok hk
        have hlt := Schema.lt_of_columnIndex hindex
        have hget : schema[k]? = some (schema.getD k ⟨[], .integer, 0⟩) := by
          rw [List.getD_eq_getElem _ _ hlt, List.getElem?_eq_getElem hlt]
        refine ⟨fun c hc => ?_, ?_⟩
        · rcases List.mem_cons.mp hc with rfl | hc
          · exact hget
          · exact hnumbered c hc
        · rw [List.map_cons, hnames, Schema.name_of_columnIndex hindex hget]

theorem Numbered.lt (h : Numbered schema columns) {c : Nat × Column} (hc : c ∈ columns) :
    c.1 < schema.length :=
  (List.getElem?_eq_some_iff.mp (h c hc)).1

theorem projectColumns_eq (h : Numbered schema columns) (hlen : values.length = schema.length) :
    RecordCodec.projectColumns schema values (columns.map Prod.fst) =
      .ok (columns.map fun c => (c.2, values.getD c.1 .null)) := by
  induction columns with
  | nil => rfl
  | cons c columns ih =>
    have hlt : c.1 < values.length := by
      rw [hlen]
      exact h.lt List.mem_cons_self
    rw [List.map_cons, RecordCodec.projectColumns, h c List.mem_cons_self,
      List.getElem?_eq_getElem hlt]
    dsimp only
    rw [ih fun x hx => h x (List.mem_cons_of_mem c hx), List.map_cons, List.getD_eq_getElem _ _ hlt]

/-- `Project` encodes the values of the columns. -/
theorem project_eq (h : Numbered schema columns)
    (hdata : RecordCodec.deserialize schema data = .ok values) :
    RecordCodec.project schema data (columns.map Prod.fst) =
      RecordCodec.serialize (columns.map Prod.snd) (pick columns values) := by
  rw [RecordCodec.project, hdata]
  dsimp only
  rw [projectColumns_eq h (RecordCodec.length_deserialize hdata)]
  dsimp only
  rw [List.map_map, List.map_map]
  rfl

/-- What a projection makes of records that can be decoded. -/
structure Projected (schema : Schema) (columns : List (Nat × Column)) (records : List Record)
    (r : List Record × Except Status Unit) : Prop where
  decodes : ∀ p ∈ r.1, ∃ values, RecordCodec.deserialize (columns.map Prod.snd) p.data = .ok values
  length : r.1.length ≤ records.length
  rows : r.2 = .ok () → r.1.map (fun p => RecordCodec.decoded (columns.map Prod.snd) p.data) =
    records.map fun record => pick columns (RecordCodec.decoded schema record.data)
  ok : (∀ record ∈ records, ∃ data, RecordCodec.serialize (columns.map Prod.snd)
    (pick columns (RecordCodec.decoded schema record.data)) = .ok data) → r.2 = .ok ()
  fits : r.2 = .ok () → ∀ record ∈ records, ∃ data, RecordCodec.serialize (columns.map Prod.snd)
    (pick columns (RecordCodec.decoded schema record.data)) = .ok data

theorem projectAll_projected (h : Numbered schema columns) : ∀ {records : List Record},
    (∀ record ∈ records, ∃ values, RecordCodec.deserialize schema record.data = .ok values) →
    Projected schema columns records
      (ProjectionOperator.projectAll schema (columns.map Prod.fst) records) := by
  intro records
  induction records with
  | nil =>
    exact fun _ => ⟨List.forall_mem_nil _, Nat.le_refl 0, fun _ => rfl, fun _ => rfl,
      fun _ => List.forall_mem_nil _⟩
  | cons record records ih =>
    intro hrows
    obtain ⟨values, hvalues⟩ := hrows record List.mem_cons_self
    obtain ⟨hdecodes, hlength, hmap, hok, hfits⟩ :=
      ih fun x hx => hrows x (List.mem_cons_of_mem _ hx)
    have hproject := project_eq h hvalues
    rw [ProjectionOperator.projectAll]
    cases hser : RecordCodec.serialize (columns.map Prod.snd) (pick columns values) with
    | error e =>
      rw [hproject, hser]
      refine ⟨List.forall_mem_nil _, Nat.zero_le _, (fun he => by cases he), fun hall => ?_,
        fun he => by cases he⟩
      obtain ⟨data, hdata⟩ := hall record List.mem_cons_self
      rw [RecordCodec.decoded_eq hvalues, hser] at hdata
      cases hdata
    | ok data =>
      have hdata := RecordCodec.deserialize_serialize hser
      rw [hproject, hser]
      refine ⟨fun p hp => ?_, Nat.succ_le_succ hlength, fun hstatus => ?_, fun hall => ?_,
        fun hstatus x hx => ?_⟩
      · rcases List.mem_cons.mp hp with rfl | hp
        · exact ⟨_, hdata⟩
        · exact hdecodes p hp
      · dsimp only at hstatus ⊢
        rw [List.map_cons, List.map_cons, hmap hstatus, RecordCodec.decoded_eq hdata,
          RecordCodec.decoded_eq hvalues]
      · exact hok fun x hx => hall x (List.mem_cons_of_mem _ hx)
      · rcases List.mem_cons.mp hx with rfl | hx
        · rw [RecordCodec.decoded_eq hvalues]
          exact ⟨data, hser⟩
        · exact hfits hstatus x hx

end

/-! ## The loop -/

section

variable {ext : PageId → Nat} {h : Pages} {σ : Type} {operator : AbstractOperator σ}
  {status : Except Status Unit} {schema : Schema}

/-- Draining a plan: the rows of all records, and the status of the plan. -/
theorem selectLoop_runs : ∀ (fuel : Nat) (records : List Record) (s : σ) (result : QueryResult),
    operator.YieldsFrom ext h status records s →
    (∀ record ∈ records, ∃ values, RecordCodec.deserialize schema record.data = .ok values) →
    records.length < fuel →
    Runs (poolContext ext) (selectLoop operator schema fuel s result) (fun r h' => h' = h ∧
      r.1 = status ∧ r.2 = { result with
        rows := result.rows ++ records.map fun record => RecordCodec.decoded schema record.data
        rowsReturned := result.rowsReturned + records.length }) h := by
  intro fuel
  induction fuel with
  | zero => exact fun _ _ _ _ _ hlt => absurd hlt (Nat.not_lt_zero _)
  | succ fuel ih =>
    intro records s result hy hrows hlt
    refine hy.call (fun s' hnil hclose => ?_) fun record rest s' hcons hrest => ?_
    · subst hnil
      refine runs_pure ⟨rfl, hclose, ?_⟩
      rw [List.map_nil, List.append_nil]
      rfl
    · subst hcons
      obtain ⟨values, hvalues⟩ := hrows record List.mem_cons_self
      dsimp only
      rw [hvalues]
      rw [List.length_cons] at hlt
      refine (ih rest s' _ hrest (fun x hx => hrows x (List.mem_cons_of_mem _ hx))
        (by omega)).mono fun r h' hr => ?_
      obtain ⟨rfl, hstatus, hresult⟩ := hr
      refine ⟨rfl, hstatus, ?_⟩
      rw [hresult, List.map_cons, List.append_assoc, RecordCodec.decoded_eq hvalues,
        List.singleton_append, List.length_cons, Nat.add_assoc, Nat.add_comm 1]

end

/-! ## The statement -/

section

variable {ext : PageId → Nat} {h : Pages} {catalog : CatalogManager} {d : PageData} {c : Contents}
  {table : TableMetadata} {select : SelectStatement}

/-- A consistent database in which every index is found under its own table and column only, and the
columns of a table are counted without overflow. -/
structure Queryable (h : Pages) (catalog : CatalogManager) (d : PageData) (c : Contents) : Prop
    extends DatabaseHolds h catalog d c where
  keysSeparate : catalog.KeysSeparate
  counts : ∀ {name table}, catalog.tables.lookup name = some table →
    table.schema.getColumnCount = table.schema.length

theorem DatabaseState.queryable (hd : DatabaseState h catalog d c) : Queryable h catalog d c :=
  ⟨hd.toDatabaseHolds, hd.keysSeparate, fun ht => hd.shown.getColumnCount_eq ht⟩

/-- The plan of a SELECT, and what it yields if it opens. -/
structure SelectPlan (ext : PageId → Nat) (h : Pages) (catalog : CatalogManager) (chain : Chain)
    (table : TableMetadata) (select : SelectStatement) (indexed : Option (Condition × Bytes))
    (columns : List (Nat × Column)) (plan : Plan) : Prop where
  built : buildPlan catalog select = .ok (plan, columns.map Prod.snd)
  fails : (∃ condition ∈ select.conditions, ∀ k target, ¬ condition.Target table.schema k target) →
    plan.Fails ext h
  opens : (∀ condition ∈ select.conditions, ∃ k target, condition.Target table.schema k target) →
    ∃ records produced status, plan.Produces ext h produced status ∧
      Selects chain table.schema select.conditions records ∧
      (indexed = none → records = chain.records.filter fun record =>
        SatisfiesAll table.schema select.conditions record.data) ∧
      Projected table.schema columns records (produced, status)

/-- A projection that is left out keeps the records. -/
theorem projected_all {schema : Schema} {records : List Record}
    (hrows : ∀ record ∈ records, ∃ values, RecordCodec.serialize schema values = .ok record.data) :
    Projected schema (allColumns schema) records (records, .ok ()) := by
  have hpicked : ∀ {record : Record} {values}, RecordCodec.serialize schema values =
      .ok record.data →
      pick (allColumns schema) (RecordCodec.decoded schema record.data) = values := by
    intro record values hser
    have hvalues := RecordCodec.deserialize_serialize hser
    rw [RecordCodec.decoded_eq hvalues, pick_allColumns (RecordCodec.length_deserialize hvalues)]
  refine ⟨fun record hin => ?_, Nat.le_refl _, fun _ => List.map_congr_left fun record hin => ?_,
    fun _ => rfl, fun _ record hin => ?_⟩
  all_goals obtain ⟨values, hser⟩ := hrows record hin
  all_goals rw [map_snd_allColumns]
  · exact ⟨values, RecordCodec.deserialize_serialize hser⟩
  · rw [hpicked hser, RecordCodec.decoded_eq (RecordCodec.deserialize_serialize hser)]
  · rw [hpicked hser]
    exact ⟨_, hser⟩

theorem selectPlan_of (hd : Queryable h catalog d c)
    (ht : catalog.tables.lookup select.tableName = some table)
    {indexed : Option (Condition × Bytes)} {columns : List (Nat × Column)}
    (hfind : findIndexedCondition catalog select.tableName table.schema select.conditions =
      .ok indexed) (hcolumns : requested table.schema select.fields = .ok columns) :
    ∃ plan, SelectPlan ext h catalog (c.chain table.firstPageId) table select indexed
    columns plan := by
  have hkeys : catalog.KeysSeparate := hd.keysSeparate
  have hcount := hd.counts ht
  replace hd := hd.toDatabaseHolds
  obtain ⟨scan, records₀, hscan, (hscanned : scan.Produces ext h records₀ (.ok ())), -⟩ :=
    scan_produces hd (hkeys.forConditions ht _) ht hfind
  have hbuilt : buildPlan catalog select =
      buildProjection table.schema select.fields (scan.filters table.schema select.conditions) := by
    rw [buildPlan_eq hd ht select.fields select.isExplain, hfind]
    dsimp only
    rw [hscan]
  have hfails : (∃ condition ∈ select.conditions,
      ∀ k target, ¬ condition.Target table.schema k target) →
      (scan.filters table.schema select.conditions).Fails ext h :=
    fun hno => filters_fails select.conditions scan (.inr hno)
  have hopens :
      (∀ condition ∈ select.conditions, ∃ k target, condition.Target table.schema k target) →
      ∃ records, (scan.filters table.schema select.conditions).Produces ext h records (.ok ()) ∧
        Selects (c.chain table.firstPageId) table.schema select.conditions records ∧
        (indexed = none → records = (c.chain table.firstPageId).records.filter fun record =>
          SatisfiesAll table.schema select.conditions record.data) ∧
        ∀ record ∈ records, ∃ values,
          RecordCodec.serialize table.schema values = .ok record.data := by
    intro htargets
    obtain ⟨scan', records, hscan', hproduces, hselects, hseq⟩ :=
      filteredScan_produces hd (hkeys.forConditions ht _) ht hfind htargets
    cases hscan.symm.trans hscan'
    exact ⟨records, hproduces, hselects, hseq, fun record hin =>
      hd.serialized ht record.rid record.data ((hselects.mem record).mp hin).1⟩
  unfold requested at hcolumns
  split at hcolumns
  · rename_i hfields
    obtain ⟨hnumbered, hnames⟩ := selectColumns_ok hcolumns
    refine ⟨(scan.filters table.schema select.conditions).projection table.schema
      (columns.map Prod.fst), ?_, fun hno => (hfails hno).projection _ _, fun htargets => ?_⟩
    · rw [hbuilt, buildProjection, if_pos hfields, hcolumns]
    · obtain ⟨records, hproduces, hselects, hseq, hrows⟩ := hopens htargets
      have hne : columns.map Prod.fst ≠ [] := by
        intro hnil
        rw [List.map_eq_nil_iff.mp hnil] at hnames
        exact hfields.1 hnames.symm
      have hlt : ∀ index ∈ columns.map Prod.fst, index < table.schema.getColumnCount := by
        intro index hin
        obtain ⟨column, hcolumn, rfl⟩ := List.mem_map.mp hin
        rw [hcount]
        exact hnumbered.lt hcolumn
      exact ⟨records, _, _, projection_produces hproduces hne hlt, hselects, hseq,
        projectAll_projected hnumbered fun record hin => by
          obtain ⟨values, hser⟩ := hrows record hin
          exact ⟨values, RecordCodec.deserialize_serialize hser⟩⟩
  · rename_i hfields
    cases hcolumns
    refine ⟨scan.filters table.schema select.conditions, ?_, hfails, fun htargets => ?_⟩
    · rw [hbuilt, buildProjection, if_neg hfields, map_snd_allColumns]
    · obtain ⟨records, hproduces, hselects, hseq, hrows⟩ := hopens htargets
      exact ⟨records, records, _, hproduces, hselects, hseq, projected_all hrows⟩

/-- What a SELECT that has succeeded returns: the requested values of the records. -/
structure Returns (columns : List (Nat × Column)) (schema : Schema) (records : List Record)
    (result : QueryResult) : Prop where
  columnNames : result.columnNames = columns.map fun c => c.2.name
  rows : result.rows =
    records.map fun record => pick columns (RecordCodec.decoded schema record.data)
  rowsReturned : result.rowsReturned = records.length

/-- The SELECT can be planned, its conditions make sense, and its rows can be encoded. -/
structure Answerable (catalog : CatalogManager) (table : TableMetadata) (chain : Chain)
    (select : SelectStatement) (columns : List (Nat × Column)) : Prop where
  requested : requested table.schema select.fields = .ok columns
  targets : ∀ condition ∈ select.conditions, ∃ k target, condition.Target table.schema k target
  indexed : ∃ indexed,
    findIndexedCondition catalog select.tableName table.schema select.conditions =
    .ok indexed
  fits : ∀ rid data, chain.record rid = some data →
    SatisfiesAll table.schema select.conditions data → ∃ encoded,
      RecordCodec.serialize (columns.map Prod.snd)
        (pick columns (RecordCodec.decoded table.schema data)) =
        .ok encoded

/-- What a SELECT does on a consistent database: it changes nothing, what it returns with success is
as it should be, and it succeeds if and only if it can be answered. -/
structure SelectDone (h : Pages) (catalog : CatalogManager) (table : TableMetadata) (chain : Chain)
    (select : SelectStatement) (r : Except Status Unit × QueryResult) (h' : Pages) : Prop where
  same : h' = h
  returns : r.1 = .ok () → ∃ columns records indexed,
    requested table.schema select.fields = .ok columns ∧
    findIndexedCondition catalog select.tableName table.schema select.conditions = .ok indexed ∧
    Selects chain table.schema select.conditions records ∧
    (indexed = none → records = chain.records.filter fun record =>
      SatisfiesAll table.schema select.conditions record.data) ∧
    Returns columns table.schema records r.2
  ok : (∃ columns, Answerable catalog table chain select columns) → r.1 = .ok ()
  answerable : r.1 = .ok () → ∃ columns, Answerable catalog table chain select columns

/-- A SELECT that fails before it reads. -/
theorem selectDone_error {chain : Chain} {e : Status}
    (hno : ∀ columns, ¬ Answerable catalog table chain select columns) (result : QueryResult) :
    SelectDone h catalog table chain select (.error e, result) h :=
  ⟨rfl, (fun he => by cases he), fun ⟨columns, ha⟩ => absurd ha (hno columns),
    fun he => by cases he⟩

theorem executeSelect_queried (hd : Queryable h catalog d c)
    (ht : catalog.tables.lookup select.tableName = some table) :
    Runs (poolContext ext) (executeSelect catalog select)
      (SelectDone h catalog table (c.chain table.firstPageId) select) h := by
  have hbuild : buildPlan catalog select = _ :=
    buildPlan_eq hd.toDatabaseHolds ht select.fields select.isExplain
  cases hfind : findIndexedCondition catalog select.tableName table.schema select.conditions with
  | error e =>
    rw [hfind] at hbuild
    rw [executeSelect, hbuild]
    refine runs_pure (selectDone_error (fun columns ha => ?_) _)
    obtain ⟨indexed, hindexed⟩ := ha.indexed
    rw [hfind] at hindexed
    cases hindexed
  | ok indexed =>
    cases hcolumns : requested table.schema select.fields with
    | error e =>
      have hkeys : catalog.KeysSeparate := hd.keysSeparate
      obtain ⟨scan, records, hscan, (hscanned : scan.Produces ext h records (.ok ())), -⟩ :=
        scan_produces hd.toDatabaseHolds (hkeys.forConditions ht _) ht hfind
      have hplan : buildPlan catalog select = .error e := by
        rw [hbuild, hfind]
        dsimp only
        rw [hscan]
        dsimp only
        unfold requested at hcolumns
        split at hcolumns
        · rename_i hfields
          rw [buildProjection, if_pos hfields, hcolumns]
        · cases hcolumns
      rw [executeSelect, hplan]
      refine runs_pure (selectDone_error (fun columns ha => ?_) _)
      have hrequested := ha.requested
      rw [hcolumns] at hrequested
      cases hrequested
    | ok columns =>
      obtain ⟨plan, hplan⟩ := selectPlan_of hd ht hfind hcolumns
      have hplan : SelectPlan ext h catalog _ table select indexed columns plan := hplan
      obtain ⟨hbuilt, hfails, hopens⟩ := hplan
      rw [executeSelect, hbuilt]
      dsimp only
      by_cases htargets : ∀ condition ∈ select.conditions,
          ∃ k target, condition.Target table.schema k target
      · obtain ⟨records, produced, status, hproduces, hselects, hseq, hprojected⟩ := hopens htargets
        have hlt := length_lt_scanFuel (heapHolds_of_lookup hd.toDatabaseHolds ht) hselects.nodup
          fun record hin => ((hselects.mem record).mp hin).1
        refine (Runs.mono hproduces fun r h' hr => ?_).bind
        obtain ⟨r, s⟩ := r
        obtain ⟨rfl, rfl, hy⟩ := hr
        refine (selectLoop_runs scanFuel produced s _ hy hprojected.decodes
          (lt_of_le_of_lt hprojected.length hlt)).mono fun r h' hr => ?_
        obtain ⟨rfl, hstatus, hresult⟩ := hr
        refine ⟨rfl, fun hok => ?_, fun ⟨columns', ha⟩ => ?_, fun hok => ?_⟩
        · rw [hstatus] at hok
          have hrows := hprojected.rows hok
          refine ⟨columns, records, indexed, hcolumns, hfind, hselects, hseq, ?_, ?_, ?_⟩
          · rw [hresult, List.map_map]
            rfl
          · rw [hresult]
            exact hrows
          · have hlength := congrArg List.length hrows
            rw [List.length_map, List.length_map] at hlength
            rw [hresult]
            dsimp only
            rw [hlength, Nat.zero_add]
        · cases hcolumns.symm.trans ha.requested
          rw [hstatus]
          apply hprojected.ok
          intro record hin
          obtain ⟨hr, hsat⟩ := (hselects.mem record).mp hin
          exact ha.fits record.rid record.data hr hsat
        · rw [hstatus] at hok
          exact ⟨columns, hcolumns, htargets, ⟨indexed, hfind⟩, fun rid data hr hsat =>
            hprojected.fits hok ⟨rid, data⟩ ((hselects.mem ⟨rid, data⟩).mpr ⟨hr, hsat⟩)⟩
      · simp only [not_forall, not_exists] at htargets
        obtain ⟨condition, hin, hno⟩ := htargets
        refine (Runs.mono (hfails ⟨condition, hin, hno⟩) fun r h' hr => ?_).bind
        obtain ⟨r, s⟩ := r
        obtain ⟨rfl, e, rfl⟩ := hr
        refine runs_pure (selectDone_error (fun columns ha => ?_) _)
        obtain ⟨k, target, htarget⟩ := ha.targets condition hin
        exact hno k target htarget

theorem executeSelect_runs (hd : DatabaseState h catalog d c)
    (ht : catalog.tables.lookup select.tableName = some table) :
    Runs (poolContext ext) (executeSelect catalog select)
      (SelectDone h catalog table (c.chain table.firstPageId) select) h :=
  executeSelect_queried hd.queryable ht

end

end MiniDbms
