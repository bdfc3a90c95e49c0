import MiniDbms.Query.Relational

/-!
# SELECT on the relational model

`Answered catalog c statement`: the reply is one that `Answers` allows in the database of the
catalog, and the pages afterwards hold the database that it says. SELECT and EXPLAIN are answered so
(`executeSelect_answers`, `answerExplain_runs`), and they fail only if the relation is not
`Answerable`.
-/

namespace MiniDbms

open Lib PagedProgram Program HashIndex HeapFile StringMap CatalogManager QueryExecutor

namespace QueryExecutor

section

variable {ext : PageId → Nat} {h h' : Pages} {catalog : CatalogManager} {d : PageData}
  {c c' : Contents} {name : Bytes} {table : TableMetadata} {conditions : List Condition}
  {records : List Record} {select : SelectStatement}

/-- What is left of a statement. -/
def Answered (catalog : CatalogManager) (c : Contents) (statement : SQLStatement)
    (r : Reply × CatalogManager) (h' : Pages) : Prop :=
  ∃ d' c', DatabaseState h' r.2 d' c' ∧
    Answers (databaseOf catalog c) statement r.1 (databaseOf r.2 c')

/-- The reply to a statement that is no SELECT. -/
def replyOf : Except Status Unit × Nat → Reply
  | (.error e, _) => .executionError e
  | (.ok (), rowsAffected) => .ofAffected rowsAffected

/-- A statement that leaves the catalog and page 0 as they were. -/
theorem Answered.of_rows {statement : SQLStatement} {reply : Reply} {db : Database}
    (hd : DatabaseState h catalog d c) (hd' : DatabaseHolds h' catalog d c')
    (hdb : databaseOf catalog c' = db) (ha : Answers (databaseOf catalog c) statement reply db) :
    Answered catalog c statement (reply, catalog) h' :=
  ⟨d, c', hd.of_holds hd', hdb.symm ▸ ha⟩

theorem Answered.of_same {statement : SQLStatement} {reply : Reply}
    (hd : DatabaseState h catalog d c)
    (ha : Answers (databaseOf catalog c) statement reply (databaseOf catalog c)) :
    Answered catalog c statement (reply, catalog) h :=
  ⟨d, c, hd, ha⟩

/-! ## Plans -/

theorem findIndexedCondition_ok (catalog : CatalogManager) (name : Bytes) {schema : Schema} :
    ∀ {conditions : List Condition}, Scannable schema conditions →
    ∃ indexed, findIndexedCondition catalog name schema conditions = .ok indexed := by
  intro conditions
  induction conditions with
  | nil => exact fun _ => ⟨none, rfl⟩
  | cons condition conditions ih =>
    intro hs
    rw [findIndexedCondition]
    split
    · exact ih ⟨fun x hx => hs.targets x (List.mem_cons_of_mem _ hx),
        fun x hx => hs.keys x (List.mem_cons_of_mem _ hx)⟩
    · rename_i hc
      rw [not_or, not_not] at hc
      obtain ⟨k, target, hk, ht⟩ := hs.targets condition List.mem_cons_self
      obtain ⟨key, hkey⟩ := hs.keys condition List.mem_cons_self hc.1 k target ⟨hk, ht⟩
      rw [findColumn_of_some hk]
      dsimp only
      rw [ht]
      dsimp only
      rw [hkey]
      exact ⟨_, rfl⟩

variable (ext) in
/-- The plan of an UPDATE or a DELETE yields the selected rows, unless the WHERE clause makes no
sense. -/
theorem buildScanPlan_cases (hd : DatabaseState h catalog d c)
    (ht : catalog.tables.lookup name = some table) (conditions : List Condition) :
    ((∃ e, buildScanPlan catalog name conditions = .error e) ∧
      ¬ Scannable table.schema conditions) ∨
    ∃ plan schema, buildScanPlan catalog name conditions = .ok (plan, schema) ∧
      ((plan.Fails ext h ∧ ¬ Scannable table.schema conditions) ∨
        ∃ records, plan.Produces ext h records (.ok ()) ∧
          Selects (c.chain table.firstPageId) table.schema conditions records) := by
  have hkeys : catalog.KeysSeparate := hd.keysSeparate
  replace hd := hd.toDatabaseHolds
  by_cases hs : Scannable table.schema conditions
  · obtain ⟨indexed, hfind⟩ := findIndexedCondition_ok catalog name hs
    obtain ⟨scan, records, hscan, hp, hselects, -⟩ :=
      filteredScan_produces hd (hkeys.forConditions ht _) ht hfind hs.targets
    refine .inr ⟨_, table.schema, ?_, .inr ⟨records, hp, hselects⟩⟩
    rw [buildScanPlan, buildPlan_eq hd ht, hfind]
    dsimp only
    rw [hscan]
    rfl
  · cases hplan : buildScanPlan catalog name conditions with
    | error e => exact .inl ⟨⟨e, rfl⟩, hs⟩
    | ok built =>
      obtain ⟨plan, schema⟩ := built
      refine .inr ⟨plan, schema, rfl, ?_⟩
      rcases buildScanPlan_ok hd (hkeys.forConditions ht _) ht hplan with hfails | hp
      · exact .inl ⟨hfails, hs⟩
      · exact .inr hp

/-! ## SELECT -/

/-- What the relational model can answer, the executor can. -/
theorem answerable_of_relation (hd : DatabaseState h catalog d c)
    (ht : catalog.tables.lookup select.tableName = some table) {columns : List (Nat × Column)}
    (ha : (relationOf table c).Answerable select columns) :
    Answerable catalog table (c.chain table.firstPageId) select columns := by
  have hh := heapHolds_of_lookup hd.toDatabaseHolds ht
  refine ⟨requested_eq_ok.mpr ha.asks, ha.scannable.targets,
    findIndexedCondition_ok _ _ ha.scannable, fun rid data hr hsat => ha.fits _ ?_⟩
  rw [Relation.selected, Multiset.mem_filter]
  obtain ⟨values, hvalues, hall⟩ := hsat
  refine ⟨?_, ?_⟩
  · show _ ∈ rowsOf table.schema (c.chain table.firstPageId)
    rw [rowsOf, Multiset.mem_coe, List.mem_map]
    exact ⟨⟨rid, data⟩, (Chain.mem_records hh.holds.bounded hh.nodup).mpr hr, rfl⟩
  · rw [RecordCodec.decoded_eq hvalues]
    exact hall

theorem executeSelect_answers (hd : DatabaseState h catalog d c)
    (hplain : select.isExplain = false) :
    Runs (poolContext ext) (executeSelect catalog select) (fun r h' => h' = h ∧ match r.1 with
      | .ok () => Answers (databaseOf catalog c) (.select select) (.rows r.2.columnNames r.2.rows)
          (databaseOf catalog c)
      | .error e => Answers (databaseOf catalog c) (.select select) (.executionError e)
          (databaseOf catalog c)) h := by
  cases ht : catalog.tables.lookup select.tableName with
  | none =>
    rw [executeSelect, buildPlan, getTableSchema_none hd.toDatabaseHolds ht]
    refine runs_pure ⟨rfl, .selectFails _ fun r columns hr => ?_⟩
    rw [databaseOf_none ht] at hr
    cases hr
  | some table =>
    refine (executeSelect_runs hd ht).mono fun r h' hr => ⟨hr.same, ?_⟩
    obtain ⟨status, result⟩ := r
    cases status with
    | ok =>
      obtain ⟨columns, records, indexed, hrequested, -, hselects, -, hreturns⟩ := hr.returns rfl
      have hselected := selected_eq hd.toDatabaseHolds ht hselects
      dsimp only at hreturns ⊢
      rw [hreturns.columnNames]
      refine .select (databaseOf_some ht c) (requested_eq_ok.mp hrequested) hplain ?_
      rw [hselected, hreturns.rows, Multiset.map_coe, List.map_map]
      rfl
    | error e =>
      refine .selectFails e fun r columns hr' ha => ?_
      cases (databaseOf_some ht c).symm.trans hr'
      cases hr.ok ⟨columns, answerable_of_relation hd ht ha⟩

/-! ## EXPLAIN -/

theorem countLoop_runs {σ : Type} {operator : AbstractOperator σ} {status : Except Status Unit} :
    ∀ (fuel : Nat) (records : List Record) (s : σ) (n : Nat),
      operator.YieldsFrom ext h status records s → records.length < fuel →
      Runs (poolContext ext) (countLoop operator fuel s n) (fun r h' => h' = h ∧
        r = (status, n + records.length)) h := by
  intro fuel
  induction fuel with
  | zero => exact fun _ _ _ _ hlt => absurd hlt (Nat.not_lt_zero _)
  | succ fuel ih =>
    intro records s n hy hlt
    refine hy.call (fun s' hnil hclose => ?_) fun record rest s' hcons hrest => ?_
    · subst hnil
      refine runs_pure ⟨rfl, ?_⟩
      have hclose : closePlan (operator.close s') (.ok ()) = status := hclose
      rw [hclose]
      rfl
    · subst hcons
      rw [List.length_cons] at hlt ⊢
      refine (ih rest s' (n + 1) hrest (by omega)).mono fun r h' hr => ?_
      obtain ⟨rfl, rfl⟩ := hr
      refine ⟨rfl, ?_⟩
      rw [Nat.add_assoc, Nat.add_comm 1]

variable (ext) in
/-- The plan of a SELECT is not built, or it is a plan for the requested columns. -/
theorem buildPlan_cases (hd : DatabaseState h catalog d c)
    (ht : catalog.tables.lookup select.tableName = some table) :
    ((∃ e, buildPlan catalog select = .error e) ∧
      ∀ columns, ¬ Answerable catalog table (c.chain table.firstPageId) select columns) ∨
    ∃ indexed columns plan, requested table.schema select.fields = .ok columns ∧
      SelectPlan ext h catalog (c.chain table.firstPageId) table select indexed columns plan := by
  have hbuild : buildPlan catalog select = _ :=
    buildPlan_eq hd.toDatabaseHolds ht select.fields select.isExplain
  cases hfind : findIndexedCondition catalog select.tableName table.schema select.conditions with
  | error e =>
    rw [hfind] at hbuild
    refine .inl ⟨⟨e, hbuild⟩, fun columns ha => ?_⟩
    obtain ⟨indexed, hindexed⟩ := ha.indexed
    cases hfind.symm.trans hindexed
  | ok indexed =>
    cases hcolumns : requested table.schema select.fields with
    | error e =>
      refine .inl ⟨⟨e, ?_⟩, fun columns ha => ?_⟩
      · have hkeys : catalog.KeysSeparate := hd.keysSeparate
        obtain ⟨scan, records, hscan, (_ : scan.Produces ext h records (.ok ())), -⟩ :=
          scan_produces hd.toDatabaseHolds (hkeys.forConditions ht _) ht hfind
        rw [hbuild, hfind]
        dsimp only
        rw [hscan]
        dsimp only
        unfold requested at hcolumns
        split at hcolumns
        · rename_i hfields
          rw [buildProjection, if_pos hfields, hcolumns]
        · cases hcolumns
      · cases hcolumns.symm.trans ha.requested
    | ok columns =>
      obtain ⟨plan, hplan⟩ := selectPlan_of hd.queryable ht hfind hcolumns
      exact .inr ⟨indexed, columns, plan, rfl, hplan⟩

theorem executeCount_answers (hd : DatabaseState h catalog d c) (hexplain : select.isExplain = true)
    (scan : ScanType) :
    Runs (poolContext ext) (executeCount catalog select) (fun r h' => h' = h ∧ match r.1 with
      | .ok () => Answers (databaseOf catalog c) (.select select) (.explain scan r.2)
          (databaseOf catalog c)
      | .error e => Answers (databaseOf catalog c) (.select select) (.executionError e)
          (databaseOf catalog c)) h := by
  cases ht : catalog.tables.lookup select.tableName with
  | none =>
    rw [executeCount, buildPlan, getTableSchema_none hd.toDatabaseHolds ht]
    refine runs_pure ⟨rfl, .selectFails _ fun r columns hr => ?_⟩
    rw [databaseOf_none ht] at hr
    cases hr
  | some table =>
    have hfails : ∀ e : Status, (∀ columns, ¬ Answerable catalog table (c.chain table.firstPageId)
        select columns) → Answers (databaseOf catalog c) (.select select) (.executionError e)
          (databaseOf catalog c) := by
      intro e hno
      refine .selectFails e fun r columns hr ha => ?_
      cases (databaseOf_some ht c).symm.trans hr
      exact hno columns (answerable_of_relation hd ht ha)
    rcases buildPlan_cases ext hd ht with ⟨⟨e, hplan⟩, hno⟩ |
        ⟨indexed, columns, plan, hcolumns, hbuilt, hclosed, hopens⟩
    · rw [executeCount, hplan]
      exact runs_pure ⟨rfl, hfails e hno⟩
    rw [executeCount, hbuilt]
    dsimp only
    by_cases htargets : ∀ condition ∈ select.conditions,
        ∃ k target, condition.Target table.schema k target
    · obtain ⟨records, produced, status, hproduces, hselects, -, hprojected⟩ := hopens htargets
      have hlt := length_lt_scanFuel (heapHolds_of_lookup hd.toDatabaseHolds ht) hselects.nodup
        fun record hin => ((hselects.mem record).mp hin).1
      refine (Runs.mono hproduces fun r h' hr => ?_).bind
      obtain ⟨r, s⟩ := r
      obtain ⟨rfl, rfl, hy⟩ := hr
      refine (countLoop_runs scanFuel produced s 0 hy
        (lt_of_le_of_lt hprojected.length hlt)).mono fun r h' hr => ?_
      obtain ⟨rfl, rfl⟩ := hr
      refine ⟨rfl, ?_⟩
      cases status with
      | ok =>
        have hlength := congrArg List.length (hprojected.rows rfl)
        rw [List.length_map, List.length_map] at hlength
        have hcard : 0 + produced.length =
            ((relationOf table c).selected select.conditions).card := by
          rw [selected_eq hd.toDatabaseHolds ht hselects, Multiset.coe_card,
            List.length_map, hlength, Nat.zero_add]
        dsimp only
        rw [hcard]
        exact .explain scan (databaseOf_some ht c) (requested_eq_ok.mp hcolumns) hexplain
      | error e =>
        refine hfails e fun columns' ha => ?_
        cases hcolumns.symm.trans ha.requested
        cases hprojected.ok fun record hin =>
          ha.fits record.rid record.data ((hselects.mem record).mp hin).1
            ((hselects.mem record).mp hin).2
    · simp only [not_forall, not_exists] at htargets
      obtain ⟨condition, hin, hno⟩ := htargets
      refine (Runs.mono (hclosed ⟨condition, hin, hno⟩) fun r h' hr => ?_).bind
      obtain ⟨r, s⟩ := r
      obtain ⟨rfl, e, rfl⟩ := hr
      refine runs_pure ⟨rfl, hfails e fun columns ha => ?_⟩
      obtain ⟨k, target, htarget⟩ := ha.targets condition hin
      exact hno k target htarget

theorem answerExplain_runs (hd : DatabaseState h catalog d c) (hexplain : select.isExplain = true) :
    Runs (poolContext ext) (answerExplain catalog select)
      (fun reply h' => Answered catalog c (.select select) (reply, catalog) h') h := by
  rw [answerExplain, hd.wellFormed.status]
  refine ((executeCount_answers hd hexplain (scanType catalog select)).mono fun r h' hr => ?_).bind
  obtain ⟨status, rowsReturned⟩ := r
  obtain ⟨rfl, ha⟩ := hr
  cases status with
  | ok => exact runs_pure (.of_same hd ha)
  | error e => exact runs_pure (.of_same hd ha)

end

end QueryExecutor

end MiniDbms
