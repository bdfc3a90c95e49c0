import MiniDbms.Query.SelectAnswers

/-!
# Statements on the relational model

Every statement is answered as `Answers` says in a consistent database (`answerStatement_runs`). An
INSERT adds a row. An UPDATE replaces values in the selected rows, or in some of them when it fails.
A DELETE removes all selected rows or fails before it removes one (`executeDelete_complete`). CREATE
TABLE adds an empty relation, and CREATE INDEX changes no relation.
-/

namespace MiniDbms

open Lib PagedProgram Program HashIndex HeapFile StringMap CatalogManager QueryExecutor

namespace QueryExecutor

section

variable {ext : PageId → Nat} {h h' : Pages} {catalog : CatalogManager} {d : PageData}
  {c c' : Contents} {name : Bytes} {table : TableMetadata} {records : List Record}

/-! ## INSERT -/

theorem executeInsert_answers (hd : DatabaseState h catalog d c) (s : InsertStatement) :
    Runs (poolContext ext) (executeInsert catalog s) (fun r h' =>
      Answered catalog c (.insert s) (replyOf r, catalog) h') h := by
  unfold executeInsert
  cases ht : catalog.tables.lookup s.tableName with
  | none =>
    rw [getTableSchema_none hd.toDatabaseHolds ht]
    exact runs_pure (.of_same hd (.insertFails _))
  | some table =>
    rw [getTableSchema_eq hd.toDatabaseHolds ht]
    dsimp only
    split
    · exact runs_pure (.of_same hd (.insertFails _))
    rename_i hlength
    split
    · exact runs_pure (.of_same hd (.insertFails _))
    rename_i values hvalues
    refine ((TableStorage.insertRecord_effect hd.toDatabaseHolds ht values).mono
      fun r h' hr => ?_).bind
    rcases hr with ⟨rid, data, c', rfl, hser, hfresh, hd', hrow⟩ | ⟨e, c', rfl, -, hd', hsame⟩
    · have hnew : (c'.chain table.firstPageId).record rid = some data := by
        rw [hrow.changed, if_pos rfl]
      have hrows : relationOf table c' =
          { relationOf table c with rows := values ::ₘ (relationOf table c).rows } := by
        rw [relationOf, rowsOf_insert (heapHolds_of_lookup hd.toDatabaseHolds ht)
          (heapHolds_of_lookup hd' ht) hfresh hnew fun rid' hne => by rw [hrow.changed, if_neg hne],
          RecordCodec.decoded_eq (RecordCodec.deserialize_serialize hser)]
        rfl
      refine runs_pure (.of_rows hd hd' (databaseOf_change hd.toDatabaseHolds hd' ht
        (hd.spares ht fun q hq rid => by rw [hrow.others q hq])) ?_)
      rw [hrows]
      exact .insert (databaseOf_some ht c) (not_not.mp hlength) hvalues
    · exact runs_pure (.of_rows hd hd' (databaseOf_sameRows hd.toDatabaseHolds hd' hsame)
        (.insertFails e))

/-! ## UPDATE and DELETE -/

/-- When some of the selected records are changed, so are their rows. -/
theorem databaseOf_applied {m : Mutation} {n : Nat} {conditions : List Condition}
    (hd : DatabaseHolds h catalog d c) (ht : catalog.tables.lookup name = some table)
    (hselects : Selects (c.chain table.firstPageId) table.schema conditions records)
    (happlied : Mutation.Applied catalog d c table m records h' n c')
    (edit : Row → Option Row)
    (hedit : ∀ old new, m.NewRow table.schema old new → new.map (RecordCodec.decoded table.schema) =
      edit (RecordCodec.decoded table.schema old)) :
    databaseOf catalog c' = Function.update (databaseOf catalog c) name
      (some ((relationOf table c).change edit
        ((records.take n).map fun r => RecordCodec.decoded table.schema r.data : List Row))) := by
  have hsub : ∀ record ∈ records.take n, record ∈ records := fun record hin =>
    List.take_subset n records hin
  rw [databaseOf_change hd happlied.holds ht (hd.spares ht happlied.rows.others), relationOf,
    rowsOf_change (heapHolds_of_lookup hd ht) (heapHolds_of_lookup happlied.holds ht)
      (hselects.nodup.sublist ((List.take_sublist n records).map _))
      (fun record hin => ((hselects.mem record).mp (hsub record hin)).1) happlied.rows.unchanged
      fun record hin => hedit _ _ (happlied.rows.changed record hin)]
  rfl

/-- The changed rows are some of the selected ones. -/
theorem changed_le (hd : DatabaseHolds h catalog d c) (ht : catalog.tables.lookup name = some table)
    {conditions : List Condition}
    (hselects : Selects (c.chain table.firstPageId) table.schema conditions records) (n : Nat) :
    ((records.take n).map fun r => RecordCodec.decoded table.schema r.data : List Row) ≤
      (relationOf table c).selected conditions := by
  rw [selected_eq hd ht hselects]
  exact Multiset.coe_le.mpr ((List.take_sublist n records).map _).subperm

/-- An UPDATE that succeeds has found its column and converted its value. -/
theorem executeUpdate_always (s : UpdateStatement) :
    (executeUpdate catalog s).Always fun r => r.1 = .ok () → ∃ schema k v,
      catalog.getTableSchema s.tableName = .ok schema ∧ schema.columnIndex s.columnName = some k ∧
      convertLiteral (schema.getD k ⟨[], .integer, 0⟩) s.newValue true = .ok v := by
  unfold executeUpdate
  split
  · exact always_pure fun he => by cases he
  refine always_bind (always_true _) fun opened _ => ?_
  obtain ⟨opened, state⟩ := opened
  cases opened with
  | error e => exact always_pure fun he => by cases he
  | ok =>
    dsimp only
    cases hschema : catalog.getTableSchema s.tableName with
    | error e => exact always_pure fun he => by cases he
    | ok schema =>
      simp only [Bind.bind, Except.bind]
      cases hk : findColumn schema s.columnName with
      | error e => exact always_pure fun he => by cases he
      | ok k =>
        dsimp only
        cases hv : convertLiteral (schema.getD k ⟨[], .integer, 0⟩) s.newValue true with
        | error e => exact always_pure fun he => by cases he
        | ok v =>
          refine always_bind (always_true _) fun _ _ => ?_
          split
          · exact always_pure fun he => by cases he
          · exact (always_true _).mono fun _ _ _ => ⟨schema, k, v, rfl, findColumn_ok hk, hv⟩

/-- The new rows of an UPDATE. -/
theorem edits_of_newRow {s : UpdateStatement} {schema : Schema} {k : Nat} {v : FieldValue}
    (hk : schema.columnIndex s.columnName = some k)
    (hv : convertLiteral (schema.getD k ⟨[], .integer, 0⟩) s.newValue true = .ok v) {old : Bytes}
    {new : Option Bytes} (hnew : (Mutation.update s).NewRow schema old new) :
    new.map (RecordCodec.decoded schema) = some ((RecordCodec.decoded schema old).set k v) := by
  obtain ⟨k', v', values, data, hk', hv', hold, rfl, hdata⟩ := hnew
  cases hk.symm.trans hk'
  cases hv.symm.trans hv'
  rw [Option.map_some, RecordCodec.decoded_eq hdata, RecordCodec.decoded_eq hold]

theorem executeUpdate_answers (hd : DatabaseState h catalog d c) (s : UpdateStatement) :
    Runs (poolContext ext) (executeUpdate catalog s) (fun r h' =>
      Answered catalog c (.update s) (replyOf r, catalog) h') h := by
  cases ht : catalog.tables.lookup s.tableName with
  | none =>
    rw [executeUpdate, buildScanPlan, buildPlan, getTableSchema_none hd.toDatabaseHolds ht]
    exact runs_pure (.of_same hd (.updateFails _))
  | some table =>
  rcases buildScanPlan_cases ext hd ht s.conditions with ⟨⟨e, hplan⟩, -⟩ |
      ⟨plan, schema, hplan, ⟨hfails, -⟩ | ⟨records, hp, hselects⟩⟩
  · rw [show executeUpdate catalog s = _ from exec_of_error (m := .update s) hplan]
    exact runs_pure (.of_same hd (.updateFails e))
  · have hruns : Runs (poolContext ext) (executeUpdate catalog s) _ h :=
      exec_of_fails (m := .update s) hplan hfails
    refine hruns.mono fun r h' hr => ?_
    obtain ⟨status, affected⟩ := r
    obtain ⟨rfl, -, e, rfl⟩ := hr
    exact .of_same hd (.updateFails e)
  have hruns : Runs (poolContext ext) (executeUpdate catalog s) _ h :=
    (Mutation.executeUpdate_runs hd.toDatabaseHolds ht hplan hp hselects).always
      (executeUpdate_always s)
  refine hruns.mono fun r h' hr => ?_
  obtain ⟨status, affected⟩ := r
  obtain ⟨⟨c', hle, hall, happlied⟩, hfound⟩ := hr
  have hdb : ∀ {k v}, table.schema.columnIndex s.columnName = some k →
      convertLiteral (table.schema.getD k ⟨[], .integer, 0⟩) s.newValue true = .ok v →
      databaseOf catalog c' = _ := fun {k v} hk hv =>
    databaseOf_applied hd.toDatabaseHolds ht hselects happlied (fun row => some (row.set k v))
      fun old new => edits_of_newRow hk hv
  cases status with
  | ok =>
    obtain ⟨schema, k, v, hschema, hk, hv⟩ := hfound rfl
    cases (getTableSchema_eq hd.toDatabaseHolds ht).symm.trans hschema
    refine .of_rows hd happlied.holds (hdb hk hv) ?_
    have hcard : affected = ((relationOf table c).selected s.conditions).card := by
      rw [selected_eq hd.toDatabaseHolds ht hselects, Multiset.coe_card, List.length_map]
      exact hall rfl
    rw [List.take_of_length_le (hall rfl).ge, ← selected_eq hd.toDatabaseHolds ht hselects, replyOf,
      hcard]
    exact .update (databaseOf_some ht c) ⟨k, v, hk, hv, rfl⟩
  | error e =>
    cases htake : records.take affected with
    | nil =>
      -- no record has been changed
      have hrows := happlied.rows
      rw [htake] at hrows
      refine .of_rows hd happlied.holds (databaseOf_sameRows hd.toDatabaseHolds happlied.holds
        fun q rid => ?_) (.updateFails e)
      by_cases hq : q = table.firstPageId
      · rw [hq]
        exact hrows.unchanged rid List.not_mem_nil
      · exact hrows.others q hq rid
    | cons record rest =>
      obtain ⟨k, v, -, -, hk, hv, -⟩ :=
        happlied.rows.changed record (htake ▸ List.mem_cons_self)
      exact .of_rows hd happlied.holds (hdb hk hv) (.updateStops e (databaseOf_some ht c)
        ⟨k, v, hk, hv, rfl⟩ (changed_le hd.toDatabaseHolds ht hselects affected))

/-! ## DELETE -/

/-- Live records that are different can all be deleted. -/
theorem deleteLoop_runs (ht : catalog.tables.lookup name = some table) :
    ∀ (pending : List RecordID) (affected : Nat) (h : Pages) (c : Contents),
      DatabaseHolds h catalog d c → pending.Nodup →
      (∀ rid ∈ pending, (c.chain table.firstPageId).record rid ≠ none) →
      Runs (poolContext ext) (applyLoop (TableStorage.deleteRecord catalog name) pending affected)
        (fun r h' => r = (.ok (), affected + pending.length) ∧ ∃ c', DatabaseHolds h' catalog d c' ∧
          RowsChanged c.chain table.firstPageId id (fun _ new => new = none) pending c'.chain)
            h := by
  intro pending
  induction pending with
  | nil =>
    intro affected h c hd _ _
    exact runs_pure ⟨rfl, c, hd, .nil fun _ _ => rfl⟩
  | cons rid pending ih =>
    intro affected h c hd hnodup hlive
    obtain ⟨hnot, hnodup'⟩ := List.nodup_cons.mp hnodup
    refine ((TableStorage.deleteRecord_effect hd ht rid).mono fun r h' hr => ?_).bind
    rcases hr with ⟨old, c', rfl, -, hd', hrow⟩ | ⟨e, -, -, -, hnone⟩
    · have hlive' : ∀ x ∈ pending, (c'.chain table.firstPageId).record x ≠ none := by
        intro x hx
        rw [hrow.changed, if_neg (ne_of_mem_of_not_mem hx hnot)]
        exact hlive x (List.mem_cons_of_mem _ hx)
      refine (ih (affected + 1) h' c' hd' hnodup' hlive').mono fun r h'' hr => ?_
      obtain ⟨rfl, c'', hd'', hrows⟩ := hr
      refine ⟨?_, c'', hd'', .cons hrow rfl ?_ hrows⟩
      · rw [List.length_cons, Nat.add_assoc, Nat.add_comm 1]
      · rw [List.map_id]
        exact hnot
    · exact absurd hnone (hlive rid List.mem_cons_self)

/-- A DELETE whose plan opens removes all selected rows. -/
theorem executeDelete_complete {s : DeleteStatement} {plan : Plan} {outputSchema : Schema}
    (hd : DatabaseHolds h catalog d c) (ht : catalog.tables.lookup s.tableName = some table)
    (hplan : buildScanPlan catalog s.tableName s.conditions = .ok (plan, outputSchema))
    (hp : plan.Produces ext h records (.ok ()))
    (hselects : Selects (c.chain table.firstPageId) table.schema s.conditions records) :
    Runs (poolContext ext) (executeDelete catalog s) (fun r h' => r = (.ok (), records.length) ∧
      ∃ c', Mutation.Applied catalog d c table (.delete s) records h' records.length c') h := by
  have hlive : ∀ record ∈ records,
      (c.chain table.firstPageId).record record.rid = some record.data := fun record hin =>
    ((hselects.mem record).mp hin).1
  have hlt := length_lt_scanFuel (heapHolds_of_lookup hd ht) hselects.nodup hlive
  unfold executeDelete
  rw [hplan]
  refine (Runs.mono hp fun r h' hr => ?_).bind
  obtain ⟨r, state⟩ := r
  obtain ⟨rfl, rfl, hy⟩ := hr
  dsimp only
  refine ((collectLoop_runs scanFuel records state [] hy (fun _ _ => rfl) hlt).mono
    fun r h' hr => ?_).bind
  obtain ⟨rfl, rfl⟩ := hr
  rw [List.nil_append]
  dsimp only
  have hpending : ∀ rid ∈ records.map Record.rid,
      (c.chain table.firstPageId).record rid ≠ none := by
    intro rid hin
    obtain ⟨record, hrecord, rfl⟩ := List.mem_map.mp hin
    rw [hlive record hrecord]
    exact Option.some_ne_none _
  refine (deleteLoop_runs ht (records.map Record.rid) 0 _ c hd hselects.nodup hpending).mono
    fun r h' hr => ?_
  obtain ⟨rfl, c', hd', hrows⟩ := hr
  refine ⟨by rw [List.length_map, Nat.zero_add], c', hd', ?_⟩
  rw [List.take_length]
  exact hrows.of_map

theorem executeDelete_answers (hd : DatabaseState h catalog d c) (s : DeleteStatement) :
    Runs (poolContext ext) (executeDelete catalog s) (fun r h' =>
      Answered catalog c (.delete s) (replyOf r, catalog) h') h := by
  cases ht : catalog.tables.lookup s.tableName with
  | none =>
    rw [executeDelete, buildScanPlan, buildPlan, getTableSchema_none hd.toDatabaseHolds ht]
    refine runs_pure (.of_same hd (.deleteFails _ fun r hr => ?_))
    rw [databaseOf_none ht] at hr
    cases hr
  | some table =>
  have hfailed : ∀ e : Status, ¬ Scannable table.schema s.conditions →
      Answers (databaseOf catalog c) (.delete s) (.executionError e) (databaseOf catalog c) := by
    intro e hno
    refine .deleteFails e fun r hr => ?_
    cases (databaseOf_some ht c).symm.trans hr
    exact hno
  rcases buildScanPlan_cases ext hd ht s.conditions with ⟨⟨e, hplan⟩, hno⟩ |
      ⟨plan, schema, hplan, ⟨hfails, hno⟩ | ⟨records, hp, hselects⟩⟩
  · rw [show executeDelete catalog s = _ from exec_of_error (m := .delete s) hplan]
    exact runs_pure (.of_same hd (hfailed e hno))
  · have hruns : Runs (poolContext ext) (executeDelete catalog s) _ h :=
      exec_of_fails (m := .delete s) hplan hfails
    refine hruns.mono fun r h' hr => ?_
    obtain ⟨status, affected⟩ := r
    obtain ⟨rfl, -, e, rfl⟩ := hr
    exact .of_same hd (hfailed e hno)
  · refine (executeDelete_complete hd.toDatabaseHolds ht hplan hp hselects).mono fun r h' hr => ?_
    obtain ⟨rfl, c', happlied⟩ := hr
    have hselected := selected_eq hd.toDatabaseHolds ht hselects
    have hdb := databaseOf_applied hd.toDatabaseHolds ht hselects happlied (fun _ => none)
      fun old new hnew => by
        rw [show new = none from hnew]
        rfl
    rw [List.take_length, ← hselected] at hdb
    refine .of_rows hd happlied.holds hdb ?_
    have hcard : records.length = ((relationOf table c).selected s.conditions).card := by
      rw [hselected, Multiset.coe_card, List.length_map]
    rw [replyOf, hcard]
    exact .delete (databaseOf_some ht c)

/-! ## CREATE TABLE and CREATE INDEX -/

/-- A statement that has failed changes no relation. -/
theorem databaseOf_unchanged {r : Except Status Unit × CatalogManager}
    (hd : DatabaseState h catalog d c) (hr : Unchanged catalog d c r h') :
    ∃ e c', r = (.error e, catalog) ∧ DatabaseState h' catalog d c' ∧
      databaseOf catalog c' = databaseOf catalog c := by
  obtain ⟨status, catalog'⟩ := r
  obtain ⟨⟨e, rfl⟩, rfl, c', hd', hchain, -⟩ := hr
  exact ⟨e, c', rfl, hd.of_holds hd', databaseOf_congr hchain⟩

theorem executeCreateTable_answers (hd : DatabaseState h catalog d c) {s : CreateTableStatement}
    (hname : 46 ∉ s.tableName) : Runs (poolContext ext) (executeCreateTable catalog s) (fun r h' =>
      Answered catalog c (.createTable s) (replyOf (r.1, 0), r.2) h') h := by
  refine (executeCreateTable_runs hd.toDatabaseHolds s).mono fun r h' hr => ?_
  rcases hr with ⟨schema, p, serialized, rfl, hschema, hnew, hser, hp, hd'⟩ | hr
  · refine ⟨_, _, hd.withTable hschema hname hser hd', ?_⟩
    rw [databaseOf_withTable hd.toDatabaseHolds hp]
    exact .createTable (databaseOf_none (AList.lookup_eq_none.mpr hnew) c) hschema
  · obtain ⟨e, c', rfl, hd', hdb⟩ := databaseOf_unchanged hd hr
    refine ⟨d, c', hd', ?_⟩
    rw [hdb]
    exact .createTableFails e

theorem executeCreateIndex_answers (hd : DatabaseState h catalog d c) (hext : ∀ q, ext q = 0)
    {s : CreateIndexStatement} (hname : s.indexName ≠ []) :
    Runs (poolContext ext) (executeCreateIndex catalog s) (fun r h' =>
      Answered catalog c (.createIndex s) (replyOf (r.1, 0), r.2) h') h := by
  refine (executeCreateIndex_runs hd.toDatabaseHolds hext hd.columnsNamed hname).mono
    fun r h' hr => ?_
  rcases hr with ⟨x, b, serialized, rfl, -, hser, -, hd'⟩ | hr
  · obtain ⟨table, k, ht, hk⟩ := hd'.wellFormed.index_column (AList.lookup_insert _)
    refine ⟨_, _, ⟨hd', .inr ⟨serialized, hser, rfl⟩, hd.columnsNamed, hd.undotted⟩, ?_⟩
    exact .createIndex (databaseOf_some ht c) (Option.isSome_iff_exists.mpr ⟨k, hk⟩)
  · obtain ⟨e, c', rfl, hd', hdb⟩ := databaseOf_unchanged hd hr
    refine ⟨d, c', hd', ?_⟩
    rw [hdb]
    exact .createIndexFails e

/-! ## All statements -/

/-- The end of `answerStatement`. -/
theorem reply_runs {statement : SQLStatement} {catalog' : CatalogManager}
    {r : Except Status Unit × Nat} {x : Program (Reply × CatalogManager)}
    (hx : x = pure (replyOf r, catalog'))
    (hr : Answered catalog c statement (replyOf r, catalog') h') :
    Runs (poolContext ext) x (Answered catalog c statement) h' := by
  rw [hx]
  exact runs_pure hr

theorem answerStatement_runs (hd : DatabaseState h catalog d c) (hext : ∀ q, ext q = 0)
    {statement : SQLStatement} (hnamed : statement.Named)
    (hplain : ∀ select, statement = .select select → select.isExplain = false) :
    Runs (poolContext ext) (answerStatement catalog statement)
    (Answered catalog c statement) h := by
  unfold answerStatement execute
  rw [hd.wellFormed.status]
  refine Runs.bind ?_
  cases statement with
  | select s =>
    refine ((executeSelect_answers hd (hplain s rfl)).mono fun r h' hr => ?_).bind
    obtain ⟨status, result⟩ := r
    obtain ⟨rfl, ha⟩ := hr
    cases status with
    | ok => exact runs_pure (runs_pure (.of_same hd ha))
    | error e => exact runs_pure (runs_pure (.of_same hd ha))
  | insert s =>
    refine ((executeInsert_answers hd s).mono fun r h' hr => ?_).bind
    exact runs_pure (reply_runs (by rcases r with ⟨_ | _, _⟩ <;> rfl) hr)
  | update s =>
    refine ((executeUpdate_answers hd s).mono fun r h' hr => ?_).bind
    exact runs_pure (reply_runs (by rcases r with ⟨_ | _, _⟩ <;> rfl) hr)
  | delete s =>
    refine ((executeDelete_answers hd s).mono fun r h' hr => ?_).bind
    exact runs_pure (reply_runs (by rcases r with ⟨_ | _, _⟩ <;> rfl) hr)
  | createTable s =>
    refine ((executeCreateTable_answers hd hnamed).mono fun r h' hr => ?_).bind
    exact runs_pure (reply_runs (by rcases r with ⟨_ | _, _⟩ <;> rfl) hr)
  | createIndex s =>
    refine ((executeCreateIndex_answers hd hext hnamed).mono fun r h' hr => ?_).bind
    exact runs_pure (reply_runs (by rcases r with ⟨_ | _, _⟩ <;> rfl) hr)

end

end QueryExecutor

end MiniDbms
