import MiniDbms.Query.DdlRuns
import MiniDbms.Query.Mutations
import MiniDbms.Query.SelectRuns

/-!
# Statements on a consistent database

Every statement with proper names takes a database as SQL statements make it to another one, whether
it succeeds or fails (`execute_runs`). INSERT, UPDATE and DELETE change neither the catalog nor the
rows of other tables (`Spares`), and a SELECT changes nothing.
-/

namespace MiniDbms

open Lib PagedProgram Program HashIndex StringMap CatalogManager QueryExecutor

/-- The new names in a statement are such as the parser makes them. -/
def SQLStatement.Named : SQLStatement → Prop
  | .createTable s => 46 ∉ s.tableName
  | .createIndex s => s.indexName ≠ []
  | _ => True

/-- The tables with other names keep their rows. -/
def Spares (catalog : CatalogManager) (name : Bytes) (c c' : Contents) : Prop :=
  ∀ other table, other ≠ name → catalog.tables.lookup other = some table →
    ∀ rid, (c'.chain table.firstPageId).record rid = (c.chain table.firstPageId).record rid

section

variable {ext : PageId → Nat} {h h' : Pages} {catalog : CatalogManager} {d : PageData}
  {c c' : Contents} {name : Bytes}

/-- The same catalog on the same page 0, with other contents. -/
theorem DatabaseState.of_holds (hd : DatabaseState h catalog d c)
    (hd' : DatabaseHolds h' catalog d c') : DatabaseState h' catalog d c' :=
  ⟨hd', hd.shown, hd.columnsNamed, hd.undotted⟩

theorem spares_refl (catalog : CatalogManager) (name : Bytes) (c : Contents) :
    Spares catalog name c c := fun _ _ _ _ _ => rfl

theorem spares_of_sameRows (h : TableStorage.SameRows c c') : Spares catalog name c c' :=
  fun _ table _ _ rid => h table.firstPageId rid

/-- A change of the rows at the first page of a table spares the others. -/
theorem DatabaseHolds.spares (hd : DatabaseHolds h catalog d c) {table : TableMetadata}
    (ht : catalog.tables.lookup name = some table)
    (hothers : ∀ q, q ≠ table.firstPageId →
      ∀ rid, (c'.chain q).record rid = (c.chain q).record rid) :
    Spares catalog name c c' := by
  intro other table' hne ht' rid
  apply hothers
  intro heq
  exact hne (hd.firstPages ht' ht heq)

/-- What INSERT, UPDATE and DELETE do: the database is consistent again, and the other tables are as
they were. -/
def RowsDone (catalog : CatalogManager) (d : PageData) (c : Contents) (name : Bytes) (h' : Pages) :
    Prop :=
  ∃ c', DatabaseHolds h' catalog d c' ∧ Spares catalog name c c'

theorem rowsDone_refl (hd : DatabaseHolds h catalog d c) (name : Bytes) :
    RowsDone catalog d c name h :=
  ⟨c, hd, spares_refl catalog name c⟩

/-! ## INSERT, UPDATE and DELETE -/

theorem getTableSchema_none (hd : DatabaseHolds h catalog d c)
    (ht : catalog.tables.lookup name = none) :
    catalog.getTableSchema name = .error (.notFound "Table was not found in catalog") := by
  rw [getTableSchema, hd.wellFormed.status]
  dsimp only
  rw [ht]

theorem executeInsert_runs (hd : DatabaseHolds h catalog d c) (s : InsertStatement) :
    Runs (poolContext ext) (executeInsert catalog s) (fun _ h' =>
      RowsDone catalog d c s.tableName h') h := by
  unfold executeInsert
  cases ht : catalog.tables.lookup s.tableName with
  | none =>
    rw [getTableSchema_none hd ht]
    exact runs_pure (rowsDone_refl hd _)
  | some table =>
    rw [getTableSchema_eq hd ht]
    dsimp only
    split
    · exact runs_pure (rowsDone_refl hd _)
    split
    · exact runs_pure (rowsDone_refl hd _)
    · rename_i values hvalues
      refine ((TableStorage.insertRecord_effect hd ht values).mono fun r h' hr => ?_).bind
      rcases hr with ⟨rid, data, c', rfl, -, -, hd', hrow⟩ | ⟨e, c', rfl, -, hd', hsame⟩
      · exact runs_pure ⟨c', hd', hd.spares ht fun q hq rid => by rw [hrow.others q hq]⟩
      · exact runs_pure ⟨c', hd', spares_of_sameRows hsame⟩

/-- An UPDATE or a DELETE whose plan is not built. -/
theorem exec_of_error {m : Mutation} {e : Status}
    (hplan : buildScanPlan catalog m.tableName m.conditions = .error e) :
    m.exec catalog = pure (.error e, 0) := by
  cases m with
  | update s =>
    show executeUpdate catalog s = _
    rw [executeUpdate, show buildScanPlan catalog s.tableName s.conditions = .error e from hplan]
  | delete s =>
    show executeDelete catalog s = _
    rw [executeDelete, show buildScanPlan catalog s.tableName s.conditions = .error e from hplan]

/-- An UPDATE or a DELETE whose plan does not open. -/
theorem exec_of_fails {m : Mutation} {plan : Plan} {schema : Schema}
    (hplan : buildScanPlan catalog m.tableName m.conditions = .ok (plan, schema))
    (hfails : plan.Fails ext h) :
    Runs (poolContext ext) (m.exec catalog)
    (fun r h' => h' = h ∧ r.2 = 0 ∧ ∃ e, r.1 = .error e) h := by
  cases m with
  | update s =>
    show Runs _ (executeUpdate catalog s) _ _
    rw [executeUpdate, show buildScanPlan catalog s.tableName s.conditions = _ from hplan]
    refine (Runs.mono hfails fun r h' hr => ?_).bind
    obtain ⟨r, state⟩ := r
    obtain ⟨rfl, e, rfl⟩ := hr
    exact runs_pure ⟨rfl, rfl, e, rfl⟩
  | delete s =>
    show Runs _ (executeDelete catalog s) _ _
    rw [executeDelete, show buildScanPlan catalog s.tableName s.conditions = _ from hplan]
    refine (Runs.mono hfails fun r h' hr => ?_).bind
    obtain ⟨r, state⟩ := r
    obtain ⟨rfl, e, rfl⟩ := hr
    exact runs_pure ⟨rfl, rfl, e, rfl⟩

theorem executeMutation_runs (hd : DatabaseHolds h catalog d c) (hkeys : catalog.KeysSeparate)
    (m : Mutation) : Runs (poolContext ext) (m.exec catalog) (fun _ h' =>
      RowsDone catalog d c m.tableName h') h := by
  cases hplan : buildScanPlan catalog m.tableName m.conditions with
  | error e =>
    rw [exec_of_error hplan]
    exact runs_pure (rowsDone_refl hd _)
  | ok built =>
    obtain ⟨plan, schema⟩ := built
    cases ht : catalog.tables.lookup m.tableName with
    | none =>
      rw [buildScanPlan, buildPlan, getTableSchema_none hd ht] at hplan
      cases hplan
    | some table =>
      rcases buildScanPlan_ok hd (hkeys.forConditions ht _) ht hplan with
        hfails | ⟨records, hproduces, hselects⟩
      · refine (exec_of_fails hplan hfails).mono fun r h' hr => ?_
        obtain ⟨rfl, -, -⟩ := hr
        exact rowsDone_refl hd _
      · refine (Mutation.exec_runs hd ht hplan hproduces hselects).mono fun r h' hr => ?_
        obtain ⟨c', -, -, happlied⟩ := hr
        exact ⟨c', happlied.holds, hd.spares ht happlied.rows.others⟩

/-! ## All statements -/

/-- The table whose rows a statement changes. -/
def SQLStatement.target : SQLStatement → Bytes
  | .insert s => s.tableName
  | .update s => s.tableName
  | .delete s => s.tableName
  | _ => []

/-- INSERT, UPDATE and DELETE. -/
def SQLStatement.ChangesRows : SQLStatement → Prop
  | .insert _ => True
  | .update _ => True
  | .delete _ => True
  | _ => False

/-- What a statement leaves. -/
structure StatementDone (catalog : CatalogManager) (c : Contents) (statement : SQLStatement)
    (catalog' : CatalogManager) (h' : Pages) (d' : PageData) (c' : Contents) : Prop where
  state : DatabaseState h' catalog' d' c'
  spares : statement.ChangesRows → catalog' = catalog ∧ Spares catalog statement.target c c'

theorem StatementDone.of_rows {statement : SQLStatement} (hd : DatabaseState h catalog d c)
    (hr : RowsDone catalog d c statement.target h') :
    ∃ d' c', StatementDone catalog c statement catalog h' d' c' := by
  obtain ⟨c', hd', hspares⟩ := hr
  exact ⟨d, c', hd.of_holds hd', fun _ => ⟨rfl, hspares⟩⟩

/-- A statement that fails, and changes no rows when it succeeds. -/
theorem StatementDone.of_unchanged {statement : SQLStatement}
    {r : Except Status Unit × CatalogManager}
    (hd : DatabaseState h catalog d c) (hrows : ¬ statement.ChangesRows)
    (hr : Unchanged catalog d c r h') :
    ∃ d' c', StatementDone catalog c statement r.2 h' d' c' := by
  obtain ⟨-, hcatalog, c', hd', -⟩ := hr
  rw [hcatalog]
  exact ⟨d, c', hd.of_holds hd', fun hc => absurd hc hrows⟩

theorem executeSelect_same (hd : DatabaseState h catalog d c) (s : SelectStatement) :
    Runs (poolContext ext) (executeSelect catalog s) (fun _ h' => h' = h) h := by
  cases ht : catalog.tables.lookup s.tableName with
  | none =>
    rw [executeSelect, buildPlan, getTableSchema_none hd.toDatabaseHolds ht]
    exact runs_pure rfl
  | some table => exact (executeSelect_runs hd ht).mono fun r h' hr => hr.same

/-- A new table keeps the database as SQL statements make it. -/
theorem DatabaseState.withTable {schema : Schema} {p : PageId} {serialized : Bytes}
    {definitions : List ColumnDefinition} (hd : DatabaseState h catalog d c)
    (hschema : makeColumns [] definitions = .ok schema) (hname : 46 ∉ name)
    (hser : CatalogManager.serialize (catalog.withTable name schema p) = .ok serialized)
    (hd' : DatabaseHolds h' (catalog.withTable name schema p) (published serialized) c') :
    DatabaseState h' (catalog.withTable name schema p) (published serialized) c' := by
  have hlookup : ∀ {name' table}, (catalog.withTable name schema p).tables.lookup name' =
      some table → (name' = name ∧ table = ⟨name, schema, p⟩) ∨
        (name' ≠ name ∧ catalog.tables.lookup name' = some table) := lookup_insert_eq_some.mp
  refine ⟨hd', .inr ⟨serialized, hser, rfl⟩, fun name' table ht => ?_, fun {name' table} ht => ?_⟩
  · rcases hlookup ht with ⟨-, rfl⟩ | ⟨-, ht⟩
    · exact makeColumns_named _ _ _ hschema
    · exact hd.columnsNamed name' table ht
  · rcases hlookup ht with ⟨rfl, -⟩ | ⟨-, ht⟩
    · exact hname
    · exact hd.undotted ht

/-- Every statement takes a database as SQL statements make it to another one. -/
theorem execute_runs (hd : DatabaseState h catalog d c) (hext : ∀ q, ext q = 0)
    {statement : SQLStatement} (hnamed : statement.Named) :
    Runs (poolContext ext) (execute catalog statement) (fun r h' =>
      ∃ d' c', StatementDone catalog c statement r.2.2 h' d' c') h := by
  unfold execute
  rw [hd.wellFormed.status]
  dsimp only
  cases statement with
  | select s =>
    refine ((executeSelect_same hd s).mono fun r h' hr => ?_).bind
    obtain rfl := hr
    exact runs_pure ⟨d, c, hd, nofun⟩
  | insert s =>
    refine ((executeInsert_runs hd.toDatabaseHolds s).mono fun r h' hr => ?_).bind
    exact runs_pure (StatementDone.of_rows hd hr)
  | update s =>
    have hruns : Runs (poolContext ext) (executeUpdate catalog s) _ h :=
      executeMutation_runs hd.toDatabaseHolds hd.keysSeparate (.update s)
    refine (hruns.mono fun r h' hr => ?_).bind
    exact runs_pure (StatementDone.of_rows hd hr)
  | delete s =>
    have hruns : Runs (poolContext ext) (executeDelete catalog s) _ h :=
      executeMutation_runs hd.toDatabaseHolds hd.keysSeparate (.delete s)
    refine (hruns.mono fun r h' hr => ?_).bind
    exact runs_pure (StatementDone.of_rows hd hr)
  | createTable s =>
    refine ((executeCreateTable_runs hd.toDatabaseHolds s).mono fun r h' hr => ?_).bind
    rcases hr with ⟨schema, p, serialized, rfl, hschema, -, hser, -, hd'⟩ | hr
    · exact runs_pure ⟨_, _, hd.withTable hschema hnamed hser hd', nofun⟩
    · exact runs_pure (StatementDone.of_unchanged hd id hr)
  | createIndex s =>
    refine ((executeCreateIndex_runs hd.toDatabaseHolds hext hd.columnsNamed hnamed).mono
      fun r h' hr => ?_).bind
    rcases hr with ⟨x, b, serialized, rfl, -, hser, -, hd'⟩ | hr
    · exact runs_pure
        ⟨_, _, ⟨hd', .inr ⟨serialized, hser, rfl⟩, hd.columnsNamed, hd.undotted⟩, nofun⟩
    · exact runs_pure (StatementDone.of_unchanged hd id hr)

end

end MiniDbms
