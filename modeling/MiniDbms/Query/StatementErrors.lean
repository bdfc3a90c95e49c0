import MiniDbms.Buffer.FaultlessRuns
import MiniDbms.Query.ReachedStates
import MiniDbms.Storage.TableStorageErrors

/-!
# Errors of statements

A statement of which a call has failed reports an error, unless it reads through an index or creates
one: `HeapFile::GetRecord` answers `NOT_FOUND` for a page that cannot be loaded, which
`IndexScanOperator::Next` takes for a record that was deleted, and `FlushAllPages` reports nothing.
So statements that scan and that all report success have found what they would have found on a disk
without faults, and leave the same pool (`executeAll_faultless`).
-/

namespace MiniDbms

open Lib PagedProgram Program

/-! ## Operators -/

/-- An operator of which a call has failed opens with an error, or ends with one. -/
structure AbstractOperator.PassesErrors {σ : Type} (operator : AbstractOperator σ) : Prop where
  openOperator : ∀ s, (operator.openOperator s).Strict fun r => IsError r.1
  next : ∀ s, (operator.next s).Strict fun r => r.1 = none ∧ IsError (operator.close r.2)

namespace SeqScanOperator

theorem strict_next (firstPageId : PageId) (s : SeqScanState) :
    (next firstPageId s).Strict fun r => r.1 = none ∧ IsError r.2.status := by
  cases hs : s.finished with
  | true =>
    unfold next
    rw [if_pos hs]
    exact strict_pure _
  | false =>
    rw [next_eq hs]
    apply Strict.bind (E := HeapFile.ScanFailed)
    · apply strict_ite
      · exact HeapFile.strict_getNextRecord _
      · exact HeapFile.strict_getFirstRecord _
    · intro r hr
      obtain ⟨e, rfl, he⟩ := hr
      refine always_pure ?_
      unfold advance
      dsimp only
      rw [if_neg he]
      exact ⟨rfl, isError_error e⟩
    · exact fun r => strict_pure _

theorem passesErrors (firstPageId : PageId) : (operator firstPageId).PassesErrors where
  openOperator _ := strict_pure _
  next := strict_next firstPageId

end SeqScanOperator

section

variable {σ : Type} {child : AbstractOperator σ}

namespace FilterOperator

theorem strict_nextLoop (h : child.PassesErrors) (schema : Schema) (condition : Condition) :
    ∀ (fuel : Nat) (s : FilterState σ), s.status = .ok () →
      (nextLoop child schema condition fuel s).Strict fun r =>
        r.1 = none ∧ IsError (close child r.2) := by
  intro fuel
  induction fuel with
  | zero => exact fun _ _ => trivial
  | succ fuel ih =>
    intro s hs
    refine (h.next s.child).bind (fun r hr => ?_) fun r => ?_
    · obtain ⟨_ | record, c⟩ := r
      · refine always_pure ⟨rfl, ?_⟩
        unfold close
        dsimp only
        rw [hs]
        exact hr.2
      · exact absurd hr.1 (Option.some_ne_none record)
    · obtain ⟨_ | record, c⟩ := r
      · exact strict_pure _
      · dsimp only
        rcases evaluate schema condition s.columnIndex s.targetValue record with e | _ | _
        · exact strict_pure _
        · exact ih _ hs
        · exact strict_pure _

theorem strict_openOperator (h : ∀ s, (child.openOperator s).Strict fun r => IsError r.1)
    (schema : Schema) (condition : Condition) (s : FilterState σ) :
    (openOperator child schema condition s).Strict fun r => IsError r.1 := by
  unfold openOperator
  cases schema.columnIndex condition.column with
  | none => exact strict_pure _
  | some columnIndex =>
    dsimp only
    cases convertLiteral (schema.getD columnIndex ⟨[], .integer, 0⟩) condition.value false with
    | error e => exact strict_pure _
    | ok targetValue => exact (h s.child).bind (fun r hr => always_pure hr) fun r => strict_pure _

theorem passesErrors (h : child.PassesErrors) (schema : Schema) (condition : Condition) :
    (operator child schema condition).PassesErrors where
  openOperator := strict_openOperator h.openOperator schema condition
  next s := by
    show (next child schema condition s).Strict fun r => r.1 = none ∧ IsError (close child r.2)
    unfold next
    cases hs : s.status with
    | error e => exact strict_pure _
    | ok => exact strict_nextLoop h schema condition scanFuel s hs

end FilterOperator

namespace ProjectionOperator

theorem strict_openOperator (h : ∀ s, (child.openOperator s).Strict fun r => IsError r.1)
    (inputSchema : Schema) (selectedFields : List Nat) (s : ProjectionState σ) :
    (openOperator child inputSchema selectedFields s).Strict fun r => IsError r.1 := by
  refine strict_ite (strict_pure _) (strict_ite (strict_pure _) ?_)
  exact (h s.child).bind (fun r hr => always_pure hr) fun r => strict_pure _

theorem passesErrors (h : child.PassesErrors) (inputSchema : Schema) (selectedFields : List Nat) :
    (operator child inputSchema selectedFields).PassesErrors where
  openOperator := strict_openOperator h.openOperator inputSchema selectedFields
  next s := by
    show (next child inputSchema selectedFields s).Strict fun r =>
      r.1 = none ∧ IsError (close child r.2)
    unfold next
    cases s.status with
    | error e => exact strict_pure _
    | ok =>
      refine (h.next s.child).bind (fun r hr => ?_) fun r => ?_
      · obtain ⟨_ | record, c⟩ := r
        · refine always_pure ⟨rfl, ?_⟩
          unfold close
          exact hr.2
        · exact absurd hr.1 (Option.some_ne_none record)
      · obtain ⟨_ | input, c⟩ := r
        · exact strict_pure _
        · dsimp only
          cases RecordCodec.project inputSchema input.data selectedFields with
          | error e => exact strict_pure _
          | ok data => exact strict_pure _

end ProjectionOperator

end

namespace QueryExecutor

/-! ## Plans that scan -/

theorem passesErrors_filters (schema : Schema) : ∀ (conditions : List Condition) {plan : Plan},
    plan.operator.PassesErrors →
      (conditions.foldl (fun plan condition => plan.filter schema condition)
        plan).operator.PassesErrors := by
  intro conditions
  induction conditions with
  | nil => exact fun h => h
  | cons condition conditions ih =>
    intro plan h
    exact ih (FilterOperator.passesErrors h schema condition)

theorem passesErrors_buildPlan {catalog : CatalogManager} {select : SelectStatement} {plan : Plan}
    {outputSchema : Schema} (hseq : Sequential catalog select)
    (h : buildPlan catalog select = .ok (plan, outputSchema)) : plan.operator.PassesErrors := by
  unfold buildPlan at h
  split at h
  · cases h
  rename_i schema _
  split at h
  · cases h
  rename_i firstPageId _
  rw [findIndexedCondition_none hseq] at h
  have hscan : (Plan.seqScan firstPageId).operator.PassesErrors :=
    SeqScanOperator.passesErrors firstPageId
  have hfilters := passesErrors_filters schema select.conditions hscan
  dsimp only [buildScan] at h
  unfold buildProjection at h
  split at h
  · split at h
    · cases h
    · cases h
      exact ProjectionOperator.passesErrors hfilters _ _
  · cases h
    exact hfilters

section

variable {σ : Type} {operator : AbstractOperator σ}

/-- The status of a loop is an error. -/
def Failed {α : Type} (r : Except Status Unit × α) : Prop := IsError r.1

theorem isError_closePlan {close : Except Status Unit} (h : IsError close) :
    IsError (closePlan close (.ok ())) := h

theorem strict_selectLoop (h : operator.PassesErrors) (schema : Schema) :
    ∀ (fuel : Nat) (s : σ) (result : QueryResult),
      (selectLoop operator schema fuel s result).Strict Failed := by
  intro fuel
  induction fuel with
  | zero => exact fun _ _ => trivial
  | succ fuel ih =>
    intro s result
    refine (h.next s).bind (fun r hr => ?_) fun r => ?_
    · obtain ⟨_ | record, s'⟩ := r
      · exact always_pure (isError_closePlan hr.2)
      · exact absurd hr.1 (Option.some_ne_none record)
    · obtain ⟨_ | record, s'⟩ := r
      · exact strict_pure _
      · dsimp only
        cases RecordCodec.deserialize schema record.data with
        | error e => exact strict_pure _
        | ok row => exact ih _ _

theorem strict_collectLoop (h : operator.PassesErrors) {α : Type}
    (item : Record → Except Status α) : ∀ (fuel : Nat) (s : σ) (pending : List α),
      (collectLoop operator item fuel s pending).Strict IsError := by
  intro fuel
  induction fuel with
  | zero => exact fun _ _ => trivial
  | succ fuel ih =>
    intro s pending
    refine (h.next s).bind (fun r hr => ?_) fun r => ?_
    · obtain ⟨_ | record, s'⟩ := r
      · obtain ⟨e, he⟩ := isError_closePlan hr.2
        dsimp only
        rw [he]
        exact isError_error e
      · exact absurd hr.1 (Option.some_ne_none record)
    · obtain ⟨_ | record, s'⟩ := r
      · dsimp only
        cases closePlan (operator.close s') (.ok ()) with
        | error e => exact strict_pure _
        | ok => exact strict_pure _
      · dsimp only
        cases item record with
        | error e => exact strict_pure _
        | ok a => exact ih _ _

end

theorem strict_executeSelect {catalog : CatalogManager} {select : SelectStatement}
    (hseq : Sequential catalog select) : (executeSelect catalog select).Strict Failed := by
  unfold executeSelect
  rcases hplan : buildPlan catalog select with e | ⟨plan, outputSchema⟩
  · exact strict_pure _
  have h := passesErrors_buildPlan hseq hplan
  refine (h.openOperator plan.state).bind (fun r hr => ?_) fun r => ?_
  · obtain ⟨e | _, s⟩ := r
    · exact always_pure (isError_error e)
    · exact absurd hr (not_isError_ok _)
  · obtain ⟨e | _, s⟩ := r
    · exact strict_pure _
    · exact strict_selectLoop h _ _ _ _

theorem strict_executeInsert (catalog : CatalogManager) (insert : InsertStatement) :
    (executeInsert catalog insert).Strict Failed := by
  unfold executeInsert
  cases catalog.getTableSchema insert.tableName with
  | error e => exact strict_pure _
  | ok schema =>
    refine strict_ite (strict_pure _) ?_
    cases convertValues schema insert.values with
    | error e => exact strict_pure _
    | ok values =>
      exact (TableStorage.strict_insertRecord catalog insert.tableName values).bind_ok
        (fun e => isError_error e) fun _ => strict_pure _

theorem strict_applyLoop {α : Type} {change : α → Program (Except Status Unit)}
    (h : ∀ a, (change a).Strict IsError) : ∀ (pending : List α) (affected : Nat),
    (applyLoop change pending affected).Strict Failed := by
  intro pending
  induction pending with
  | nil => exact fun _ => strict_pure _
  | cons a pending ih =>
    intro affected
    exact (h a).bind_ok (fun e => isError_error e) fun _ => ih _

/-- The scan of an UPDATE or a DELETE uses no index. -/
def ScansFor (catalog : CatalogManager) (tableName : Bytes) (conditions : List Condition) : Prop :=
  Sequential catalog ⟨tableName, [], conditions, false⟩

theorem strict_executeUpdate {catalog : CatalogManager} {update : UpdateStatement}
    (hseq : ScansFor catalog update.tableName update.conditions) :
    (executeUpdate catalog update).Strict Failed := by
  unfold executeUpdate
  rcases hplan : buildScanPlan catalog update.tableName update.conditions with
    e | ⟨plan, outputSchema⟩
  · exact strict_pure _
  have h := passesErrors_buildPlan hseq hplan
  refine (h.openOperator plan.state).bind (fun r hr => ?_) fun r => ?_
  · obtain ⟨e | _, s⟩ := r
    · exact always_pure (isError_error e)
    · exact absurd hr (not_isError_ok _)
  obtain ⟨e | _, s⟩ := r
  · exact strict_pure _
  dsimp only
  split
  · exact strict_pure _
  refine (strict_collectLoop h _ _ _ _).bind_ok (fun e => isError_error e) fun pending => ?_
  apply strict_applyLoop
  intro u
  exact TableStorage.strict_updateRecord catalog update.tableName u.1 u.2

theorem strict_executeDelete {catalog : CatalogManager} {delete : DeleteStatement}
    (hseq : ScansFor catalog delete.tableName delete.conditions) :
    (executeDelete catalog delete).Strict Failed := by
  unfold executeDelete
  rcases hplan : buildScanPlan catalog delete.tableName delete.conditions with
    e | ⟨plan, outputSchema⟩
  · exact strict_pure _
  have h := passesErrors_buildPlan hseq hplan
  refine (h.openOperator plan.state).bind (fun r hr => ?_) fun r => ?_
  · obtain ⟨e | _, s⟩ := r
    · exact always_pure (isError_error e)
    · exact absurd hr (not_isError_ok _)
  obtain ⟨e | _, s⟩ := r
  · exact strict_pure _
  refine (strict_collectLoop h _ _ _ _).bind_ok (fun e => isError_error e) fun pending => ?_
  exact strict_applyLoop (TableStorage.strict_deleteRecord catalog delete.tableName) pending 0

/-! ## CREATE TABLE -/

theorem strict_newTablePage : newTablePage.Strict IsError := by
  unfold newTablePage
  refine strict_newPage (isError_error _) fun p f d => ?_
  dsimp only
  refine strict_putPage (strict_unpinPage (strict_pure _) ?_)
  dsimp only
  cases (SlottedPage.init (Page.view p d)).1 with
  | error e => exact strict_of_always always_deletePage_error
  | ok => exact strict_flushPage always_deletePage_error (strict_pure _)

theorem strict_persist (catalog : CatalogManager) : catalog.persist.Strict IsError := by
  unfold CatalogManager.persist
  cases CatalogManager.serialize catalog with
  | error e => exact strict_pure _
  | ok serialized =>
    refine strict_fetchPage (isError_error _) fun f d => ?_
    refine strict_putPage (strict_unpinPage (strict_pure _) ?_)
    exact strict_flushPage (isError_error _) (strict_pure _)

theorem strict_createTable (catalog : CatalogManager) (tableName : Bytes) (schema : Schema)
    (firstPageId : PageId) : (catalog.createTable tableName schema firstPageId).Strict Failed := by
  unfold CatalogManager.createTable
  cases catalog.initializationStatus with
  | error e => exact strict_pure _
  | ok =>
    refine strict_ite (strict_pure _) (strict_ite (strict_pure _) (strict_ite (strict_pure _)
      (strict_ite (strict_pure _) ?_)))
    exact (strict_persist _).bind_ok (fun e => isError_error e) fun _ => strict_pure _

theorem strict_executeCreateTable (catalog : CatalogManager) (create : CreateTableStatement) :
    (executeCreateTable catalog create).Strict Failed := by
  unfold executeCreateTable
  refine strict_ite (strict_pure _) (strict_ite (strict_pure _) ?_)
  cases makeColumns [] create.columns with
  | error e => exact strict_pure _
  | ok schema =>
    refine strict_newTablePage.bind_ok (fun e => isError_error e) fun firstPageId => ?_
    refine (strict_createTable catalog create.tableName schema firstPageId).bind (fun r hr => ?_)
      fun r => ?_
    · obtain ⟨e | _, changed⟩ := r
      · exact always_deletePage (isError_error _) (isError_error _)
      · exact absurd hr (not_isError_ok _)
    · obtain ⟨e | _, changed⟩ := r
      · exact strict_of_always (always_deletePage (isError_error _) (isError_error _))
      · exact strict_pure _

/-! ## Statements -/

/-- The statement uses no index and creates none. -/
def Scans (catalog : CatalogManager) : SQLStatement → Prop
  | .select select => Sequential catalog select
  | .insert _ => True
  | .update update => ScansFor catalog update.tableName update.conditions
  | .delete delete => ScansFor catalog delete.tableName delete.conditions
  | .createTable _ => True
  | .createIndex _ => False

theorem strict_execute {catalog : CatalogManager} {statement : SQLStatement}
    (hscan : Scans catalog statement) : (execute catalog statement).Strict Failed := by
  unfold execute
  cases catalog.initializationStatus with
  | error e => exact strict_pure _
  | ok =>
    cases statement with
    | select select =>
      exact (strict_executeSelect hscan).bind (fun r hr => always_pure hr) fun r => strict_pure _
    | insert insert =>
      exact (strict_executeInsert catalog insert).bind (fun r hr => always_pure hr)
        fun r => strict_pure _
    | update update =>
      exact (strict_executeUpdate hscan).bind (fun r hr => always_pure hr) fun r => strict_pure _
    | delete delete =>
      exact (strict_executeDelete hscan).bind (fun r hr => always_pure hr) fun r => strict_pure _
    | createTable create =>
      exact (strict_executeCreateTable catalog create).bind (fun r hr => always_pure hr)
        fun r => strict_pure _
    | createIndex create => exact absurd hscan id

/-- The two catalogs have the same indexes. -/
def SameIndexes (catalog catalog' : CatalogManager) : Prop :=
  catalog'.initializationStatus = catalog.initializationStatus ∧ catalog'.indexes = catalog.indexes

theorem SameIndexes.scans {catalog catalog' : CatalogManager} {statement : SQLStatement}
    (h : SameIndexes catalog catalog') (hscan : Scans catalog statement) :
    Scans catalog' statement := by
  have hhas : ∀ tableName columnName,
      catalog'.hasIndex tableName columnName = catalog.hasIndex tableName columnName := by
    intro tableName columnName
    unfold CatalogManager.hasIndex
    rw [h.1, h.2]
  cases statement with
  | select select =>
    intro condition hc hop
    rw [hhas]
    exact hscan condition hc hop
  | insert insert => exact trivial
  | update update =>
    intro condition hc hop
    rw [hhas]
    exact hscan condition hc hop
  | delete delete =>
    intro condition hc hop
    rw [hhas]
    exact hscan condition hc hop
  | createTable create => exact trivial
  | createIndex create => exact hscan

theorem executeCreateTable_indexes (catalog : CatalogManager) (create : CreateTableStatement) :
    (executeCreateTable catalog create).Always fun r => SameIndexes catalog r.2 := by
  have hsame : SameIndexes catalog catalog := ⟨rfl, rfl⟩
  have hcreate : ∀ schema firstPageId,
      (catalog.createTable create.tableName schema firstPageId).Always fun r =>
        SameIndexes catalog r.2 := by
    intro schema firstPageId
    unfold CatalogManager.createTable
    split
    · exact always_pure hsame
    iterate 4
      split
      · exact always_pure hsame
    refine always_bind (always_true _) fun r _ => ?_
    cases r with
    | error e => exact always_pure ⟨rfl, rfl⟩
    | ok => exact always_pure ⟨rfl, rfl⟩
  unfold executeCreateTable
  split
  · exact always_pure hsame
  split
  · exact always_pure hsame
  split
  · exact always_pure hsame
  refine always_bind (always_true _) fun r _ => ?_
  cases r with
  | error e => exact always_pure hsame
  | ok firstPageId =>
    refine always_bind (hcreate _ firstPageId) fun r hr => ?_
    obtain ⟨e | _, changed⟩ := r
    · exact always_deletePage hr hr
    · exact always_pure hr

theorem execute_indexes {catalog : CatalogManager} {statement : SQLStatement}
    (hscan : Scans catalog statement) :
    (execute catalog statement).Always fun r => SameIndexes catalog r.2.2 := by
  have hsame : SameIndexes catalog catalog := ⟨rfl, rfl⟩
  unfold execute
  split
  · exact always_pure hsame
  cases statement with
  | createTable create =>
    exact always_bind (executeCreateTable_indexes catalog create) fun r hr => always_pure hr
  | createIndex create => exact absurd hscan id
  | _ => exact always_bind (always_true _) fun r _ => always_pure hsame

/-- One of the statements has failed. -/
def AnyFailed (r : List (Except Status Unit × QueryResult) × CatalogManager) : Prop :=
  ∃ result ∈ r.1, Failed result

theorem strict_executeAll : ∀ {statements : List SQLStatement} {catalog : CatalogManager},
    (∀ statement ∈ statements, Scans catalog statement) →
    (executeAll statements catalog).Strict AnyFailed := by
  intro statements
  induction statements with
  | nil => exact fun _ => strict_pure _
  | cons statement statements ih =>
    intro catalog hscan
    have hhead := hscan statement List.mem_cons_self
    refine (strict_execute hhead).bind_of (execute_indexes hhead) (fun r hr => ?_) fun r hr => ?_
    · refine always_bind (always_true _) fun rest _ => ?_
      exact always_pure ⟨_, List.mem_cons_self, hr⟩
    · refine (ih fun x hx => hr.scans (hscan x (List.mem_cons_of_mem _ hx))).bind
        (fun rest hrest => ?_) fun rest => strict_pure _
      obtain ⟨result, hmem, hfailed⟩ := hrest
      exact always_pure ⟨result, List.mem_cons_of_mem _ hmem, hfailed⟩

variable {catalog catalog' : CatalogManager} {statements : List SQLStatement}
  {results : List (Except Status Unit × QueryResult)} {w w' : BufferPoolManager}

/-- Whatever the disk does to statements that scan: when every one of them reports success, the same
statements on a disk without faults report the same, have the same results and leave the same
pool. -/
theorem executeAll_faultless (hscan : ∀ statement ∈ statements, Scans catalog statement)
    (hrun : (executeAll statements catalog).run w = some ((results, catalog'), w'))
    (hok : ∀ r ∈ results, r.1 = .ok ()) :
    (executeAll statements catalog).run w.faultless = some ((results, catalog'), w'.faultless) := by
  refine run_faultless (strict_executeAll hscan) hrun ?_
  intro hfailed
  obtain ⟨r, hr, e, he⟩ := hfailed
  rw [hok r hr] at he
  cases he

/-- A disk on which reads fail from some access on. -/
def lateFaults : DiskFaults := { DiskFaults.none with read := fun n => decide (21 ≤ n) }

/-- A table with one row, which is read back. -/
def scannedStatements : List SQLStatement :=
  [.createTable ⟨str "t", [⟨str "a", str "INT", 0⟩]⟩, .insert ⟨str "t", [⟨.number, str "7"⟩]⟩,
    .select ⟨str "t", [], [⟨str "a", str "=", ⟨.number, str "7"⟩⟩], false⟩]

theorem sample_faultless : ∃ results catalog w,
    (executeAll scannedStatements {}).run (.new 1 (.newFile lateFaults)) =
    some ((results, catalog), w) ∧ results.map (fun r => r.2.rows) = [[], [], [[.integer 7]]] ∧
    (executeAll scannedStatements {}).run
      (BufferPoolManager.new 1 (.newFile lateFaults)).faultless =
      some ((results, catalog), w.faultless) := by
  have hresults : ((executeAll scannedStatements {}).run (.new 1 (.newFile lateFaults))).map
      (fun r => r.1.1.map fun r => (r.1, r.2.rows)) =
      some [(.ok (), []), (.ok (), []), (.ok (), [[.integer 7]])] := by decide +kernel
  obtain ⟨⟨⟨results, catalog⟩, w⟩, hrun, hr⟩ := Option.map_eq_some_iff.mp hresults
  have hstatus : ∀ r ∈ results, r.1 = .ok () := by
    intro r hmem
    have hr' := List.mem_map_of_mem (f := fun r => (r.1, r.2.rows)) hmem
    rw [hr] at hr'
    simp only [List.mem_cons, Prod.mk.injEq, List.not_mem_nil, or_false] at hr'
    obtain h | h | h := hr' <;> exact h.1
  refine ⟨results, catalog, w, hrun, ?_,
    executeAll_faultless (fun statement hmem => ?_) hrun hstatus⟩
  · have hrows := congrArg (List.map Prod.snd) hr
    rw [List.map_map] at hrows
    exact hrows
  · simp only [scannedStatements, List.mem_cons, List.not_mem_nil, or_false] at hmem
    obtain rfl | rfl | rfl := hmem
    · exact trivial
    · exact trivial
    · exact fun condition _ _ => rfl

-- With an index, the same SELECT loses the row when the page of the record cannot be read, and
-- reports success.
example : ((executeAll (sampleStatements ++ scannedStatements.drop 2) {}).run
      (.new 1 (.newFile lateFaults))).map (fun r => r.1.1.map fun r => (r.1, r.2.rows)) =
    some [(.ok (), []), (.ok (), []), (.ok (), []), (.ok (), []), (.ok (), [])] := by
  decide +kernel

end QueryExecutor

end MiniDbms
