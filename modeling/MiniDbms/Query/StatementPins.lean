import MiniDbms.Catalog.CatalogPins
import MiniDbms.Query.Executor
import MiniDbms.Storage.TableStoragePins

/-!
# The pins of statements

Every operator of a plan is disciplined when its child is, and every statement is disciplined.
-/

namespace MiniDbms

open Lib PagedProgram Program

/-! ## Operators -/

/-- The functions of an operator are disciplined in every state of the object. -/
structure AbstractOperator.IsDisciplined {σ : Type} (operator : AbstractOperator σ) : Prop where
  openOperator : ∀ s, Disciplined none (operator.openOperator s) (operator.openOperator s)
  next : ∀ s, Disciplined none (operator.next s) (operator.next s)

namespace SeqScanOperator

theorem disciplined_next (firstPageId : PageId) (s : SeqScanState) :
    Disciplined none (next firstPageId s) (next firstPageId s) := by
  cases hs : s.finished with
  | true =>
    unfold next
    rw [if_pos hs]
    exact disciplined_pure _
  | false =>
    rw [next_eq hs]
    apply Disciplined.bind
    · apply disciplined_ite
      · exact fun _ => HeapFile.disciplined_getNextRecord _
      · exact fun _ => HeapFile.disciplined_getFirstRecord _
    · exact fun result => disciplined_pure _

theorem isDisciplined (firstPageId : PageId) : (operator firstPageId).IsDisciplined where
  openOperator _ := disciplined_pure _
  next := disciplined_next firstPageId

end SeqScanOperator

namespace IndexScanOperator

theorem disciplined_nextLoop : ∀ rids : List RecordID,
    Disciplined none (nextLoop rids) (nextLoop rids) := by
  intro rids
  induction rids with
  | nil => exact disciplined_pure _
  | cons candidate rids ih =>
    refine (HeapFile.disciplined_getRecord candidate).bind fun r => ?_
    cases r with
    | ok record => exact disciplined_pure _
    | error e => exact disciplined_ite (fun _ => ih) fun _ => disciplined_pure _

theorem isDisciplined (index : PageId) (encodedKey : Bytes) :
    (operator index encodedKey).IsDisciplined where
  openOperator s := by
    refine (HashIndex.disciplined_getValue index encodedKey).bind fun r => ?_
    cases r with
    | ok rids => exact disciplined_pure _
    | error e => exact disciplined_pure _
  next s := by
    show Disciplined none (next s) (next s)
    unfold next
    cases s.status with
    | error e => exact disciplined_pure _
    | ok => exact disciplined_nextLoop s.rids

end IndexScanOperator

section

variable {σ : Type} {child : AbstractOperator σ}

namespace FilterOperator

theorem disciplined_nextLoop (h : child.IsDisciplined) (schema : Schema) (condition : Condition) :
    ∀ (fuel : Nat) (s : FilterState σ),
      Disciplined none (nextLoop child schema condition fuel s)
        (nextLoop child schema condition fuel s) := by
  intro fuel
  induction fuel with
  | zero => exact fun _ => .diverge none
  | succ fuel ih =>
    intro s
    refine (h.next s.child).bind fun r => ?_
    rcases r with ⟨_ | record, c⟩
    · exact disciplined_pure _
    · dsimp only
      rcases evaluate schema condition s.columnIndex s.targetValue record with e | _ | _
      · exact disciplined_pure _
      · exact ih _
      · exact disciplined_pure _

theorem isDisciplined (h : child.IsDisciplined) (schema : Schema) (condition : Condition) :
    (operator child schema condition).IsDisciplined where
  openOperator s := by
    show Disciplined none (openOperator child schema condition s)
        (openOperator child schema condition s)
    unfold openOperator
    cases schema.columnIndex condition.column with
    | none => exact disciplined_pure _
    | some columnIndex =>
      dsimp only
      cases convertLiteral (schema.getD columnIndex ⟨[], .integer, 0⟩) condition.value false with
      | error e => exact disciplined_pure _
      | ok targetValue => exact (h.openOperator s.child).bind fun r => disciplined_pure _
  next s := by
    show Disciplined none (next child schema condition s) (next child schema condition s)
    unfold next
    cases s.status with
    | error e => exact disciplined_pure _
    | ok => exact disciplined_nextLoop h schema condition scanFuel s

end FilterOperator

namespace ProjectionOperator

theorem isDisciplined (h : child.IsDisciplined) (inputSchema : Schema) (selectedFields : List Nat) :
    (operator child inputSchema selectedFields).IsDisciplined where
  openOperator s := by
    show Disciplined none (openOperator child inputSchema selectedFields s)
      (openOperator child inputSchema selectedFields s)
    unfold openOperator
    refine disciplined_ite (fun _ => disciplined_pure _) fun _ => ?_
    refine disciplined_ite (fun _ => disciplined_pure _) fun _ => ?_
    exact (h.openOperator s.child).bind fun r => disciplined_pure _
  next s := by
    show Disciplined none (next child inputSchema selectedFields s)
      (next child inputSchema selectedFields s)
    unfold next
    cases s.status with
    | error e => exact disciplined_pure _
    | ok =>
      refine (h.next s.child).bind fun r => ?_
      rcases r with ⟨_ | input, c⟩
      · exact disciplined_pure _
      · dsimp only
        cases RecordCodec.project inputSchema input.data selectedFields with
        | error e => exact disciplined_pure _
        | ok data => exact disciplined_pure _

end ProjectionOperator

end

namespace QueryExecutor

/-! ## Plans -/

theorem isDisciplined_buildScan {catalog : CatalogManager} {tableName : Bytes}
    {firstPageId : PageId} {indexed : Option (Condition × Bytes)} {plan : Plan}
    (h : buildScan catalog tableName firstPageId indexed = .ok plan) :
    plan.operator.IsDisciplined := by
  unfold buildScan at h
  split at h
  · cases h
    exact SeqScanOperator.isDisciplined firstPageId
  · split at h
    · cases h
    · cases h
      exact IndexScanOperator.isDisciplined _ _

theorem isDisciplined_filters (schema : Schema) : ∀ (conditions : List Condition) {plan : Plan},
    plan.operator.IsDisciplined →
      (conditions.foldl (fun plan condition => plan.filter schema condition)
        plan).operator.IsDisciplined := by
  intro conditions
  induction conditions with
  | nil => exact fun h => h
  | cons condition conditions ih =>
    intro plan h
    exact ih (FilterOperator.isDisciplined h schema condition)

theorem isDisciplined_buildProjection {schema outputSchema : Schema} {fields : List Bytes}
    {plan plan' : Plan} (hplan : plan.operator.IsDisciplined)
    (h : buildProjection schema fields plan = .ok (plan', outputSchema)) :
    plan'.operator.IsDisciplined := by
  unfold buildProjection at h
  split at h
  · split at h
    · cases h
    · cases h
      exact ProjectionOperator.isDisciplined hplan _ _
  · cases h
    exact hplan

theorem isDisciplined_buildPlan {catalog : CatalogManager} {select : SelectStatement} {plan : Plan}
    {outputSchema : Schema} (h : buildPlan catalog select = .ok (plan, outputSchema)) :
    plan.operator.IsDisciplined := by
  unfold buildPlan at h
  split at h
  · cases h
  split at h
  · cases h
  split at h
  · cases h
  split at h
  · cases h
  rename_i hscan
  exact isDisciplined_buildProjection (isDisciplined_filters _ _ (isDisciplined_buildScan hscan)) h

/-! ## SELECT, INSERT, UPDATE and DELETE -/

section

variable {σ : Type} {operator : AbstractOperator σ}

theorem disciplined_selectLoop (h : operator.IsDisciplined) (schema : Schema) :
    ∀ (fuel : Nat) (s : σ) (result : QueryResult),
      Disciplined none (selectLoop operator schema fuel s result)
        (selectLoop operator schema fuel s result) := by
  intro fuel
  induction fuel with
  | zero => exact fun _ _ => .diverge none
  | succ fuel ih =>
    intro s result
    refine (h.next s).bind fun r => ?_
    rcases r with ⟨_ | record, s'⟩
    · exact disciplined_pure _
    · dsimp only
      cases RecordCodec.deserialize schema record.data with
      | error e => exact disciplined_pure _
      | ok row => exact ih _ _

theorem disciplined_collectLoop (h : operator.IsDisciplined) {α : Type}
    (item : Record → Except Status α) : ∀ (fuel : Nat) (s : σ) (pending : List α),
      Disciplined none (collectLoop operator item fuel s pending)
        (collectLoop operator item fuel s pending) := by
  intro fuel
  induction fuel with
  | zero => exact fun _ _ => .diverge none
  | succ fuel ih =>
    intro s pending
    refine (h.next s).bind fun r => ?_
    rcases r with ⟨_ | record, s'⟩
    · dsimp only
      cases closePlan (operator.close s') (.ok ()) with
      | error e => exact disciplined_pure _
      | ok => exact disciplined_pure _
    · dsimp only
      cases item record with
      | error e => exact disciplined_pure _
      | ok a => exact ih _ _

end

theorem disciplined_executeSelect (catalog : CatalogManager) (select : SelectStatement) :
    Disciplined none (executeSelect catalog select) (executeSelect catalog select) := by
  unfold executeSelect
  rcases hplan : buildPlan catalog select with e | ⟨plan, outputSchema⟩
  · exact disciplined_pure _
  have h := isDisciplined_buildPlan hplan
  refine (h.openOperator plan.state).bind fun r => ?_
  rcases r with ⟨e | _, s⟩
  · exact disciplined_pure _
  · exact disciplined_selectLoop h _ _ _ _

theorem disciplined_executeInsert (catalog : CatalogManager) (insert : InsertStatement) :
    Disciplined none (executeInsert catalog insert) (executeInsert catalog insert) := by
  unfold executeInsert
  cases catalog.getTableSchema insert.tableName with
  | error e => exact disciplined_pure _
  | ok schema =>
    refine disciplined_ite (fun _ => disciplined_pure _) fun _ => ?_
    cases convertValues schema insert.values with
    | error e => exact disciplined_pure _
    | ok values =>
      refine (TableStorage.disciplined_insertRecord catalog insert.tableName values).bind
        fun r => ?_
      cases r with
      | error e => exact disciplined_pure _
      | ok rid => exact disciplined_pure _

theorem disciplined_applyLoop {α : Type} {change : α → Program (Except Status Unit)}
    (h : ∀ a, Disciplined none (change a) (change a)) : ∀ (pending : List α) (affected : Nat),
    Disciplined none (applyLoop change pending affected) (applyLoop change pending affected) := by
  intro pending
  induction pending with
  | nil => exact fun _ => disciplined_pure _
  | cons a pending ih =>
    intro affected
    refine (h a).bind fun r => ?_
    cases r with
    | error e => exact disciplined_pure _
    | ok => exact ih _

theorem disciplined_executeUpdate (catalog : CatalogManager) (update : UpdateStatement) :
    Disciplined none (executeUpdate catalog update) (executeUpdate catalog update) := by
  unfold executeUpdate
  rcases hplan : buildScanPlan catalog update.tableName update.conditions with
    e | ⟨plan, outputSchema⟩
  · exact disciplined_pure _
  have h := isDisciplined_buildPlan hplan
  refine (h.openOperator plan.state).bind fun r => ?_
  rcases r with ⟨e | _, s⟩
  · exact disciplined_pure _
  dsimp only
  split
  · exact disciplined_pure _
  refine (disciplined_collectLoop h _ _ _ _).bind fun r => ?_
  cases r with
  | error e => exact disciplined_pure _
  | ok pending =>
    apply disciplined_applyLoop
    intro u
    exact TableStorage.disciplined_updateRecord catalog update.tableName u.1 u.2

theorem disciplined_executeDelete (catalog : CatalogManager) (delete : DeleteStatement) :
    Disciplined none (executeDelete catalog delete) (executeDelete catalog delete) := by
  unfold executeDelete
  rcases hplan : buildScanPlan catalog delete.tableName delete.conditions with
    e | ⟨plan, outputSchema⟩
  · exact disciplined_pure _
  have h := isDisciplined_buildPlan hplan
  refine (h.openOperator plan.state).bind fun r => ?_
  rcases r with ⟨e | _, s⟩
  · exact disciplined_pure _
  refine (disciplined_collectLoop h _ _ _ _).bind fun r => ?_
  cases r with
  | error e => exact disciplined_pure _
  | ok pending =>
    exact disciplined_applyLoop (TableStorage.disciplined_deleteRecord catalog delete.tableName)
      pending 0

/-! ## CREATE TABLE and CREATE INDEX -/

theorem disciplined_newTablePage : Disciplined none newTablePage newTablePage := by
  unfold newTablePage
  refine disciplined_newPage (disciplined_pure _) fun p f f' d => ?_
  dsimp only
  refine disciplined_writePage (SlottedPage.marks_init _) ?_
  refine disciplined_unpinPage (.inr rfl) ?_
  dsimp only
  cases (SlottedPage.init (Page.view p d)).1 with
  | error e => exact disciplined_deletePage fun _ => disciplined_pure _
  | ok =>
    refine disciplined_flushPage fun b => ?_
    cases b with
    | false => exact disciplined_deletePage fun _ => disciplined_pure _
    | true => exact disciplined_pure _

theorem disciplined_executeCreateTable (catalog : CatalogManager) (create : CreateTableStatement) :
    Disciplined none (executeCreateTable catalog create) (executeCreateTable catalog create) := by
  unfold executeCreateTable
  refine disciplined_ite (fun _ => disciplined_pure _) fun _ => ?_
  refine disciplined_ite (fun _ => disciplined_pure _) fun _ => ?_
  cases makeColumns [] create.columns with
  | error e => exact disciplined_pure _
  | ok schema =>
    refine disciplined_newTablePage.bind fun r => ?_
    cases r with
    | error e => exact disciplined_pure _
    | ok firstPageId =>
      refine (catalog.disciplined_createTable create.tableName schema firstPageId).bind fun r => ?_
      rcases r with ⟨e | _, catalog'⟩
      · refine disciplined_deletePage fun b => ?_
        cases b with
        | false => exact disciplined_pure _
        | true => exact disciplined_pure _
      · exact disciplined_pure _

theorem disciplined_destroyIndexAfterFailure (index : PageId) (primary : Status) :
    Disciplined none (destroyIndexAfterFailure index primary)
      (destroyIndexAfterFailure index primary) := by
  refine (HashIndex.disciplined_destroy index).bind fun r => ?_
  cases r with
  | error e => exact disciplined_pure _
  | ok => exact disciplined_pure _

theorem disciplined_loadIndexLoop (schema : Schema) (columnIndex : Nat)
    (index firstPageId : PageId) :
    ∀ (fuel : Nat) (s : SeqScanState),
      Disciplined none (loadIndexLoop schema columnIndex index firstPageId fuel s)
        (loadIndexLoop schema columnIndex index firstPageId fuel s) := by
  intro fuel
  induction fuel with
  | zero => exact fun _ => .diverge none
  | succ fuel ih =>
    intro s
    refine (SeqScanOperator.disciplined_next firstPageId s).bind fun r => ?_
    rcases r with ⟨_ | record, s'⟩
    · exact disciplined_pure _
    dsimp only
    cases RecordCodec.getValue schema record.data columnIndex with
    | error e => exact disciplined_pure _
    | ok value =>
      refine disciplined_ite (fun _ => ih _) fun _ => ?_
      cases IndexKey.encode value with
      | error e => exact disciplined_pure _
      | ok encodedKey =>
        refine (HashIndex.disciplined_insert index encodedKey record.rid).bind fun r => ?_
        cases r with
        | error e => exact disciplined_pure _
        | ok => exact ih _

theorem disciplined_executeCreateIndex (catalog : CatalogManager) (create : CreateIndexStatement) :
    Disciplined none (executeCreateIndex catalog create) (executeCreateIndex catalog create) := by
  unfold executeCreateIndex
  refine disciplined_ite (fun _ => disciplined_pure _) fun _ => ?_
  refine disciplined_ite (fun _ => disciplined_pure _) fun _ => ?_
  dsimp only
  split
  · exact disciplined_pure _
  refine (HashIndex.disciplined_create _).bind fun r => ?_
  cases r with
  | error e => exact disciplined_pure _
  | ok index =>
    refine (disciplined_loadIndexLoop _ _ index _ _ _).bind fun r => ?_
    cases r with
    | error e =>
      exact (disciplined_destroyIndexAfterFailure index e).bind fun _ => disciplined_pure _
    | ok => exact disciplined_flushAllPages (catalog.disciplined_createIndex _ _ _ index)

theorem disciplined_execute (catalog : CatalogManager) (statement : SQLStatement) :
    Disciplined none (execute catalog statement) (execute catalog statement) := by
  unfold execute
  cases catalog.initializationStatus with
  | error e => exact disciplined_pure _
  | ok =>
    cases statement with
    | select select =>
      exact (disciplined_executeSelect catalog select).bind fun _ => disciplined_pure _
    | insert insert =>
      exact (disciplined_executeInsert catalog insert).bind fun _ => disciplined_pure _
    | update update =>
      exact (disciplined_executeUpdate catalog update).bind fun _ => disciplined_pure _
    | delete delete =>
      exact (disciplined_executeDelete catalog delete).bind fun _ => disciplined_pure _
    | createTable create =>
      exact (disciplined_executeCreateTable catalog create).bind fun _ => disciplined_pure _
    | createIndex create =>
      exact (disciplined_executeCreateIndex catalog create).bind fun _ => disciplined_pure _

end QueryExecutor

end MiniDbms
