import MiniDbms.Query.Operators
import MiniDbms.Storage.TableStorage

/-!
# The executor

`QueryExecutor` of `query/executor.cpp`. `Execute` returns a status and fills a `QueryResult` and
the counters `rows_returned` and `rows_affected` of `QueryStats`; it may change the catalog.
-/

namespace MiniDbms

open Lib PagedProgram Program CatalogManager

/-- `QueryResult`, `rows_returned` and `rows_affected`. -/
structure QueryResult where
  columnNames : List Bytes := []
  rows : List (List FieldValue) := []
  rowsReturned : Nat := 0
  rowsAffected : Nat := 0
  deriving DecidableEq, Repr

namespace QueryExecutor

/-- `FindColumn`. -/
def findColumn (schema : Schema) (columnName : Bytes) : Except Status Nat :=
  match schema.columnIndex columnName with
  | some columnIndex => .ok columnIndex
  | none => .error ⟨.notFound, str "Column does not exist: " ++ columnName⟩

/-- `ClosePlan`. -/
def closePlan (close status : Except Status Unit) : Except Status Unit :=
  match status with
  | .ok () => close
  | .error e => .error e

/-- `DestroyIndexAfterFailure`. -/
def destroyIndexAfterFailure (index : PageId) (primary : Status) : Program Status := do
  match ← HashIndex.destroy index with
  | .ok () => return primary
  | .error cleanup =>
    return ⟨.ioError, str "Index creation failed: " ++ primary.msg ++ str "; cleanup failed: " ++
      cleanup.msg⟩

/-! ## Plans -/

/-- The first loop of `BuildPlan`: the first condition that an index can answer, with its key. -/
def findIndexedCondition (catalog : CatalogManager) (tableName : Bytes) (schema : Schema) :
    List Condition → Except Status (Option (Condition × Bytes))
  | [] => .ok none
  | condition :: conditions =>
    if condition.op ≠ str "=" ∨ catalog.hasIndex tableName condition.column = false then
      findIndexedCondition catalog tableName schema conditions
    else
      match findColumn schema condition.column with
      | .error e => .error e
      | .ok columnIndex =>
        match convertLiteral (schema.getD columnIndex ⟨[], .integer, 0⟩) condition.value false with
        | .error e => .error e
        | .ok typedValue =>
          match IndexKey.encode typedValue with
          | .error e => .error e
          | .ok encodedKey => .ok (some (condition, encodedKey))

/-- The scan at the bottom of a plan. -/
def buildScan (catalog : CatalogManager) (tableName : Bytes) (firstPageId : PageId) :
    Option (Condition × Bytes) → Except Status Plan
  | none => .ok (.seqScan firstPageId)
  | some (condition, encodedKey) =>
    match catalog.getIndex tableName condition.column with
    | none => .error (.ioError "Catalog index metadata has no open index")
    | some index => .ok (.indexScan index encodedKey)

/-- The last loop of `BuildPlan`: the numbers of the selected columns and these columns. -/
def selectColumns (schema : Schema) : List Bytes → Except Status (List (Nat × Column))
  | [] => .ok []
  | fieldName :: fields =>
    match findColumn schema fieldName with
    | .error e => .error e
    | .ok columnIndex =>
      match selectColumns schema fields with
      | .error e => .error e
      | .ok rest => .ok ((columnIndex, schema.getD columnIndex ⟨[], .integer, 0⟩) :: rest)

/-- The projection at the top of a plan, and the schema of its records. -/
def buildProjection (schema : Schema) (fields : List Bytes) (plan : Plan) :
    Except Status (Plan × Schema) :=
  if fields ≠ [] ∧ fields.head? ≠ some (str "*") then
    match selectColumns schema fields with
    | .error e => .error e
    | .ok columns => .ok (plan.projection schema (columns.map Prod.fst), columns.map Prod.snd)
  else .ok (plan, schema)

/-- `QueryExecutor::BuildPlan`: the plan and the schema of its records. -/
def buildPlan (catalog : CatalogManager) (select : SelectStatement) :
    Except Status (Plan × Schema) :=
  match catalog.getTableSchema select.tableName with
  | .error e => .error e
  | .ok schema =>
    match catalog.getTableFirstPageId select.tableName with
    | .error e => .error e
    | .ok firstPageId =>
      match findIndexedCondition catalog select.tableName schema select.conditions with
      | .error e => .error e
      | .ok indexed =>
        match buildScan catalog select.tableName firstPageId indexed with
        | .error e => .error e
        | .ok scan =>
          buildProjection schema select.fields
            (select.conditions.foldl (fun plan condition => plan.filter schema condition) scan)

/-- The plan of an UPDATE or a DELETE. -/
def buildScanPlan (catalog : CatalogManager) (tableName : Bytes) (conditions : List Condition) :
    Except Status (Plan × Schema) :=
  buildPlan catalog ⟨tableName, [], conditions, false⟩

/-! ## SELECT -/

section

variable {σ : Type} (operator : AbstractOperator σ)

/-- The loop of `Execute` over the records of an open plan. -/
def selectLoop (schema : Schema) : Nat → σ → QueryResult →
    Program (Except Status Unit × QueryResult)
  | 0, _, _ => .diverge
  | fuel + 1, s, result => do
    match ← operator.next s with
    | (none, s) => return (closePlan (operator.close s) (.ok ()), result)
    | (some record, s) =>
      let result := { result with rowsReturned := result.rowsReturned + 1 }
      match RecordCodec.deserialize schema record.data with
      | .error e => return (closePlan (operator.close s) (.error e), result)
      | .ok row => selectLoop schema fuel s { result with rows := result.rows ++ [row] }

/-- The loops of `ExecuteUpdate` and `ExecuteDelete` that collect the records of an open plan.
`item` is what is kept of a record. -/
def collectLoop {α : Type} (item : Record → Except Status α) : Nat → σ → List α →
    Program (Except Status (List α))
  | 0, _, _ => .diverge
  | fuel + 1, s, pending => do
    match ← operator.next s with
    | (none, s) =>
      match closePlan (operator.close s) (.ok ()) with
      | .error e => return .error e
      | .ok () => return .ok pending
    | (some record, s) =>
      match item record with
      | .error e => return .error e
      | .ok a => collectLoop item fuel s (pending ++ [a])

end

/-- The branch of `Execute` for SELECT. -/
def executeSelect (catalog : CatalogManager) (select : SelectStatement) :
    Program (Except Status Unit × QueryResult) :=
  match buildPlan catalog select with
  | .error e => return (.error e, {})
  | .ok (plan, outputSchema) => do
    match ← plan.operator.openOperator plan.state with
    | (.error e, _) => return (.error e, {})
    | (.ok (), s) =>
      selectLoop plan.operator outputSchema scanFuel s
        { columnNames := outputSchema.map Column.name }

/-- The loop of `Execute` when no result is asked for: the records are counted, not decoded. -/
def countLoop {σ : Type} (operator : AbstractOperator σ) :
    Nat → σ → Nat → Program (Except Status Unit × Nat)
  | 0, _, _ => .diverge
  | fuel + 1, s, rowsReturned => do
    match ← operator.next s with
    | (none, s) => return (closePlan (operator.close s) (.ok ()), rowsReturned)
    | (some _, s) => countLoop operator fuel s (rowsReturned + 1)

/-- The branch of `Execute` for SELECT when no result is asked for, with `rows_returned`. -/
def executeCount (catalog : CatalogManager) (select : SelectStatement) :
    Program (Except Status Unit × Nat) :=
  match buildPlan catalog select with
  | .error e => return (.error e, 0)
  | .ok (plan, _) => do
    match ← plan.operator.openOperator plan.state with
    | (.error e, _) => return (.error e, 0)
    | (.ok (), s) => countLoop plan.operator scanFuel s 0

/-- `ScanType`. -/
inductive ScanType where
  | none
  | sequential
  | hashIndex
  deriving DecidableEq, Repr

/-- The `scan_type` that `BuildPlan` leaves in the statistics. -/
def scanType (catalog : CatalogManager) (select : SelectStatement) : ScanType :=
  match catalog.getTableSchema select.tableName with
  | .error _ => .none
  | .ok schema =>
    match catalog.getTableFirstPageId select.tableName with
    | .error _ => .none
    | .ok firstPageId =>
      match findIndexedCondition catalog select.tableName schema select.conditions with
      | .error _ => .none
      | .ok indexed =>
        match buildScan catalog select.tableName firstPageId indexed with
        | .error _ => .none
        | .ok _ => if indexed.isSome then .hashIndex else .sequential

/-! ## INSERT, UPDATE and DELETE -/

/-- The loop of `Execute` that converts the values of an INSERT. -/
def convertValues : List Column → List SQLLiteral → Except Status (List FieldValue)
  | column :: columns, literal :: literals =>
    match convertLiteral column literal true with
    | .error e => .error e
    | .ok value =>
      match convertValues columns literals with
      | .error e => .error e
      | .ok values => .ok (value :: values)
  | _, _ => .ok []

/-- The branch of `Execute` for INSERT. -/
def executeInsert (catalog : CatalogManager) (insert : InsertStatement) :
    Program (Except Status Unit × Nat) :=
  match catalog.getTableSchema insert.tableName with
  | .error e => return (.error e, 0)
  | .ok schema =>
    if insert.values.length ≠ schema.length then
      return (.error (.invalidArgument "The number of values does not match the table schema"), 0)
    else
      match convertValues schema insert.values with
      | .error e => return (.error e, 0)
      | .ok values => do
        match ← TableStorage.insertRecord catalog insert.tableName values with
        | .error e => return (.error e, 0)
        | .ok _ => return (.ok (), 1)

/-- The last loops of `ExecuteUpdate` and `ExecuteDelete`: one change for each collected record,
until one fails. The number is that of the changes made. -/
def applyLoop {α : Type} (change : α → Program (Except Status Unit)) :
    List α → Nat → Program (Except Status Unit × Nat)
  | [], affected => return (.ok (), affected)
  | a :: pending, affected => do
    match ← change a with
    | .error e => return (.error e, affected)
    | .ok () => applyLoop change pending (affected + 1)

/-- The record that an UPDATE makes of a record: its id and its new values. -/
def pendingUpdate (schema : Schema) (columnIndex : Nat) (newValue : FieldValue) (record : Record) :
    Except Status (RecordID × List FieldValue) :=
  match RecordCodec.deserialize schema record.data with
  | .error e => .error e
  | .ok values => .ok (record.rid, values.set columnIndex newValue)

/-- `QueryExecutor::ExecuteUpdate`. -/
def executeUpdate (catalog : CatalogManager) (update : UpdateStatement) :
    Program (Except Status Unit × Nat) :=
  match buildScanPlan catalog update.tableName update.conditions with
  | .error e => return (.error e, 0)
  | .ok (plan, _) => do
    match ← plan.operator.openOperator plan.state with
    | (.error e, _) => return (.error e, 0)
    | (.ok (), s) =>
      let target := do
        let schema ← catalog.getTableSchema update.tableName
        let columnIndex ← findColumn schema update.columnName
        let newValue ← convertLiteral (schema.getD columnIndex ⟨[], .integer, 0⟩)
          update.newValue true
        return (schema, columnIndex, newValue)
      match target with
      | .error e => return (closePlan (plan.operator.close s) (.error e), 0)
      | .ok (schema, columnIndex, newValue) =>
        match ← collectLoop plan.operator (pendingUpdate schema columnIndex newValue)
          scanFuel s [] with
        | .error e => return (.error e, 0)
        | .ok pending =>
          applyLoop (fun u => TableStorage.updateRecord catalog update.tableName u.1 u.2) pending 0

/-- `QueryExecutor::ExecuteDelete`. -/
def executeDelete (catalog : CatalogManager) (delete : DeleteStatement) :
    Program (Except Status Unit × Nat) :=
  match buildScanPlan catalog delete.tableName delete.conditions with
  | .error e => return (.error e, 0)
  | .ok (plan, _) => do
    match ← plan.operator.openOperator plan.state with
    | (.error e, _) => return (.error e, 0)
    | (.ok (), s) =>
      match ← collectLoop plan.operator (fun record => .ok record.rid) scanFuel s [] with
      | .error e => return (.error e, 0)
      | .ok pending => applyLoop (TableStorage.deleteRecord catalog delete.tableName) pending 0

/-! ## CREATE TABLE and CREATE INDEX -/

/-- The body of the loop of `ExecuteCreateTable`, given the names of the columns before. -/
def makeColumn (names : List Bytes) (definition : ColumnDefinition) : Except Status Column :=
  if definition.name = [] ∨ definition.name ∈ names then
    .error (.invalidArgument "Column names must be non-empty and unique")
  else
    let typeUpper := definition.typeName.map Text.toUpper
    if typeUpper = str "INT" ∨ typeUpper = str "INTEGER" then .ok ⟨definition.name, .integer, 4⟩
    else if typeUpper = str "CHAR" ∨ typeUpper = str "VARCHAR" then
      .ok ⟨definition.name, .varchar, if definition.length = 0 then 30 else definition.length⟩
    else if typeUpper = str "BOOLEAN" ∨ typeUpper = str "BOOL" then
      .ok ⟨definition.name, .boolean, 1⟩
    else .error ⟨.invalidArgument, str "Unsupported data type: " ++ definition.typeName⟩

/-- The loop of `ExecuteCreateTable`. -/
def makeColumns : List Bytes → List ColumnDefinition → Except Status Schema
  | _, [] => .ok []
  | names, definition :: definitions =>
    match makeColumn names definition with
    | .error e => .error e
    | .ok column =>
      match makeColumns (definition.name :: names) definitions with
      | .error e => .error e
      | .ok columns => .ok (column :: columns)

/-- The first page of a new table, which is written to the disk. -/
def newTablePage : Program (Except Status PageId) := do
  let some (firstPageId, f, data) ← newPage
    | return .error (.outOfMemory "Could not allocate the first table page")
  let (status, page) := SlottedPage.init (Page.view firstPageId data)
  writePage f page
  let .true ← unpinPage firstPageId status.isOk
    | return .error (.ioError "Could not unpin the first table page")
  match status with
  | .error e =>
    let _ ← deletePage firstPageId
    return .error e
  | .ok () =>
    let .true ← flushPage firstPageId
      | do
        let _ ← deletePage firstPageId
        return .error (.ioError "Could not persist the first table page")
    return .ok firstPageId

/-- `QueryExecutor::ExecuteCreateTable`. -/
def executeCreateTable (catalog : CatalogManager) (create : CreateTableStatement) :
    Program (Except Status Unit × CatalogManager) :=
  if create.tableName = [] ∨ create.columns = [] then
    return (.error (.invalidArgument "CREATE TABLE requires a name and at least one column"),
      catalog)
  else if (catalog.getTableSchema create.tableName).isOk then
    return (.error (.invalidArgument "Table already exists"), catalog)
  else
  match makeColumns [] create.columns with
  | .error e => return (.error e, catalog)
  | .ok schema => do
    match ← newTablePage with
    | .error e => return (.error e, catalog)
    | .ok firstPageId =>
      match ← catalog.createTable create.tableName schema firstPageId with
      | (.ok (), catalog) => return (.ok (), catalog)
      | (.error e, catalog) =>
        let .true ← deletePage firstPageId
          | return (.error ⟨.ioError, str "CREATE TABLE failed: " ++ e.msg ++
              str "; allocated page cleanup failed"⟩, catalog)
        return (.error e, catalog)

/-- The loop of `ExecuteCreateIndex` that enters the records of the scan into the index. -/
def loadIndexLoop (schema : Schema) (columnIndex : Nat) (index firstPageId : PageId) :
    Nat → SeqScanState → Program (Except Status Unit)
  | 0, _ => .diverge
  | fuel + 1, s => do
    match ← SeqScanOperator.next firstPageId s with
    | (none, s) => return closePlan s.status (.ok ())
    | (some record, s) =>
      match RecordCodec.getValue schema record.data columnIndex with
      | .error e => return closePlan s.status (.error e)
      | .ok value =>
        if value = .null then loadIndexLoop schema columnIndex index firstPageId fuel s
        else
          match IndexKey.encode value with
          | .error e => return closePlan s.status (.error e)
          | .ok encodedKey =>
            match ← HashIndex.insert index encodedKey record.rid with
            | .error e => return closePlan s.status (.error e)
            | .ok () => loadIndexLoop schema columnIndex index firstPageId fuel s

/-- `QueryExecutor::ExecuteCreateIndex`. -/
def executeCreateIndex (catalog : CatalogManager) (create : CreateIndexStatement) :
    Program (Except Status Unit × CatalogManager) :=
  if catalog.hasIndex create.tableName create.columnName then
    return (.error (.invalidArgument "An index already exists for this table column"), catalog)
  else if catalog.hasIndexName create.indexName then
    return (.error (.invalidArgument "Index name already exists"), catalog)
  else
    let target := do
      let schema ← catalog.getTableSchema create.tableName
      let firstPageId ← catalog.getTableFirstPageId create.tableName
      let columnIndex ← findColumn schema create.columnName
      return (schema, firstPageId, columnIndex)
    match target with
    | .error e => return (.error e, catalog)
    | .ok (schema, firstPageId, columnIndex) => do
      match ← HashIndex.create HashIndex.defaultBucketCount with
      | .error e => return (.error e, catalog)
      | .ok index =>
        match ← loadIndexLoop schema columnIndex index firstPageId scanFuel {} with
        | .error e =>
          let e ← destroyIndexAfterFailure index e
          return (.error e, catalog)
        | .ok () =>
          flushAllPages
          catalog.createIndex create.indexName create.tableName create.columnName index

/-! ## Statements -/

/-- `QueryExecutor::Execute`: the status, the result and the catalog. -/
def execute (catalog : CatalogManager) (statement : SQLStatement) :
    Program (Except Status Unit × QueryResult × CatalogManager) :=
  match catalog.initializationStatus with
  | .error e => return (.error e, {}, catalog)
  | .ok () =>
    match statement with
    | .select select => do
      let (status, result) ← executeSelect catalog select
      return (status, result, catalog)
    | .insert insert => do
      let (status, affected) ← executeInsert catalog insert
      return (status, { rowsAffected := affected }, catalog)
    | .update update => do
      let (status, affected) ← executeUpdate catalog update
      return (status, { rowsAffected := affected }, catalog)
    | .delete delete => do
      let (status, affected) ← executeDelete catalog delete
      return (status, { rowsAffected := affected }, catalog)
    | .createTable create => do
      let (status, catalog) ← executeCreateTable catalog create
      return (status, {}, catalog)
    | .createIndex create => do
      let (status, catalog) ← executeCreateIndex catalog create
      return (status, {}, catalog)

end QueryExecutor

end MiniDbms
