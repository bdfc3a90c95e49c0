import MiniDbms.Index.HashIndex
import MiniDbms.Query.Parser
import MiniDbms.Storage.HeapFile
import MiniDbms.Storage.RecordCodec

/-!
# Operators

The classes of `query/operators`. An `AbstractOperator σ` is a class with the virtual functions
`Open`, `Next` and `Close`, whose objects have the state `σ`; an operator with a child has the
state of its child in its own state. `Next` returns the next record, or nothing; an error is kept in
the state until `Close`.
-/

namespace MiniDbms

open Lib PagedProgram Program

/-- `AbstractOperator`, for objects with the state `σ`. -/
structure AbstractOperator (σ : Type) where
  openOperator : σ → Program (Except Status Unit × σ)
  next : σ → Program (Option Record × σ)
  close : σ → Except Status Unit

/-- The turns of a loop over records: a file has fewer records. -/
def scanFuel : Nat := 2 ^ 64

/-! ## `SeqScanOperator` -/

structure SeqScanState where
  started : Bool := false
  finished : Bool := false
  currentRid : RecordID := {}
  status : Except Status Unit := .ok ()

namespace SeqScanOperator

def openOperator (_ : SeqScanState) : Program (Except Status Unit × SeqScanState) :=
  return (.ok (), {})

def next (firstPageId : PageId) (s : SeqScanState) : Program (Option Record × SeqScanState) := do
  if s.finished then return (none, s)
  else
    let result ← if s.started then HeapFile.getNextRecord s.currentRid
      else HeapFile.getFirstRecord firstPageId
    match result with
    | .ok record => return (some record, { s with started := true, currentRid := record.rid })
    | .error e =>
      if e.code = .notFound then return (none, { s with started := true, finished := true })
      else return (none, { s with started := true, finished := true, status := .error e })

/-- What `Next` makes of the answer of the heap file. -/
def advance (s : SeqScanState) (result : Except Status Record) : Option Record × SeqScanState :=
  match result with
  | .ok record => (some record, { s with started := true, currentRid := record.rid })
  | .error e =>
    if e.code = .notFound then (none, { s with started := true, finished := true })
    else (none, { s with started := true, finished := true, status := .error e })

/-- Before the end, `Next` makes one call of the heap file. -/
theorem next_eq {firstPageId : PageId} {s : SeqScanState} (hs : s.finished = false) :
    next firstPageId s = (if s.started then HeapFile.getNextRecord s.currentRid
      else HeapFile.getFirstRecord firstPageId) >>= fun result => pure (advance s result) := by
  have hjoin : (fun result : Except Status Record => (match result with
      | .ok record => pure (some record, { s with started := true, currentRid := record.rid })
      | .error e =>
        if e.code = .notFound then pure (none, { s with started := true, finished := true })
        else pure (none, { s with started := true, finished := true, status := .error e }) :
        Program (Option Record × SeqScanState))) = fun result => pure (advance s result) := by
    funext result
    cases result with
    | ok record => rfl
    | error e =>
      unfold advance
      dsimp only
      split <;> rfl
  unfold next
  rw [if_neg (by rw [hs]; exact Bool.false_ne_true)]
  dsimp only
  split
  · exact congrArg (HeapFile.getNextRecord s.currentRid >>= ·) hjoin
  · exact congrArg (HeapFile.getFirstRecord firstPageId >>= ·) hjoin

/-- `SeqScanOperator` over a heap file. -/
def operator (firstPageId : PageId) : AbstractOperator SeqScanState where
  openOperator := openOperator
  next := next firstPageId
  close s := s.status

end SeqScanOperator

/-! ## `IndexScanOperator` -/

/-- `matching_rids_` from the cursor on, and `scan_status_`. -/
structure IndexScanState where
  rids : List RecordID := []
  status : Except Status Unit := .ok ()

namespace IndexScanOperator

def openOperator (index : PageId) (encodedKey : Bytes) (_ : IndexScanState) :
    Program (Except Status Unit × IndexScanState) := do
  match ← HashIndex.getValue index encodedKey with
  | .ok rids => return (.ok (), ⟨rids, .ok ()⟩)
  | .error e => return (.error e, ⟨[], .error e⟩)

/-- The loop of `Next` over the record ids. -/
def nextLoop : List RecordID → Program (Option Record × IndexScanState)
  | [] => return (none, ⟨[], .ok ()⟩)
  | candidate :: rids => do
    match ← HeapFile.getRecord candidate with
    | .ok record => return (some record, ⟨rids, .ok ()⟩)
    | .error e =>
      if e.code = .notFound then nextLoop rids
      else return (none, ⟨rids, .error e⟩)

def next (s : IndexScanState) : Program (Option Record × IndexScanState) :=
  match s.status with
  | .error _ => return (none, s)
  | .ok () => nextLoop s.rids

/-- `IndexScanOperator` over an open index. -/
def operator (index : PageId) (encodedKey : Bytes) : AbstractOperator IndexScanState where
  openOperator := openOperator index encodedKey
  next := next
  close s := s.status

end IndexScanOperator

/-! ## `FilterOperator` -/

structure FilterState (σ : Type) where
  child : σ
  columnIndex : Nat := 0
  targetValue : FieldValue := .null
  status : Except Status Unit := .ok ()

namespace FilterOperator

/-- `CompareIntegers`. -/
def compareIntegers (left right : Int32) (op : Bytes) : Bool :=
  if op = str "=" then left = right
  else if op = str ">" then right < left
  else if op = str "<" then left < right
  else if op = str ">=" then right ≤ left
  else if op = str "<=" then left ≤ right
  else false

/-- `CompareStrings`: byte by byte, as unsigned numbers. -/
def compareStrings (left right : Bytes) (op : Bytes) : Bool :=
  if op = str "=" then left = right
  else if op = str ">" then right < left
  else if op = str "<" then left < right
  else if op = str ">=" then ¬ left < right
  else if op = str "<=" then ¬ right < left
  else false

/-- The comparison of `Evaluate`, when the record has a value in the column. -/
def compareValues (actual target : FieldValue) (op : Bytes) : Bool :=
  match actual, target with
  | .integer left, .integer right => compareIntegers left right op
  | .text left, .text right => compareStrings left right op
  | .boolean left, .boolean right => op = str "=" ∧ left = right
  | _, _ => false

section

variable {σ : Type} (child : AbstractOperator σ) (schema : Schema) (condition : Condition)

def openOperator (s : FilterState σ) : Program (Except Status Unit × FilterState σ) := do
  match schema.columnIndex condition.column with
  | none =>
    return (.error ⟨.invalidArgument, str "Filter column does not exist: " ++ condition.column⟩, s)
  | some columnIndex =>
    match convertLiteral (schema.getD columnIndex ⟨[], .integer, 0⟩) condition.value false with
    | .error e => return (.error e, { s with columnIndex := columnIndex, status := .error e })
    | .ok targetValue =>
      let (status, child) ← child.openOperator s.child
      return (status, ⟨child, columnIndex, targetValue, .ok ()⟩)

/-- `Evaluate`. -/
def evaluate (columnIndex : Nat) (targetValue : FieldValue) (record : Record) :
    Except Status Bool :=
  match RecordCodec.getValue schema record.data columnIndex with
  | .error e => .error e
  | .ok actual => .ok (compareValues actual targetValue condition.op)

/-- The loop of `Next`. -/
def nextLoop : Nat → FilterState σ → Program (Option Record × FilterState σ)
  | 0, _ => .diverge
  | fuel + 1, s => do
    match ← child.next s.child with
    | (none, c) => return (none, { s with child := c })
    | (some record, c) =>
      match evaluate schema condition s.columnIndex s.targetValue record with
      | .error e => return (none, { s with child := c, status := .error e })
      | .ok true => return (some record, { s with child := c })
      | .ok false => nextLoop fuel { s with child := c }

def next (s : FilterState σ) : Program (Option Record × FilterState σ) :=
  match s.status with
  | .error _ => return (none, s)
  | .ok () => nextLoop child schema condition scanFuel s

/-- `Close`: the own error goes before that of the child. -/
def close (s : FilterState σ) : Except Status Unit :=
  match s.status with
  | .error e => .error e
  | .ok () => child.close s.child

/-- `FilterOperator` over a child. -/
def operator : AbstractOperator (FilterState σ) where
  openOperator := openOperator child schema condition
  next := next child schema condition
  close := close child

end

end FilterOperator

/-! ## `ProjectionOperator` -/

structure ProjectionState (σ : Type) where
  child : σ
  status : Except Status Unit := .ok ()

namespace ProjectionOperator

section

variable {σ : Type} (child : AbstractOperator σ) (inputSchema : Schema) (selectedFields : List Nat)

def openOperator (s : ProjectionState σ) : Program (Except Status Unit × ProjectionState σ) := do
  if selectedFields = [] then
    return (.error (.invalidArgument "Projection requires at least one column"), s)
  else if ∃ index ∈ selectedFields, inputSchema.getColumnCount ≤ index then
    return (.error (.invalidArgument "Projection column index is out of range"), s)
  else
    let (status, child) ← child.openOperator s.child
    return (status, ⟨child, .ok ()⟩)

def next (s : ProjectionState σ) : Program (Option Record × ProjectionState σ) := do
  match s.status with
  | .error _ => return (none, s)
  | .ok () =>
    match ← child.next s.child with
    | (none, c) => return (none, { s with child := c })
    | (some input, c) =>
      match RecordCodec.project inputSchema input.data selectedFields with
      | .error e => return (none, ⟨c, .error e⟩)
      | .ok data => return (some ⟨input.rid, data⟩, ⟨c, .ok ()⟩)

/-- `Close`. -/
def close (s : ProjectionState σ) : Except Status Unit :=
  match s.status with
  | .error e => .error e
  | .ok () => child.close s.child

/-- `ProjectionOperator` over a child. -/
def operator : AbstractOperator (ProjectionState σ) where
  openOperator := openOperator child inputSchema selectedFields
  next := next child inputSchema selectedFields
  close := close child

end

end ProjectionOperator

/-! ## Plans -/

/-- A tree of operators (`std::unique_ptr<AbstractOperator>`): a class and the state of the
object. -/
structure Plan where
  State : Type
  operator : AbstractOperator State
  state : State

namespace Plan

def seqScan (firstPageId : PageId) : Plan := ⟨_, SeqScanOperator.operator firstPageId, {}⟩

def indexScan (index : PageId) (encodedKey : Bytes) : Plan :=
  ⟨_, IndexScanOperator.operator index encodedKey, {}⟩

def filter (plan : Plan) (schema : Schema) (condition : Condition) : Plan :=
  ⟨_, FilterOperator.operator plan.operator schema condition, { child := plan.state }⟩

def projection (plan : Plan) (inputSchema : Schema) (selectedFields : List Nat) : Plan :=
  ⟨_, ProjectionOperator.operator plan.operator inputSchema selectedFields, { child := plan.state }⟩

end Plan

end MiniDbms
