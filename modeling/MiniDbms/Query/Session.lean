import MiniDbms.Query.Executor
import MiniDbms.Catalog.CatalogPage

/-!
# The program

`main` of `main.cpp`: it opens the database file and the catalog, and answers the lines of the input
one after the other until the input ends or asks to exit. Then the destructor of the pool writes the
pages back. `Reply` is what is printed for a line; how a result is laid out is left out.
-/

namespace MiniDbms

open Lib PagedProgram Program CatalogManager QueryExecutor

/-- The database file: its pages and their number. -/
structure PageFile where
  pages : PageId → PageData
  numPages : Nat
  numPages_le : numPages ≤ maxPages

/-- The file that does not exist yet. -/
def PageFile.empty : PageFile := ⟨fun _ => Image.zero, 0, Nat.zero_le _⟩

/-- The file of a disk manager. -/
def DiskManager.file (d : DiskManager) : PageFile := ⟨d.pages, d.numPages, d.numPages_le⟩

/-- `DEFAULT_BUFFER_POOL_SIZE`. -/
def defaultBufferPoolSize : Nat := 10

/-- What `main` prints for a line. -/
inductive Reply where
  | syntaxError (status : Status)
  | executionError (status : Status)
  | explain (scanType : ScanType) (rowsReturned : Nat)
  | rows (columnNames : List Bytes) (rows : List (List FieldValue))
  | affected (rows : Nat)
  | completed
  deriving DecidableEq, Repr

/-- The reply to a statement that has succeeded and is no SELECT. -/
def Reply.ofAffected (rowsAffected : Nat) : Reply :=
  if 0 < rowsAffected then .affected rowsAffected else .completed

/-- `Execute` for EXPLAIN: `main` asks for no result. -/
def answerExplain (catalog : CatalogManager) (select : SelectStatement) : Program Reply :=
  match catalog.initializationStatus with
  | .error e => return .executionError e
  | .ok () => do
    match ← executeCount catalog select with
    | (.error e, _) => return .executionError e
    | (.ok (), rowsReturned) => return .explain (scanType catalog select) rowsReturned

/-- One statement. -/
def answerStatement (catalog : CatalogManager) (statement : SQLStatement) :
    Program (Reply × CatalogManager) := do
  let (status, result, catalog) ← execute catalog statement
  match status with
  | .error e => return (.executionError e, catalog)
  | .ok () =>
    match statement with
    | .select _ => return (.rows result.columnNames result.rows, catalog)
    | _ => return (.ofAffected result.rowsAffected, catalog)

/-- The body of the loop of `main` for a line that is not empty. -/
def answer (catalog : CatalogManager) (line : Bytes) : Program (Reply × CatalogManager) :=
  match Parser.parse (Tokenizer.tokenize line) with
  | .error e => return (.syntaxError e, catalog)
  | .ok (.select select) =>
    if select.isExplain then do
      let reply ← answerExplain catalog select
      return (reply, catalog)
    else answerStatement catalog (.select select)
  | .ok statement => answerStatement catalog statement

/-- The loop of `main` over the lines of the input. -/
def serve : List Bytes → CatalogManager → Program (List Reply)
  | [], _ => return []
  | line :: input, catalog =>
    if line = str "exit;" ∨ line = str "exit" then return []
    else if line = [] then serve input catalog
    else do
      let (reply, catalog) ← answer catalog line
      let replies ← serve input catalog
      return reply :: replies

/-- The objects of `main` after the pool: the exit code and the replies. -/
def runMain (input : List Bytes) : Program (Nat × List Reply) := do
  let catalog ← load
  match catalog.initializationStatus with
  | .error _ => return (1, [])
  | .ok () =>
    let replies ← serve input catalog
    return (0, replies)

/-- `main`: the exit code, the replies and the file afterwards; `none` if a constructor throws. -/
def main (faults : DiskFaults) (file : PageFile) (input : List Bytes) :
    Option (Nat × List Reply × PageFile) :=
  match DiskManager.openFile file.pages file.numPages file.numPages_le faults with
  | none => none
  | some disk =>
    match (runMain input).run (.new defaultBufferPoolSize disk) with
    | none => none
    | some ((code, replies), w) => some (code, replies, w.flushAllPages.disk.file)

end MiniDbms
