import MiniDbms.Buffer.Programs
import MiniDbms.Storage.SlottedPage

/-!
# Heap files

`HeapFile` of `storage/heap_file.cpp`: a chain of slotted pages, linked by their next page
ids. The loops over the chain keep the set of visited pages.
-/

namespace MiniDbms

open Lib PagedProgram Program

namespace HeapFile

/-- `HeapFile::AppendNewPage`. -/
def appendNewPage (previousPageId : PageId) (record : Bytes) :
    Program (Except Status RecordID) := do
  let some (newPageId, f, data) ← newPage
    | return .error (.outOfMemory "No buffer frame available for a new HeapFile page")
  let (status, page) := SlottedPage.init (Page.view newPageId data)
  writePage f page
  match status with
  | .error e =>
    let _ ← unpinPage newPageId false
    let _ ← deletePage newPageId
    return .error e
  | .ok () =>
  let (status, page) := SlottedPage.insertRecord page record
  writePage f page
  match status with
  | .error e =>
    let _ ← unpinPage newPageId false
    let _ ← deletePage newPageId
    return .error e
  | .ok newSlotId =>
  let .true ← unpinPage newPageId true
    | return .error (.ioError "Could not unpin new HeapFile page")
  let some (f, data) ← fetchPage previousPageId
    | do
      let _ ← deletePage newPageId
      return .error (.ioError "Could not refetch previous HeapFile page")
  let previous := Page.view previousPageId data
  if !SlottedPage.isInitialized previous then
    let _ ← unpinPage previousPageId false
    let _ ← deletePage newPageId
    return .error (.ioError "Previous HeapFile page is not initialized")
  else
  let (status, previous) := SlottedPage.setNextPageId previous newPageId
  writePage f previous
  match status with
  | .error e =>
    let .true ← unpinPage previousPageId false
      | return .error (.ioError "Could not unpin previous HeapFile page")
    let _ ← deletePage newPageId
    return .error e
  | .ok () =>
    let .true ← unpinPage previousPageId true
      | return .error (.ioError "Could not unpin previous HeapFile page")
    return .ok ⟨newPageId, newSlotId⟩

/-- `Init` of a page that is not initialised yet. -/
def initIfNeeded (page : Page) : Except Status Unit × Page :=
  if SlottedPage.isInitialized page then (.ok (), page) else SlottedPage.init page

/-- The loop of `HeapFile::InsertRecord`. -/
def insertLoop (record : Bytes) : Nat → List PageId → PageId → Program (Except Status RecordID)
  | 0, _, _ => .diverge
  | fuel + 1, visited, current =>
    if current = invalidPageId then
      return .error (.ioError "HeapFile page chain ended unexpectedly")
    else if current ∈ visited then
      return .error (.ioError "Cycle detected in HeapFile page chain")
    else do
      let some (f, data) ← fetchPage current
        | return .error (.ioError "Could not fetch HeapFile page")
      let (status, page) := initIfNeeded (Page.view current data)
      match status with
      | .error e =>
        let _ ← unpinPage current false
        return .error e
      | .ok () =>
      let (status, page) := SlottedPage.insertRecord page record
      writePage f page
      match status with
      | .ok slotId =>
        let .true ← unpinPage current true
          | return .error (.ioError "Could not unpin modified HeapFile page")
        return .ok ⟨current, slotId⟩
      | .error e =>
        let next := SlottedPage.getNextPageId page
        let .true ← unpinPage current false
          | return .error (.ioError "Could not unpin HeapFile page")
        if e.code ≠ .outOfMemory then return .error e
        else if next ≠ invalidPageId then insertLoop record fuel (current :: visited) next
        else appendNewPage current record

/-- `HeapFile::InsertRecord`. -/
def insertRecord (firstPageId : PageId) (record : Bytes) : Program (Except Status RecordID) :=
  if record = [] then return .error (.invalidArgument "Record cannot be empty")
  else insertLoop record chainFuel [] firstPageId

/-- `HeapFile::GetRecord`. -/
def getRecord (rid : RecordID) : Program (Except Status Record) := do
  if rid.pageId.toInt ≤ headerPageId.toInt then
    return .error (.invalidArgument "RecordID contains an invalid page id")
  else
  let some (_, data) ← fetchPage rid.pageId
    | return .error (.notFound "Record page could not be loaded")
  let status := SlottedPage.readRecord (Page.view rid.pageId data) rid.slotId
  let .true ← unpinPage rid.pageId false
    | return .error (.ioError "Could not unpin record page")
  return status

/-- The common part of `UpdateRecord` and `DeleteRecord`: one change of the record's page. -/
def changeRecord (rid : RecordID) (change : Page → Except Status Unit × Page)
    (unpinError : String) :
    Program (Except Status Unit) := do
  let some (f, data) ← fetchPage rid.pageId
    | return .error (.notFound "Record page could not be loaded")
  let (status, page) := change (Page.view rid.pageId data)
  writePage f page
  let .true ← unpinPage rid.pageId status.isOk
    | return .error (.ioError unpinError)
  return status

/-- `HeapFile::UpdateRecord`. -/
def updateRecord (record : Record) : Program (Except Status Unit) :=
  if record.rid.pageId.toInt ≤ headerPageId.toInt then
    return .error (.invalidArgument "Record has an invalid RecordID")
  else if record.data = [] then
    return .error (.invalidArgument "Updated record cannot be empty")
  else
    changeRecord record.rid (SlottedPage.updateRecord · record.rid.slotId record.data)
      "Could not unpin updated record page"

/-- `HeapFile::DeleteRecord`. -/
def deleteRecord (rid : RecordID) : Program (Except Status Unit) :=
  if rid.pageId.toInt ≤ headerPageId.toInt then
    return .error (.invalidArgument "RecordID contains an invalid page id")
  else
    changeRecord rid (SlottedPage.deleteRecord · rid.slotId) "Could not unpin deleted record page"

/-- The loop of `HeapFile::ContainsPage`. -/
def containsLoop (pageId : PageId) : Nat → List PageId → PageId → Program (Except Status Bool)
  | 0, _, _ => .diverge
  | fuel + 1, visited, current =>
    if current = invalidPageId then return .ok false
    else if current ∈ visited then
      return .error (.ioError "Cycle detected in HeapFile page chain")
    else if current = pageId then return .ok true
    else do
      let some (_, data) ← fetchPage current
        | return .error (.ioError "Could not fetch HeapFile page while validating ownership")
      let page := Page.view current data
      if !SlottedPage.isInitialized page then
        let _ ← unpinPage current false
        return .error (.ioError "HeapFile contains an uninitialized page")
      else
      let .true ← unpinPage current false
        | return .error (.ioError "Could not unpin HeapFile page while validating ownership")
      containsLoop pageId fuel (current :: visited) (SlottedPage.getNextPageId page)

/-- `HeapFile::ContainsPage`. -/
def containsPage (firstPageId pageId : PageId) : Program (Except Status Bool) :=
  if pageId.toInt ≤ headerPageId.toInt then
    return .error (.invalidArgument "Page id must refer to a data page")
  else containsLoop pageId chainFuel [] firstPageId

/-- The loop of `FindRecordFrom` over the slots of one page, with the number of slots left. The
result is a record, an error other than `NOT_FOUND`, or nothing. -/
def findInPage (page : Page) : Nat → Nat → Option (Except Status Record)
  | 0, _ => none
  | left + 1, slot =>
    match SlottedPage.readRecord page (UInt16.ofNat slot) with
    | .ok record => some (.ok record)
    | .error e => if e.code ≠ .notFound then some (.error e) else findInPage page left (slot + 1)

/-- The loop of `HeapFile::FindRecordFrom`. -/
def findLoop : Nat → List PageId → PageId → Nat → Program (Except Status Record)
  | 0, _, _, _ => .diverge
  | fuel + 1, visited, current, firstSlot =>
    if current = invalidPageId then return .error (.notFound "No more records in HeapFile")
    else if current ∈ visited then
      return .error (.ioError "Cycle detected in HeapFile page chain")
    else do
      let some (_, data) ← fetchPage current
        | return .error (.ioError "Could not fetch HeapFile page while scanning")
      let page := Page.view current data
      if !SlottedPage.isInitialized page then
        let _ ← unpinPage current false
        return .error (.ioError "HeapFile contains an uninitialized page")
      else
      match findInPage page (SlottedPage.getSlotCount page - firstSlot) firstSlot with
      | some (.ok record) =>
        let .true ← unpinPage current false
          | return .error (.ioError "Could not unpin scanned HeapFile page")
        return .ok record
      | some (.error e) =>
        let _ ← unpinPage current false
        return .error e
      | none =>
        let .true ← unpinPage current false
          | return .error (.ioError "Could not unpin scanned HeapFile page")
        findLoop fuel (current :: visited) (SlottedPage.getNextPageId page) 0

/-- `HeapFile::GetFirstRecord`. -/
def getFirstRecord (firstPageId : PageId) : Program (Except Status Record) :=
  findLoop chainFuel [] firstPageId 0

/-- `HeapFile::GetNextRecord`. -/
def getNextRecord (rid : RecordID) : Program (Except Status Record) :=
  if rid.pageId.toInt ≤ headerPageId.toInt then
    return .error (.invalidArgument "Current RecordID contains an invalid page id")
  else findLoop chainFuel [] rid.pageId (rid.slotId.toNat + 1)

end HeapFile

end MiniDbms
