import MiniDbms.Buffer.BufferPool
import Mathlib.Data.List.DropRight

/-!
# Slotted pages

`SlottedPage` of `storage/slotted_page.cpp`: a header of 16 bytes (page id, slot count,
free space pointer, next page id, LSN), a directory of 4-byte slots that grows upwards,
and the records, which grow downwards from the end of the page. A free slot has offset and
length zero.

The functions are given the page and return it together with their status. `records` and
`active_slots` of the source are one list of optional records.
-/

namespace MiniDbms

open Lib

/-- `class Record`. -/
structure Record where
  rid : RecordID := {}
  data : Bytes := []
  deriving DecidableEq, Repr

namespace SlottedPage

/-- `PAGE_HEADER_SIZE` plus the slots: where the directory ends. -/
def directoryEnd (slotCount : Nat) : Nat := 16 + slotCount * 4

/-- `GetSlotOffset`. -/
def slotOffset (slot : Nat) : Nat := 16 + slot * 4

def readSlotRecordOffset (d : PageData) (slot : Nat) : Nat := d.readNat (slotOffset slot) 2

def readSlotRecordLength (d : PageData) (slot : Nat) : Nat := d.readNat (slotOffset slot + 2) 2

def writeSlot (d : PageData) (slot recordOffset recordLength : Nat) : PageData :=
  (d.writeNat (slotOffset slot) 2 recordOffset).writeNat (slotOffset slot + 2) 2 recordLength

/-- The body of the loop of `LoadRecords`. -/
def loadSlot (d : PageData) (slotCount slot : Nat) : Except Status (Option Bytes) :=
  let recordOffset := readSlotRecordOffset d slot
  let recordLength := readSlotRecordLength d slot
  if recordOffset = 0 ∧ recordLength = 0 then .ok none
  else if recordOffset = 0 ∨ recordLength = 0 then .error (.ioError "Corrupted slot entry")
  else if recordOffset < directoryEnd slotCount ∨ pageSize < recordOffset + recordLength then
    .error (.ioError "Corrupted record bounds")
  else .ok (some (d.bytes recordOffset recordLength))

/-- `LoadRecords`. -/
def loadRecords (d : PageData) (slotCount : Nat) : Except Status (List (Option Bytes)) :=
  if pageSize < directoryEnd slotCount then .error (.ioError "Corrupted slot directory")
  else (List.range slotCount).mapM (loadSlot d slotCount)

/-- The bytes of the live records. -/
def liveBytes (slots : List (Option Bytes)) : Nat :=
  (slots.map fun s => (s.getD []).length).sum

/-- The loop of `RewriteRecords` from `slot` on: the page and the free space pointer. -/
def rewriteSlots (d : PageData) (slot freeSpacePointer : Nat) :
    List (Option Bytes) → PageData × Nat
  | [] => (d, freeSpacePointer)
  | none :: rest => rewriteSlots (writeSlot d slot 0 0) (slot + 1) freeSpacePointer rest
  | some data :: rest =>
    let pointer := toU16 (freeSpacePointer - data.length)
    rewriteSlots (writeSlot (d.splice pointer data) slot pointer data.length)
    (slot + 1) pointer rest

/-- `RewriteRecords`. -/
def rewriteRecords (page : Page) (slots : List (Option Bytes)) : Except Status Unit × Page :=
  if pageSize < directoryEnd slots.length + liveBytes slots then
    (.error (.outOfMemory "Not enough free space in page"), page)
  else
    let cleared := (page.data.clear 16 (pageSize - 16)).writeNat 4 2 slots.length
    let (d, freeSpacePointer) := rewriteSlots cleared 0 pageSize slots
    (.ok (), { page with data := d.writeNat 6 2 freeSpacePointer, isDirty := true })

/-- `SlottedPage::Init`. -/
def init (page : Page) : Except Status Unit × Page :=
  if page.pageId = invalidPageId then
    (.error (.invalidArgument "Page must have a valid PageId"), page)
  else
    let d := PageData.writePageId Image.zero 0 page.pageId
    let d := (d.writeNat 4 2 0).writeNat 6 2 pageSize
    let d := (PageData.writePageId d 8 invalidPageId).writeNat 12 4 0
    (.ok (), { page with data := d, isDirty := true })

def getSlotCount (page : Page) : Nat := page.data.readNat 4 2

/-- `FREE_SPACE_POINTER_OFFSET`. -/
def freeSpacePointer (page : Page) : Nat := page.data.readNat 6 2

/-- `SlottedPage::IsInitialized`. -/
def isInitialized (page : Page) : Bool :=
  page.pageId ≠ invalidPageId ∧
    PageData.readPageId page.data 0 = page.pageId ∧
    directoryEnd (getSlotCount page) ≤ pageSize ∧
    directoryEnd (getSlotCount page) ≤ freeSpacePointer page ∧
    freeSpacePointer page ≤ pageSize

def getFreeSpace (page : Page) : Nat :=
  if isInitialized page then toU16 (freeSpacePointer page - directoryEnd (getSlotCount page)) else 0

def getNextPageId (page : Page) : PageId :=
  if isInitialized page then PageData.readPageId page.data 8 else invalidPageId

/-- `SlottedPage::SetNextPageId`. -/
def setNextPageId (page : Page) (next : PageId) : Except Status Unit × Page :=
  if !isInitialized page then
    (.error (.invalidArgument "Slotted page is not initialized"), page)
  else if next.toInt < invalidPageId.toInt ∨ next = page.pageId then
    (.error (.invalidArgument "Invalid next page id"), page)
  else
    (.ok (), { page with data := PageData.writePageId page.data 8 next, isDirty := true })

/-- The loop of `InsertRecord`: the first free slot of the directory. -/
def findFreeSlot (d : PageData) (slotCount : Nat) : Option Nat :=
  (List.range slotCount).find? fun slot =>
    readSlotRecordOffset d slot = 0 ∧ readSlotRecordLength d slot = 0

/-- `SlottedPage::InsertRecord`. -/
def insertRecord (page : Page) (data : Bytes) : Except Status SlotId × Page :=
  if !isInitialized page then
    (.error (.invalidArgument "Slotted page is not initialized"), page)
  else if data.length = 0 ∨ pageSize < data.length then
    (.error (.invalidArgument "Invalid record size"), page)
  else if 65535 < data.length then
    (.error (.invalidArgument "Record is too large"), page)
  else
    let slotCount := getSlotCount page
    let reused := findFreeSlot page.data slotCount
    let selectedSlot := reused.getD slotCount
    let requiredSpace := data.length + if reused.isSome then 0 else 4
    if getFreeSpace page < requiredSpace then
      (.error (.outOfMemory "Not enough free space in page"), page)
    else
      let recordOffset := toU16 (freeSpacePointer page - data.length)
      let d := writeSlot (page.data.splice recordOffset data) selectedSlot recordOffset data.length
      let d := if reused.isSome then d else d.writeNat 4 2 (slotCount + 1)
      (.ok (UInt16.ofNat selectedSlot),
        { page with data := d.writeNat 6 2 recordOffset, isDirty := true })

/-- `SlottedPage::ReadRecord`. -/
def readRecord (page : Page) (slot : SlotId) : Except Status Record :=
  if !isInitialized page then .error (.invalidArgument "Slotted page is not initialized")
  else if getSlotCount page ≤ slot.toNat then .error (.notFound "Slot does not exist")
  else
    let recordOffset := readSlotRecordOffset page.data slot.toNat
    let recordLength := readSlotRecordLength page.data slot.toNat
    if recordOffset = 0 ∧ recordLength = 0 then
      .error (.notFound "Record was deleted or slot is empty")
    else if recordOffset < directoryEnd (getSlotCount page) ∨
        pageSize < recordOffset + recordLength then
      .error (.ioError "Corrupted slot entry")
    else .ok { rid := ⟨page.pageId, slot⟩, data := page.data.bytes recordOffset recordLength }

/-- `SlottedPage::UpdateRecord`. -/
def updateRecord (page : Page) (slot : SlotId) (data : Bytes) : Except Status Unit × Page :=
  if !isInitialized page then
    (.error (.invalidArgument "Slotted page is not initialized"), page)
  else if data.length = 0 ∨ pageSize < data.length then
    (.error (.invalidArgument "Invalid updated record"), page)
  else if 65535 < data.length then
    (.error (.invalidArgument "Updated record is too large"), page)
  else if getSlotCount page ≤ slot.toNat then (.error (.notFound "Slot does not exist"), page)
  else
    match loadRecords page.data (getSlotCount page) with
    | .error e => (.error e, page)
    | .ok slots =>
      match slots.getD slot.toNat none with
      | none => (.error (.notFound "Record was deleted or slot is empty"), page)
      | some _ => rewriteRecords page (slots.set slot.toNat (some data))

/-- `SlottedPage::DeleteRecord`. Free slots at the end of the directory are dropped. -/
def deleteRecord (page : Page) (slot : SlotId) : Except Status Unit × Page :=
  if !isInitialized page then
    (.error (.invalidArgument "Slotted page is not initialized"), page)
  else if getSlotCount page ≤ slot.toNat then (.error (.notFound "Slot does not exist"), page)
  else
    match loadRecords page.data (getSlotCount page) with
    | .error e => (.error e, page)
    | .ok slots =>
      match slots.getD slot.toNat none with
      | none => (.error (.notFound "Record was already deleted"), page)
      | some _ => rewriteRecords page ((slots.set slot.toNat none).rdropWhile Option.isNone)

end SlottedPage

end MiniDbms
