import MiniDbms.Buffer.BufferPool

/-!
# Bucket pages of a hash index

`HashIndexBucketPage` of `index/bucket_page.cpp`, which is also the format of the overflow
pages (`overflow_page.h`): a header of 16 bytes (magic number, entry count, capacity,
overflow page id) and up to 53 entries of 76 bytes, each with a key of at most 64 bytes and
a `RecordID`.
-/

namespace MiniDbms

open Lib

/-- A key and the `RecordID` stored under it. -/
abbrev Entry := Bytes × RecordID

namespace HashIndexBucketPage

/-- `MAX_KEY_LENGTH`. -/
def maxKeyLength : Nat := 64

/-- `MAGIC`, the bytes "HBK1". -/
def magic : Nat := 0x314B4248

/-- `ENTRY_CAPACITY`. -/
def entryCapacity : Nat := 53

/-- `HashIndexBucketPage::Init`. -/
def init (page : Page) : Except Status Unit × Page :=
  if page.pageId = invalidPageId then
    (.error (.invalidArgument "Hash bucket requires a valid page"), page)
  else
    let d := (Image.zero : PageData).writeNat 0 4 magic
    let d := (d.writeNat 4 2 0).writeNat 6 2 entryCapacity
    let d := (PageData.writePageId d 8 invalidPageId).writeNat 12 4 0
    (.ok (), { page with data := d, isDirty := true })

/-- `HashIndexBucketPage::IsInitialized`. -/
def isInitialized (page : Page) : Bool :=
  page.data.readNat 0 4 = magic ∧ page.data.readNat 6 2 = entryCapacity ∧
    page.data.readNat 4 2 ≤ entryCapacity

def getEntryCount (page : Page) : Nat :=
  if isInitialized page then page.data.readNat 4 2 else 0

def getOverflowPageId (page : Page) : PageId :=
  if isInitialized page then PageData.readPageId page.data 8 else invalidPageId

/-- `HashIndexBucketPage::SetOverflowPageId`. -/
def setOverflowPageId (page : Page) (pageId : PageId) : Except Status Unit × Page :=
  if !isInitialized page then (.error (.ioError "Hash bucket page is not initialized"), page)
  else if pageId = 0 ∨ pageId.toInt < invalidPageId.toInt then
    (.error (.invalidArgument "Invalid overflow page id"), page)
  else
    (.ok (), { page with data := PageData.writePageId page.data 8 pageId, isDirty := true })

/-- `GetEntryOffset`. -/
def entryOffset (index : Nat) : Nat := 16 + index * 76

/-- `ValidateKey`. -/
def validateKey (key : Bytes) : Except Status Unit :=
  if maxKeyLength < key.length then
    .error (.invalidArgument "Hash index key exceeds maximum length")
  else .ok ()

theorem validateKey_ok {key : Bytes} (h : key.length ≤ maxKeyLength) : validateKey key = .ok () :=
  if_neg (Nat.not_lt.mpr h)

/-- `ReadEntry`. -/
def readEntry (page : Page) (index : Nat) : Except Status Entry :=
  if isInitialized page = false ∨ getEntryCount page ≤ index then
    .error (.notFound "Hash bucket entry does not exist")
  else
    let offset := entryOffset index
    let keyLength := page.data.readNat offset 2
    if maxKeyLength < keyLength then .error (.ioError "Corrupted hash bucket key length")
    else
      .ok (page.data.bytes (offset + 4) keyLength,
        ⟨PageData.readPageId page.data (offset + 68),
          UInt16.ofNat (page.data.readNat (offset + 72) 2)⟩)

/-- `WriteEntry`. -/
def writeEntry (page : Page) (index : Nat) (key : Bytes) (value : RecordID) :
    Except Status Unit × Page :=
  match validateKey key with
  | .error e => (.error e, page)
  | .ok () =>
    if isInitialized page = false ∨ entryCapacity ≤ index then
      (.error (.invalidArgument "Hash bucket entry index is out of range"), page)
    else
      let offset := entryOffset index
      let d := (page.data.clear offset 76).writeNat offset 2 key.length
      let d := PageData.writePageId (d.splice (offset + 4) key) (offset + 68) value.pageId
      (.ok (), { page with data := d.writeNat (offset + 72) 2 value.slotId.toNat, isDirty := true })

/-- `ClearEntry`. -/
def clearEntry (page : Page) (index : Nat) : Page :=
  if entryCapacity ≤ index then page
  else { page with data := page.data.clear (entryOffset index) 76, isDirty := true }

/-- The loop of `Insert` from `index` on, with the number of entries left: whether the pair is
there already. -/
def findPair (page : Page) (key : Bytes) (value : RecordID) : Nat → Nat → Except Status Bool
  | 0, _ => .ok false
  | left + 1, index =>
    match readEntry page index with
    | .error e => .error e
    | .ok (existingKey, existingValue) =>
      if existingKey = key ∧ existingValue = value then .ok true
      else findPair page key value left (index + 1)

/-- `HashIndexBucketPage::Insert`; the result says whether an entry was written. -/
def insert (page : Page) (key : Bytes) (value : RecordID) : Except Status Bool × Page :=
  match validateKey key with
  | .error e => (.error e, page)
  | .ok () =>
    if !isInitialized page then (.error (.ioError "Hash bucket page is not initialized"), page)
    else if value.pageId.toInt ≤ 0 then
      (.error (.invalidArgument "Hash index requires a valid RecordID"), page)
    else
      let entryCount := getEntryCount page
      match findPair page key value entryCount 0 with
      | .error e => (.error e, page)
      | .ok true => (.ok false, page)
      | .ok false =>
        if entryCapacity ≤ entryCount then
          (.error (.outOfMemory "Hash bucket page is full"), page)
        else
          match writeEntry page entryCount key value with
          | (.error e, page) => (.error e, page)
          | (.ok (), page) =>
            (.ok true,
              { page with data := page.data.writeNat 4 2 (entryCount + 1), isDirty := true })

/-- The loop of `GetValue` from `index` on, with the number of entries left. -/
def collectValues (page : Page) (key : Bytes) : Nat → Nat → Except Status (List RecordID)
  | 0, _ => .ok []
  | left + 1, index =>
    match readEntry page index with
    | .error e => .error e
    | .ok (existingKey, existingValue) =>
      match collectValues page key left (index + 1) with
      | .error e => .error e
      | .ok values => .ok (if existingKey = key then existingValue :: values else values)

/-- `HashIndexBucketPage::GetValue`. -/
def getValue (page : Page) (key : Bytes) : Except Status (List RecordID) :=
  match validateKey key with
  | .error e => .error e
  | .ok () =>
    if !isInitialized page then .error (.ioError "Hash bucket page is not initialized")
    else
      match collectValues page key (getEntryCount page) 0 with
      | .error e => .error e
      | .ok [] => .error (.notFound "Hash key was not found in bucket")
      | .ok values => .ok values

/-- The entry `index` is removed: the last entry takes its place. -/
def removeEntry (page : Page) (index lastIndex : Nat) : Except Status Unit × Page :=
  if index = lastIndex then (.ok (), clearEntry page lastIndex)
  else
    match readEntry page lastIndex with
    | .error e => (.error e, page)
    | .ok (lastKey, lastValue) =>
      match writeEntry page index lastKey lastValue with
      | (.error e, page) => (.error e, page)
      | (.ok (), page) => (.ok (), clearEntry page lastIndex)

/-- Whether an entry is to be removed: its key, and its `RecordID` if one is given. -/
def Matches (key : Bytes) (value : Option RecordID) (e : Entry) : Prop :=
  e.1 = key ∧ ∀ v ∈ value, e.2 = v

instance (key : Bytes) (value : Option RecordID) (e : Entry) : Decidable (Matches key value e) :=
  inferInstanceAs (Decidable (_ ∧ _))

/-- The loop of `Remove` from `index` on; the entry count is `index` plus the number of entries
left. The result is the new entry count and the number of entries removed. -/
def removeLoop (key : Bytes) (value : Option RecordID) :
    Nat → Page → Nat → Nat → Except Status (Nat × Nat) × Page
  | 0, page, index, removed => (.ok (index, removed), page)
  | left + 1, page, index, removed =>
    match readEntry page index with
    | .error e => (.error e, page)
    | .ok existing =>
      if ¬ Matches key value existing then removeLoop key value left page (index + 1) removed
      else
        let lastIndex := index + left
        match removeEntry page index lastIndex with
        | (.error e, page) => (.error e, page)
        | (.ok (), page) =>
          if value.isSome then (.ok (lastIndex, removed + 1), page)
          else removeLoop key value left page index (removed + 1)

/-- `HashIndexBucketPage::Remove`. The result is the number of entries removed. -/
def remove (page : Page) (key : Bytes) (value : Option RecordID) : Except Status Nat × Page :=
  match validateKey key with
  | .error e => (.error e, page)
  | .ok () =>
    if !isInitialized page then (.error (.ioError "Hash bucket page is not initialized"), page)
    else
      match removeLoop key value (getEntryCount page) page 0 0 with
      | (.error e, page) => (.error e, page)
      | (.ok (entryCount, removed), page) =>
        if removed = 0 then (.error (.notFound "Hash key/RID entry was not found"), page)
        else
          (.ok removed, { page with data := page.data.writeNat 4 2 entryCount, isDirty := true })

end HashIndexBucketPage

end MiniDbms
