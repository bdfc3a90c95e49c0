import MiniDbms.Buffer.Programs
import MiniDbms.Index.BucketPage
import MiniDbms.Index.HeaderPage

/-!
# Hash indexes

`HashIndex` of `index/hash_index.cpp`: a header page with a directory of buckets, each a
chain of bucket pages that is created with its first entry. An index is given by the id of
its header page. The loops over a chain keep the set of visited pages.
-/

namespace MiniDbms

open Lib PagedProgram Program

namespace HashIndex

/-- `DEFAULT_BUCKET_COUNT`. -/
def defaultBucketCount : Nat := 64

/-- `HashIndex::StableHash`: FNV-1a. -/
def stableHash (key : Bytes) : UInt64 :=
  key.foldl (fun hash byte => (hash ^^^ byte.toUInt64) * 1099511628211) 14695981039346656037

/-- `HashIndex::Create`. -/
def create (bucketCount : Nat) : Program (Except Status PageId) := do
  if bucketCount = 0 ∨ HashIndexHeaderPage.maxBucketCount < bucketCount then
    return .error (.invalidArgument "Invalid hash index bucket count")
  else
  let some (headerPageId, f, data) ← newPage
    | return .error (.outOfMemory "Could not allocate hash index header page")
  let (status, page) := HashIndexHeaderPage.init (Page.view headerPageId data) bucketCount
    HashIndexBucketPage.maxKeyLength
  writePage f page
  let .true ← unpinPage headerPageId status.isOk
    | return .error (.ioError "Could not unpin hash index header page")
  match status with
  | .error e =>
    let _ ← deletePage headerPageId
    return .error e
  | .ok () => return .ok headerPageId

/-- `HashIndex::ValidateHeader`; the result is the bucket count. -/
def validateHeader (header : PageId) : Program (Except Status Nat) := do
  let some (_, data) ← fetchPage header
    | return .error (.ioError "Could not fetch hash index header page")
  let page := Page.view header data
  let .true ← unpinPage header false
    | return .error (.ioError "Could not unpin hash index header page")
  if HashIndexHeaderPage.isInitialized page = false ∨
      HashIndexHeaderPage.getMaxKeyLength page ≠ HashIndexBucketPage.maxKeyLength then
    return .error (.ioError "Invalid or incompatible hash index header page")
  else return .ok (HashIndexHeaderPage.getBucketCount page)

/-- `HashIndex::Open`. -/
def openIndex (header : PageId) : Program (Except Status PageId) := do
  if header.toInt ≤ headerPageId.toInt then
    return .error (.invalidArgument "Invalid hash index header page id")
  else
    match ← validateHeader header with
    | .error e => return .error e
    | .ok _ => return .ok header

/-- The bucket of a key in an index with the given number of buckets. -/
def bucketOf (bucketCount : Nat) (key : Bytes) : Nat := (stableHash key).toNat % bucketCount

/-- `HashIndex::GetBucketPageId`: the bucket of the key and its first page. -/
def getBucketPageId (header : PageId) (key : Bytes) : Program (Except Status (Nat × PageId)) := do
  if HashIndexBucketPage.maxKeyLength < key.length then
    return .error (.invalidArgument "Hash index key exceeds maximum length")
  else
  let some (_, data) ← fetchPage header
    | return .error (.ioError "Could not fetch hash index header page")
  let page := Page.view header data
  let .true ← unpinPage header false
    | return .error (.ioError "Could not unpin hash index header page")
  if !HashIndexHeaderPage.isInitialized page then
    return .error (.ioError "Hash index header page is not initialized")
  else
    let bucketIndex := bucketOf (HashIndexHeaderPage.getBucketCount page) key
    match HashIndexHeaderPage.getBucketPageId page bucketIndex with
    | .error e => return .error e
    | .ok bucketPageId => return .ok (bucketIndex, bucketPageId)

/-- `Init` and the first `Insert` of a new bucket page. -/
def fillBucket (page : Page) (key : Bytes) (value : RecordID) : Except Status Unit × Page :=
  match HashIndexBucketPage.init page with
  | (.error e, page) => (.error e, page)
  | (.ok (), page) =>
    match HashIndexBucketPage.insert page key value with
    | (.error e, page) => (.error e, page)
    | (.ok _, page) => (.ok (), page)

/-- The first half of `CreatePrimaryBucket` and `AppendOverflowBucket`: a new bucket page with one
entry. -/
def newBucket (key : Bytes) (value : RecordID) (allocError unpinError : String) :
    Program (Except Status PageId) := do
  let some (newBucketPageId, f, data) ← newPage
    | return .error (.outOfMemory allocError)
  let (status, page) := fillBucket (Page.view newBucketPageId data) key value
  writePage f page
  let .true ← unpinPage newBucketPageId status.isOk
    | return .error (.ioError unpinError)
  match status with
  | .error e =>
    let _ ← deletePage newBucketPageId
    return .error e
  | .ok () => return .ok newBucketPageId

/-- The second half of `CreatePrimaryBucket` and `AppendOverflowBucket`: the page `pageId` is linked
to the new bucket page, which is deleted if that fails. -/
def linkBucket (pageId newBucketPageId : PageId) (link : Page → Except Status Unit × Page)
    (fetchError unpinError : String) : Program (Except Status Unit) := do
  let some (f, data) ← fetchPage pageId
    | do
      let _ ← deletePage newBucketPageId
      return .error (.ioError fetchError)
  let (status, page) := link (Page.view pageId data)
  writePage f page
  let .true ← unpinPage pageId status.isOk
    | return .error (.ioError unpinError)
  match status with
  | .error e =>
    let _ ← deletePage newBucketPageId
    return .error e
  | .ok () => return .ok ()

/-- How `CreatePrimaryBucket` changes the header page. -/
def linkPrimary (bucketIndex : Nat) (newBucketPageId : PageId) (page : Page) :
    Except Status Unit × Page :=
  match HashIndexHeaderPage.getBucketPageId page bucketIndex with
  | .error e => (.error e, page)
  | .ok existing =>
    if existing ≠ invalidPageId then
      (.error (.ioError "Hash bucket was initialized concurrently"), page)
    else HashIndexHeaderPage.setBucketPageId page bucketIndex newBucketPageId

/-- `HashIndex::CreatePrimaryBucket`. -/
def createPrimaryBucket (header : PageId) (bucketIndex : Nat) (key : Bytes) (value : RecordID) :
    Program (Except Status Unit) := do
  match ← newBucket key value "Could not allocate primary hash bucket"
    "Could not unpin new primary hash bucket" with
  | .error e => return .error e
  | .ok newBucketPageId =>
    linkBucket header newBucketPageId (linkPrimary bucketIndex newBucketPageId)
      "Could not refetch hash index header page" "Could not unpin modified hash index header"

/-- How `AppendOverflowBucket` changes the last page of a chain. -/
def linkOverflow (newBucketPageId : PageId) (page : Page) : Except Status Unit × Page :=
  if !HashIndexBucketPage.isInitialized page then
    (.error (.ioError "Previous hash bucket is not initialized"), page)
  else if HashIndexBucketPage.getOverflowPageId page ≠ invalidPageId then
    (.error (.ioError "Overflow bucket was linked concurrently"), page)
  else HashIndexBucketPage.setOverflowPageId page newBucketPageId

/-- `HashIndex::AppendOverflowBucket`. -/
def appendOverflowBucket (previousBucketPageId : PageId) (key : Bytes) (value : RecordID) :
    Program (Except Status Unit) := do
  match ← newBucket key value "Could not allocate overflow hash bucket"
    "Could not unpin new overflow hash bucket" with
  | .error e => return .error e
  | .ok newBucketPageId =>
    linkBucket previousBucketPageId newBucketPageId (linkOverflow newBucketPageId)
      "Could not refetch previous hash bucket" "Could not unpin previous hash bucket"

/-- The loop of `HashIndex::Insert`: nothing if the pair is there already, else the first page with
space and the last page of the chain. -/
def insertLoop (key : Bytes) (value : RecordID) :
    Nat → List PageId → PageId → PageId → PageId →
    Program (Except Status (Option (PageId × PageId)))
  | 0, _, _, _, _ => .diverge
  | fuel + 1, visited, current, firstPageWithSpace, lastPageId =>
    if current = invalidPageId then return .ok (some (firstPageWithSpace, lastPageId))
    else if current ∈ visited then
      return .error (.ioError "Cycle detected in hash bucket chain")
    else do
      let some (_, data) ← fetchPage current
        | return .error (.ioError "Could not fetch hash bucket")
      let bucket := Page.view current data
      if !HashIndexBucketPage.isInitialized bucket then
        let _ ← unpinPage current false
        return .error (.ioError "Hash bucket page is not initialized")
      else
      match HashIndexBucketPage.getValue bucket key with
      | .error e =>
        if e.code ≠ .notFound then
          let _ ← unpinPage current false
          return .error e
        else
        let .true ← unpinPage current false
          | return .error (.ioError "Could not unpin hash bucket")
        insertLoop key value fuel (current :: visited)
          (HashIndexBucketPage.getOverflowPageId bucket)
          (pageWithSpace bucket firstPageWithSpace) current
      | .ok valuesForKey =>
        let .true ← unpinPage current false
          | return .error (.ioError "Could not unpin hash bucket")
        if value ∈ valuesForKey then return .ok none
        else
          insertLoop key value fuel (current :: visited)
            (HashIndexBucketPage.getOverflowPageId bucket)
            (pageWithSpace bucket firstPageWithSpace) current
where
  /-- `first_page_with_space` after the page was seen. -/
  pageWithSpace (bucket : Page) (firstPageWithSpace : PageId) : PageId :=
    if firstPageWithSpace = invalidPageId ∧
        HashIndexBucketPage.getEntryCount bucket < HashIndexBucketPage.entryCapacity then
      bucket.pageId
    else firstPageWithSpace

/-- The end of `HashIndex::Insert`: the pair goes into a page that has space. -/
def insertIntoPage (pageId : PageId) (key : Bytes) (value : RecordID) :
    Program (Except Status Unit) := do
  let some (f, data) ← fetchPage pageId
    | return .error (.ioError "Could not refetch hash bucket with free space")
  let (status, page) := HashIndexBucketPage.insert (Page.view pageId data) key value
  writePage f page
  match status with
  | .error e =>
    let .true ← unpinPage pageId false
      | return .error (.ioError "Could not unpin modified hash bucket")
    return .error e
  | .ok inserted =>
    let .true ← unpinPage pageId inserted
      | return .error (.ioError "Could not unpin modified hash bucket")
    return .ok ()

/-- `HashIndex::Insert`. -/
def insert (header : PageId) (key : Bytes) (value : RecordID) : Program (Except Status Unit) := do
  if key = [] then return .error (.invalidArgument "Hash index key cannot be empty")
  else if value.pageId.toInt ≤ headerPageId.toInt then
    return .error (.invalidArgument "Hash index requires a valid RecordID")
  else
  match ← getBucketPageId header key with
  | .error e => return .error e
  | .ok (bucketIndex, bucketPageId) =>
    if bucketPageId = invalidPageId then createPrimaryBucket header bucketIndex key value
    else
      match ← insertLoop key value chainFuel [] bucketPageId invalidPageId invalidPageId with
      | .error e => return .error e
      | .ok none => return .ok ()
      | .ok (some (firstPageWithSpace, lastPageId)) =>
        if firstPageWithSpace ≠ invalidPageId then insertIntoPage firstPageWithSpace key value
        else if lastPageId = invalidPageId then
          return .error (.ioError "Hash bucket chain ended unexpectedly")
        else appendOverflowBucket lastPageId key value

/-- The loop of `HashIndex::GetValue`, with the values found so far. -/
def getValueLoop (key : Bytes) :
    Nat → List PageId → PageId → List RecordID → Program (Except Status (List RecordID))
  | 0, _, _, _ => .diverge
  | fuel + 1, visited, current, result =>
    if current = invalidPageId then return .ok result
    else if current ∈ visited then
      return .error (.ioError "Cycle detected in hash bucket chain")
    else do
      let some (_, data) ← fetchPage current
        | return .error (.ioError "Could not fetch hash bucket")
      let bucket := Page.view current data
      if !HashIndexBucketPage.isInitialized bucket then
        let _ ← unpinPage current false
        return .error (.ioError "Hash bucket page is not initialized")
      else
      let .true ← unpinPage current false
        | return .error (.ioError "Could not unpin hash bucket after search")
      match HashIndexBucketPage.getValue bucket key with
      | .error e =>
        if e.code ≠ .notFound then return .error e
        else
          getValueLoop key fuel (current :: visited) (HashIndexBucketPage.getOverflowPageId bucket)
            result
      | .ok values =>
        getValueLoop key fuel (current :: visited) (HashIndexBucketPage.getOverflowPageId bucket)
          (result ++ values)

/-- `HashIndex::GetValue`. -/
def getValue (header : PageId) (key : Bytes) : Program (Except Status (List RecordID)) := do
  match ← getBucketPageId header key with
  | .error e => return .error e
  | .ok (_, bucketPageId) => getValueLoop key chainFuel [] bucketPageId []

/-- The loop of `RemoveInternal`, with the number of entries removed so far. -/
def removeLoop (key : Bytes) (value : Option RecordID) :
    Nat → List PageId → PageId → Nat → Program (Except Status Nat)
  | 0, _, _, _ => .diverge
  | fuel + 1, visited, current, totalRemoved =>
    if current = invalidPageId then return .ok totalRemoved
    else if current ∈ visited then
      return .error (.ioError "Cycle detected in hash bucket chain")
    else do
      let some (f, data) ← fetchPage current
        | return .error (.ioError "Could not fetch hash bucket")
      let bucket := Page.view current data
      if !HashIndexBucketPage.isInitialized bucket then
        let _ ← unpinPage current false
        return .error (.ioError "Hash bucket page is not initialized")
      else
      let (status, bucket) := HashIndexBucketPage.remove bucket key value
      writePage f bucket
      let overflowPageId := HashIndexBucketPage.getOverflowPageId bucket
      match status with
      | .error e =>
        let .true ← unpinPage current false
          | return .error (.ioError "Could not unpin hash bucket after removal")
        if e.code ≠ .notFound then return .error e
        else removeNext fuel (current :: visited) overflowPageId totalRemoved
      | .ok removedHere =>
        let .true ← unpinPage current (decide (0 < removedHere))
          | return .error (.ioError "Could not unpin hash bucket after removal")
        removeNext fuel (current :: visited) overflowPageId (totalRemoved + removedHere)
where
  /-- The end of the body: one pair is removed at most once. -/
  removeNext (fuel : Nat) (visited : List PageId) (overflowPageId : PageId) (totalRemoved : Nat) :
      Program (Except Status Nat) :=
    if value.isSome ∧ 0 < totalRemoved then return .ok totalRemoved
    else removeLoop key value fuel visited overflowPageId totalRemoved

/-- `HashIndex::RemoveInternal`: both `Remove(key)` and `Remove(key, value)`. -/
def remove (header : PageId) (key : Bytes) (value : Option RecordID) :
    Program (Except Status Unit) := do
  match ← getBucketPageId header key with
  | .error e => return .error e
  | .ok (_, bucketPageId) =>
    if bucketPageId = invalidPageId then return .error (.notFound "Hash key was not found")
    else
      match ← removeLoop key value chainFuel [] bucketPageId 0 with
      | .error e => return .error e
      | .ok totalRemoved =>
        if totalRemoved = 0 then return .error (.notFound "Hash key/RID entry was not found")
        else return .ok ()

/-- The first loop of `Destroy`: the first pages of the buckets, with the number of buckets left. -/
def primaryBuckets (page : Page) : Nat → Nat → Except Status (List PageId)
  | 0, _ => .ok []
  | left + 1, index =>
    match HashIndexHeaderPage.getBucketPageId page index with
    | .error e => .error e
    | .ok bucketPageId =>
      match primaryBuckets page left (index + 1) with
      | .error e => .error e
      | .ok rest => .ok (if bucketPageId ≠ invalidPageId then bucketPageId :: rest else rest)

/-- The inner loop of the second loop of `Destroy`; the result is the set of visited pages. -/
def destroyChain : Nat → List PageId → PageId → Program (Except Status (List PageId))
  | 0, _, _ => .diverge
  | fuel + 1, visited, current =>
    if current = invalidPageId then return .ok visited
    else if current ∈ visited then
      return .error (.ioError "Cycle detected while destroying hash index")
    else do
      let some (_, data) ← fetchPage current
        | return .error (.ioError "Could not fetch hash bucket during destroy")
      let bucket := Page.view current data
      if !HashIndexBucketPage.isInitialized bucket then
        let _ ← unpinPage current false
        return .error (.ioError "Invalid hash bucket found during destroy")
      else
      let .true ← unpinPage current false
        | return .error (.ioError "Could not unpin hash bucket during destroy")
      let .true ← deletePage current
        | return .error (.ioError "Could not delete hash bucket during destroy")
      destroyChain fuel (current :: visited) (HashIndexBucketPage.getOverflowPageId bucket)

/-- The second loop of `Destroy`. -/
def destroyChains : List PageId → List PageId → Program (Except Status Unit)
  | [], _ => return .ok ()
  | primaryPageId :: rest, visited => do
    match ← destroyChain chainFuel visited primaryPageId with
    | .error e => return .error e
    | .ok visited => destroyChains rest visited

/-- `HashIndex::Destroy`. -/
def destroy (header : PageId) : Program (Except Status Unit) := do
  if header.toInt ≤ headerPageId.toInt then return .ok ()
  else
  let some (_, data) ← fetchPage header
    | return .error (.ioError "Could not fetch hash index header during destroy")
  let page := Page.view header data
  if !HashIndexHeaderPage.isInitialized page then
    let _ ← unpinPage header false
    return .error (.ioError "Cannot destroy an invalid hash index header")
  else
  let .true ← unpinPage header false
    | return .error (.ioError "Could not unpin hash index header during destroy")
  match primaryBuckets page (HashIndexHeaderPage.getBucketCount page) 0 with
  | .error e => return .error e
  | .ok primaryBuckets =>
    match ← destroyChains primaryBuckets [] with
    | .error e => return .error e
    | .ok () =>
      let .true ← deletePage header
        | return .error (.ioError "Could not delete hash index header")
      return .ok ()

end HashIndex

end MiniDbms
