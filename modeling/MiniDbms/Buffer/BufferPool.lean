import MiniDbms.Storage.DiskManager
import MiniDbms.Buffer.ClockReplacer
import Mathlib.Data.List.AList

/-!
# The buffer pool manager

`Page` of `storage/page.h` and `BufferPoolManager` of `buffer/buffer_pool_manager.cpp`. A
`Page*` into the pool is the number of its frame; `none` is the null pointer.

`FetchPage` and `NewPage` share their way of getting a frame (`takeFrame`), of giving it
back after a failure (`giveBack`), of saving the page in it (`writeBack`) and of putting a
page into it (`install`).
-/

namespace MiniDbms

open Lib

/-- `class Page`: the bytes in memory and their bookkeeping. -/
structure Page where
  data : PageData := Image.zero
  pageId : PageId := invalidPageId
  pinCount : Nat := 0
  isDirty : Bool := false

/-- `Page::ResetMemory`. -/
def Page.resetMemory (_ : Page) : Page := {}

structure BufferPoolManager where
  poolSize : Nat
  disk : DiskManager
  replacer : ClockReplacer
  pages : FrameId → Page
  pageTable : AList fun _ : PageId => FrameId
  freeList : List FrameId
  bufferHits : Nat := 0
  bufferMisses : Nat := 0
  diskReads : Nat := 0
  diskWrites : Nat := 0

namespace BufferPoolManager

/-- The constructor, with a clock replacer of the same size. -/
def new (poolSize : Nat) (disk : DiskManager) : BufferPoolManager where
  poolSize := poolSize
  disk := disk
  replacer := ClockReplacer.new poolSize
  pages _ := {}
  pageTable := ∅
  freeList := List.range poolSize

/-- `page_table_.find(p)`. -/
def frameOf (w : BufferPoolManager) (p : PageId) : Option FrameId := w.pageTable.lookup p

/-- The frame `f` gets the contents `page`. -/
def setFrame (w : BufferPoolManager) (f : FrameId) (page : Page) : BufferPoolManager :=
  { w with pages := Function.update w.pages f page }

/-- A frame from the free list, else a victim of the replacer. The flag is `came_from_free_list`. -/
def takeFrame (w : BufferPoolManager) : Option (FrameId × Bool) × BufferPoolManager :=
  match w.freeList with
  | f :: rest => (some (f, true), { w with freeList := rest })
  | [] =>
    match w.replacer.victim with
    | (some f, r) => (some (f, false), { w with replacer := r })
    | (none, r) => (none, { w with replacer := r })

/-- The frame goes back to where `takeFrame` found it. -/
def giveBack (w : BufferPoolManager) (f : FrameId) (cameFromFreeList : Bool) : BufferPoolManager :=
  if cameFromFreeList then { w with freeList := f :: w.freeList }
  else { w with replacer := w.replacer.unpin f }

/-- A dirty page in a victim frame is written to disk. -/
def writeBack (w : BufferPoolManager) (f : FrameId) (cameFromFreeList : Bool) :
    Except Status Unit × BufferPoolManager :=
  if cameFromFreeList = false ∧ (w.pages f).isDirty then
    match w.disk.writePage (w.pages f).pageId (w.pages f).data with
    | (.ok (), d) => (.ok (), { w with disk := d, diskWrites := w.diskWrites + 1 })
    | (.error e, d) => (.error e, { w with disk := d })
  else (.ok (), w)

/-- The page in a victim frame leaves the page table. -/
def unmap (w : BufferPoolManager) (f : FrameId) (cameFromFreeList : Bool) : BufferPoolManager :=
  if cameFromFreeList then w
  else { w with pageTable := w.pageTable.erase (w.pages f).pageId }

/-- The page `p` with the bytes `data` is put into the frame and pinned once. -/
def install (w : BufferPoolManager) (f : FrameId) (p : PageId) (data : PageData) :
    BufferPoolManager :=
  { w with
    pages := Function.update w.pages f
      { data := data, pageId := p, pinCount := 1, isDirty := false }
    pageTable := w.pageTable.insert p f
    replacer := w.replacer.pin f }

/-- The branch of `FetchPage` for a page that is in the pool. -/
def fetchHit (w : BufferPoolManager) (f : FrameId) : Option FrameId × BufferPoolManager :=
  (some f,
    { w.setFrame f { w.pages f with pinCount := (w.pages f).pinCount + 1 } with
      replacer := w.replacer.pin f
      bufferHits := w.bufferHits + 1 })

/-- The branch of `FetchPage` for a page that is not in the pool. -/
def fetchMiss (w : BufferPoolManager) (p : PageId) : Option FrameId × BufferPoolManager :=
  match takeFrame { w with bufferMisses := w.bufferMisses + 1 } with
  | (none, w) => (none, w)
  | (some (f, fromFree), w) =>
    match w.disk.readPage p with
    | (.error _, d) => (none, giveBack { w with disk := d } f fromFree)
    | (.ok data, d) =>
      match writeBack { w with disk := d, diskReads := w.diskReads + 1 } f fromFree with
      | (.error _, w) => (none, w.giveBack f fromFree)
      | (.ok (), w) => (some f, (w.unmap f fromFree).install f p data)

/-- `BufferPoolManager::FetchPage`. -/
def fetchPage (w : BufferPoolManager) (p : PageId) : Option FrameId × BufferPoolManager :=
  if p.toInt < 0 then (none, w)
  else
    match w.frameOf p with
    | some f => w.fetchHit f
    | none => w.fetchMiss p

/-- `BufferPoolManager::UnpinPage`. -/
def unpinPage (w : BufferPoolManager) (p : PageId) (isDirty : Bool) : Bool × BufferPoolManager :=
  match w.frameOf p with
  | none => (false, w)
  | some f =>
    if (w.pages f).pinCount = 0 then (false, w)
    else
      let page := { w.pages f with
        pinCount := (w.pages f).pinCount - 1
        isDirty := (w.pages f).isDirty || isDirty }
      (true,
        if page.pinCount = 0 then { w.setFrame f page with replacer := w.replacer.unpin f }
        else w.setFrame f page)

/-- `BufferPoolManager::FlushPage`. -/
def flushPage (w : BufferPoolManager) (p : PageId) : Bool × BufferPoolManager :=
  match w.frameOf p with
  | none => (false, w)
  | some f =>
    if (w.pages f).isDirty then
      match w.disk.writePage p (w.pages f).data with
      | (.ok (), d) =>
        (true, { w.setFrame f { w.pages f with isDirty := false } with
          disk := d
          diskWrites := w.diskWrites + 1 })
      | (.error _, d) => (false, { w with disk := d })
    else (true, w)

/-- `BufferPoolManager::NewPage`: the id of the new page and its frame. -/
def newPage (w : BufferPoolManager) : Option (PageId × FrameId) × BufferPoolManager :=
  match takeFrame w with
  | (none, w) => (none, w)
  | (some (f, fromFree), w) =>
    match w.writeBack f fromFree with
    | (.error _, w) => (none, w.giveBack f fromFree)
    | (.ok (), w) =>
      match w.disk.allocatePage with
      | (none, d) => (none, giveBack { w with disk := d } f fromFree)
      | (some p, d) =>
        -- the allocation has written an empty page
        (some (p, f),
          (unmap { w with disk := d, diskWrites := w.diskWrites + 1 } f fromFree).install f p
            Image.zero)

/-- `BufferPoolManager::DeletePage`. -/
def deletePage (w : BufferPoolManager) (p : PageId) : Bool × BufferPoolManager :=
  if p.toInt ≤ 0 then (false, w)
  else
    match w.frameOf p with
    | some f =>
      if 0 < (w.pages f).pinCount then (false, w)
      else
        (true, { w.setFrame f (w.pages f).resetMemory with
          replacer := w.replacer.pin f
          pageTable := w.pageTable.erase p
          freeList := w.freeList ++ [f]
          disk := w.disk.deallocatePage p })
    | none => (true, { w with disk := w.disk.deallocatePage p })

/-- One turn of the loop of `FlushAllPages`. -/
def flushEntry (w : BufferPoolManager) (p : PageId) (f : FrameId) : BufferPoolManager :=
  if (w.pages f).isDirty then
    match w.disk.writePage p (w.pages f).data with
    | (.ok (), d) =>
      { w.setFrame f { w.pages f with isDirty := false } with
        disk := d
        diskWrites := w.diskWrites + 1 }
    | (.error _, d) => { w with disk := d }
  else w

/-- `BufferPoolManager::FlushAllPages`; the destructor calls it too. -/
def flushAllPages (w : BufferPoolManager) : BufferPoolManager :=
  w.pageTable.entries.foldl (fun w e => w.flushEntry e.1 e.2) w

end BufferPoolManager

end MiniDbms
