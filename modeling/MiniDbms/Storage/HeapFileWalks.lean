import MiniDbms.Buffer.FileBounds
import MiniDbms.Storage.HeapFile

/-!
# The walks of a heap file

The loops of `InsertRecord`, `ContainsPage` and `FindRecordFrom` are walks along the next page ids
(`insertLoop_eq`, `containsLoop_eq`, `findLoop_eq`), whose rounds are proper: each ends, and goes on
only from a page of the file.
-/

namespace MiniDbms

open Lib PagedProgram Program LinkWalk

namespace HeapFile

variable {seen : List PageId} {grown : Bool}

/-! ## `InsertRecord` -/

/-- The body of the loop of `InsertRecord`. -/
def insertRound (record : Bytes) (current : PageId) :
    Program (Round PageId Unit (Except Status RecordID)) := do
  let some (f, data) ← fetchPage current
    | return .stop (.error (.ioError "Could not fetch HeapFile page"))
  let (status, page) := initIfNeeded (Page.view current data)
  match status with
  | .error e =>
    let _ ← unpinPage current false
    return .stop (.error e)
  | .ok () =>
  let (status, page) := SlottedPage.insertRecord page record
  writePage f page
  match status with
  | .ok slotId =>
    let .true ← unpinPage current true
      | return .stop (.error (.ioError "Could not unpin modified HeapFile page"))
    return .stop (.ok ⟨current, slotId⟩)
  | .error e =>
    let next := SlottedPage.getNextPageId page
    let .true ← unpinPage current false
      | return .stop (.error (.ioError "Could not unpin HeapFile page"))
    if e.code ≠ .outOfMemory then return .stop (.error e)
    else if next ≠ invalidPageId then return .go next ()
    else return .stop (← appendNewPage current record)

/-- The loop of `InsertRecord`. -/
def insertWalk (record : Bytes) :
    LinkWalk PageId FrameId PageData Unit (Except Status RecordID) where
  last := invalidPageId
  ended _ _ := .error (.ioError "HeapFile page chain ended unexpectedly")
  cycle := .error (.ioError "Cycle detected in HeapFile page chain")
  round current _ := insertRound record current

theorem insertLoop_eq (record : Bytes) :
    ∀ (fuel : Nat) (visited : List PageId) (current : PageId) (s : Unit),
      insertLoop record fuel visited current = (insertWalk record).loop fuel visited current s := by
  apply eq_loop (fun _ _ _ => rfl) (fun _ _ _ _ => rfl)
  intro fuel visited current s
  show Continues _ (insertRound record current) _
  unfold insertRound
  apply continues_fetchPage (continues_stop _)
  intro f data
  dsimp only
  rcases initIfNeeded (Page.view current data) with ⟨e | _, page⟩
  · apply continues_unpinPage <;> exact continues_stop _
  dsimp only
  rcases SlottedPage.insertRecord page record with ⟨e | slotId, page⟩
  · apply continues_putPage
    apply continues_unpinPage (continues_stop _)
    apply continues_ite (continues_stop _)
    apply continues_ite (continues_go _ _)
    exact continues_stopWith _
  · apply continues_putPage
    exact continues_unpinPage (continues_stop _) (continues_stop _)

theorem ends_appendNewPage (previousPageId : PageId) (record : Bytes) :
    (appendNewPage previousPageId record).Ends (fun _ _ _ => True) seen grown := by
  unfold appendNewPage
  apply ends_newPage
  · exact trivial
  intro p f data
  dsimp only
  rcases SlottedPage.init (Page.view p data) with ⟨e | _, page⟩
  · apply ends_putPage
    apply ends_unpinPage <;> apply ends_deletePage <;> exact trivial
  apply ends_putPage
  dsimp only
  rcases SlottedPage.insertRecord page record with ⟨e | slotId, page⟩
  · apply ends_putPage
    apply ends_unpinPage <;> apply ends_deletePage <;> exact trivial
  apply ends_putPage
  apply ends_unpinPage
  · exact trivial
  apply ends_fetchPage
  · apply ends_deletePage <;> exact trivial
  intro f data
  dsimp only
  apply ends_ite
  · apply ends_unpinPage <;> apply ends_deletePage <;> exact trivial
  rcases SlottedPage.setNextPageId (Page.view previousPageId data) p with ⟨e | _, page⟩
  · apply ends_putPage
    apply ends_unpinPage
    · exact trivial
    apply ends_deletePage <;> exact trivial
  · apply ends_putPage
    apply ends_unpinPage <;> exact trivial

theorem proper_insertWalk (record : Bytes) : (insertWalk record).Proper := by
  intro current s
  show (insertRound record current).Ends _ _ _
  unfold insertRound
  apply ends_fetchPage
  · exact trivial
  intro f data
  dsimp only
  rcases initIfNeeded (Page.view current data) with ⟨e | _, page⟩
  · apply ends_unpinPage <;> exact trivial
  dsimp only
  rcases SlottedPage.insertRecord page record with ⟨e | slotId, page⟩
  · apply ends_putPage
    apply ends_unpinPage
    · exact trivial
    apply ends_ite
    · exact trivial
    apply ends_ite
    · exact ⟨List.mem_cons_self, rfl⟩
    apply ends_bind
    exact (ends_appendNewPage current record).mono fun _ _ _ _ => trivial
  · apply ends_putPage
    apply ends_unpinPage <;> exact trivial

/-! ## `ContainsPage` -/

/-- The body of the loop of `ContainsPage`. -/
def containsRound (pageId current : PageId) : Program (Round PageId Unit (Except Status Bool)) :=
  if current = pageId then return .stop (.ok true)
  else do
    let some (_, data) ← fetchPage current
      | return .stop (.error (.ioError "Could not fetch HeapFile page while validating ownership"))
    let page := Page.view current data
    if !SlottedPage.isInitialized page then
      let _ ← unpinPage current false
      return .stop (.error (.ioError "HeapFile contains an uninitialized page"))
    else
    let .true ← unpinPage current false
      | return .stop (.error (.ioError "Could not unpin HeapFile page while validating ownership"))
    return .go (SlottedPage.getNextPageId page) ()

/-- The loop of `ContainsPage`. -/
def containsWalk (pageId : PageId) :
    LinkWalk PageId FrameId PageData Unit (Except Status Bool) where
  last := invalidPageId
  ended _ _ := .ok false
  cycle := .error (.ioError "Cycle detected in HeapFile page chain")
  round current _ := containsRound pageId current

theorem containsLoop_eq (pageId : PageId) :
    ∀ (fuel : Nat) (visited : List PageId) (current : PageId) (s : Unit),
      containsLoop pageId fuel visited current =
        (containsWalk pageId).loop fuel visited current s := by
  apply eq_loop (fun _ _ _ => rfl) (fun _ _ _ _ => rfl)
  intro fuel visited current s
  show Continues _ (containsRound pageId current) _
  unfold containsRound
  apply continues_ite (continues_stop _)
  apply continues_fetchPage (continues_stop _)
  intro f data
  apply continues_ite
  · apply continues_unpinPage <;> exact continues_stop _
  · exact continues_unpinPage (continues_stop _) (continues_go _ _)

theorem proper_containsWalk (pageId : PageId) : (containsWalk pageId).Proper := by
  intro current s
  show (containsRound pageId current).Ends _ _ _
  unfold containsRound
  apply ends_ite
  · exact trivial
  apply ends_fetchPage
  · exact trivial
  intro f data
  apply ends_ite
  · apply ends_unpinPage <;> exact trivial
  apply ends_unpinPage
  · exact trivial
  · exact ⟨List.mem_cons_self, rfl⟩

/-! ## `FindRecordFrom` -/

/-- The body of the loop of `FindRecordFrom`. -/
def findRound (current : PageId) (firstSlot : Nat) :
    Program (Round PageId Nat (Except Status Record)) := do
  let some (_, data) ← fetchPage current
    | return .stop (.error (.ioError "Could not fetch HeapFile page while scanning"))
  let page := Page.view current data
  if !SlottedPage.isInitialized page then
    let _ ← unpinPage current false
    return .stop (.error (.ioError "HeapFile contains an uninitialized page"))
  else
  match findInPage page (SlottedPage.getSlotCount page - firstSlot) firstSlot with
  | some (.ok record) =>
    let .true ← unpinPage current false
      | return .stop (.error (.ioError "Could not unpin scanned HeapFile page"))
    return .stop (.ok record)
  | some (.error e) =>
    let _ ← unpinPage current false
    return .stop (.error e)
  | none =>
    let .true ← unpinPage current false
      | return .stop (.error (.ioError "Could not unpin scanned HeapFile page"))
    return .go (SlottedPage.getNextPageId page) 0

/-- The loop of `FindRecordFrom`. -/
def findWalk : LinkWalk PageId FrameId PageData Nat (Except Status Record) where
  last := invalidPageId
  ended _ _ := .error (.notFound "No more records in HeapFile")
  cycle := .error (.ioError "Cycle detected in HeapFile page chain")
  round := findRound

theorem findLoop_eq : ∀ (fuel : Nat) (visited : List PageId) (current : PageId) (firstSlot : Nat),
    findLoop fuel visited current firstSlot = findWalk.loop fuel visited current firstSlot := by
  apply eq_loop (fun _ _ _ => rfl) (fun _ _ _ _ => rfl)
  intro fuel visited current firstSlot
  show Continues _ (findRound current firstSlot) _
  unfold findRound
  apply continues_fetchPage (continues_stop _)
  intro f data
  apply continues_ite
  · apply continues_unpinPage <;> exact continues_stop _
  rcases findInPage (Page.view current data)
    (SlottedPage.getSlotCount (Page.view current data) - firstSlot) firstSlot with _ | e | record
  · exact continues_unpinPage (continues_stop _) (continues_go _ _)
  · apply continues_unpinPage <;> exact continues_stop _
  · apply continues_unpinPage <;> exact continues_stop _

theorem proper_findWalk : findWalk.Proper := by
  intro current firstSlot
  show (findRound current firstSlot).Ends _ _ _
  unfold findRound
  apply ends_fetchPage
  · exact trivial
  intro f data
  apply ends_ite
  · apply ends_unpinPage <;> exact trivial
  rcases findInPage (Page.view current data)
    (SlottedPage.getSlotCount (Page.view current data) - firstSlot) firstSlot with _ | e | record
  · apply ends_unpinPage
    · exact trivial
    · exact ⟨List.mem_cons_self, rfl⟩
  · apply ends_unpinPage <;> exact trivial
  · apply ends_unpinPage <;> exact trivial

end HeapFile

end MiniDbms
