import MiniDbms.Lib.FailedCalls
import MiniDbms.Storage.HeapFile

/-!
# Errors of heap files

A heap file operation in which a call has failed returns an error, and a scan one that is not
`NOT_FOUND`: it does not look like the end of the chain.
-/

namespace MiniDbms

open Lib PagedProgram Program

/-- The last call before an error. -/
theorem strict_unpinPage_return {α : Type} {p : PageId} {dirty : Bool} {a : α} {E : α → Prop} :
    PagedProgram.Strict E (unpinPage p dirty >>= fun _ => (pure a : Program α)) :=
  fun _ => trivial

/-- A page is freed on the way to an error. -/
theorem always_deletePage_error {α : Type} {p : PageId} {e : Status} :
    PagedProgram.Always IsError
      (deletePage p >>= fun _ => (pure (.error e) : Program (Except Status α))) :=
  fun _ => isError_error e

namespace HeapFile

theorem strict_appendNewPage (previous : PageId) (record : Bytes) :
    (appendNewPage previous record).Strict IsError := by
  unfold appendNewPage
  refine strict_newPage (isError_error _) fun p f d => ?_
  dsimp only
  refine strict_putPage ?_
  cases (SlottedPage.init (Page.view p d)).1 with
  | error e => exact fun _ => strict_of_always always_deletePage_error
  | ok =>
  refine strict_putPage ?_
  cases (SlottedPage.insertRecord (SlottedPage.init (Page.view p d)).2 record).1 with
  | error e => exact fun _ => strict_of_always always_deletePage_error
  | ok slot =>
  refine strict_unpinPage (strict_pure _) ?_
  refine strict_fetchPage always_deletePage_error fun f d => ?_
  refine strict_ite (fun _ => strict_of_always always_deletePage_error) ?_
  refine strict_putPage ?_
  cases (SlottedPage.setNextPageId (Page.view previous d) p).1 with
  | error e => exact strict_unpinPage (strict_pure _) (strict_of_always always_deletePage_error)
  | ok => exact strict_unpinPage (strict_pure _) (strict_pure _)

theorem strict_insertLoop (record : Bytes) : ∀ (fuel : Nat) (visited : List PageId)
    (current : PageId), (insertLoop record fuel visited current).Strict IsError := by
  intro fuel
  induction fuel with
  | zero => exact fun _ _ => trivial
  | succ fuel ih =>
    intro visited current
    rw [insertLoop]
    refine strict_ite (strict_pure _) (strict_ite (strict_pure _) ?_)
    refine strict_fetchPage (isError_error _) fun f d => ?_
    dsimp only
    cases (initIfNeeded (Page.view current d)).1 with
    | error e => exact strict_unpinPage_return
    | ok =>
    refine strict_putPage ?_
    cases (SlottedPage.insertRecord (initIfNeeded (Page.view current d)).2 record).1 with
    | ok slot => exact strict_unpinPage (strict_pure _) (strict_pure _)
    | error e =>
      refine strict_unpinPage (strict_pure _) ?_
      exact strict_ite (strict_pure _) (strict_ite (ih _ _) (strict_appendNewPage _ record))

theorem strict_insertRecord (firstPageId : PageId) (record : Bytes) :
    (insertRecord firstPageId record).Strict IsError :=
  strict_ite (strict_pure _) (strict_insertLoop record _ _ _)

theorem strict_getRecord (rid : RecordID) : (getRecord rid).Strict IsError := by
  refine strict_ite (strict_pure _) ?_
  refine strict_fetchPage (isError_error _) fun f d => ?_
  exact strict_unpinPage (strict_pure _) (strict_pure _)

theorem strict_changeRecord (rid : RecordID) (change : Page → Except Status Unit × Page)
    (unpinError : String) : (changeRecord rid change unpinError).Strict IsError := by
  refine strict_fetchPage (isError_error _) fun f d => ?_
  refine strict_putPage ?_
  exact strict_unpinPage (strict_pure _) (strict_pure _)

theorem strict_updateRecord (record : Record) : (updateRecord record).Strict IsError :=
  strict_ite (strict_pure _) (strict_ite (strict_pure _) (strict_changeRecord _ _ _))

theorem strict_deleteRecord (rid : RecordID) : (deleteRecord rid).Strict IsError :=
  strict_ite (strict_pure _) (strict_changeRecord _ _ _)

theorem strict_containsLoop (pageId : PageId) : ∀ (fuel : Nat) (visited : List PageId)
    (current : PageId), (containsLoop pageId fuel visited current).Strict IsError := by
  intro fuel
  induction fuel with
  | zero => exact fun _ _ => trivial
  | succ fuel ih =>
    intro visited current
    rw [containsLoop]
    refine strict_ite (strict_pure _) (strict_ite (strict_pure _) (strict_ite (strict_pure _) ?_))
    refine strict_fetchPage (isError_error _) fun f d => ?_
    exact strict_ite strict_unpinPage_return (strict_unpinPage (strict_pure _) (ih _ _))

theorem strict_containsPage (firstPageId pageId : PageId) :
    (containsPage firstPageId pageId).Strict IsError :=
  strict_ite (strict_pure _) (strict_containsLoop pageId _ _ _)

/-! ## Scans -/

/-- The scan has ended with an error. -/
def ScanFailed (r : Except Status Record) : Prop := ∃ e, r = .error e ∧ e.code ≠ .notFound

theorem strict_findLoop : ∀ (fuel : Nat) (visited : List PageId) (current : PageId)
    (firstSlot : Nat), (findLoop fuel visited current firstSlot).Strict ScanFailed := by
  intro fuel
  induction fuel with
  | zero => exact fun _ _ _ => trivial
  | succ fuel ih =>
    intro visited current firstSlot
    rw [findLoop]
    refine strict_ite (strict_pure _) (strict_ite (strict_pure _) ?_)
    refine strict_fetchPage ⟨_, rfl, fun h => by cases h⟩ fun f d => ?_
    refine strict_ite strict_unpinPage_return ?_
    rcases findInPage (Page.view current d)
      (SlottedPage.getSlotCount (Page.view current d) - firstSlot) firstSlot with _ | _ | record
    · exact strict_unpinPage (strict_pure _) (ih _ _ _)
    · exact strict_unpinPage_return
    · exact strict_unpinPage (strict_pure _) (strict_pure _)

theorem strict_getFirstRecord (firstPageId : PageId) :
    (getFirstRecord firstPageId).Strict ScanFailed :=
  strict_findLoop _ _ _ _

theorem strict_getNextRecord (rid : RecordID) : (getNextRecord rid).Strict ScanFailed :=
  strict_ite (strict_pure _) (strict_findLoop _ _ _ _)

end HeapFile

end MiniDbms
