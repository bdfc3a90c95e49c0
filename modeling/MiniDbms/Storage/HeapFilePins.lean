import MiniDbms.Buffer.PinDiscipline
import MiniDbms.Storage.HeapFile

/-!
# The pins of heap file operations

Every operation of a heap file is disciplined, whatever bytes its pages hold.
-/

namespace MiniDbms

open Lib PagedProgram Program

namespace SlottedPage

variable (page : Page)

theorem marks_init : page.Marks (init page).2 := by
  unfold init
  exact .ite (.refl page) (.inl rfl)

theorem marks_rewriteRecords (slots : List (Option Bytes)) :
    page.Marks (rewriteRecords page slots).2 := by
  unfold rewriteRecords
  exact .ite (.refl page) (.inl rfl)

theorem marks_setNextPageId (next : PageId) : page.Marks (setNextPageId page next).2 := by
  unfold setNextPageId
  exact .ite (.refl page) (.ite (.refl page) (.inl rfl))

theorem marks_insertRecord (data : Bytes) : page.Marks (insertRecord page data).2 := by
  unfold insertRecord
  exact .ite (.refl page) (.ite (.refl page) (.ite (.refl page) (.ite (.refl page) (.inl rfl))))

theorem marks_updateRecord (slot : SlotId) (data : Bytes) :
    page.Marks (updateRecord page slot data).2 := by
  unfold updateRecord
  refine .ite (.refl page) (.ite (.refl page) (.ite (.refl page) (.ite (.refl page) ?_)))
  cases loadRecords page.data (getSlotCount page) with
  | error e => exact .refl page
  | ok slots =>
    dsimp only
    split
    · exact .refl page
    · exact marks_rewriteRecords page _

theorem marks_deleteRecord (slot : SlotId) : page.Marks (deleteRecord page slot).2 := by
  unfold deleteRecord
  refine .ite (.refl page) (.ite (.refl page) ?_)
  cases loadRecords page.data (getSlotCount page) with
  | error e => exact .refl page
  | ok slots =>
    dsimp only
    split
    · exact .refl page
    · exact marks_rewriteRecords page _

end SlottedPage

namespace HeapFile

theorem marks_initIfNeeded (page : Page) : page.Marks (initIfNeeded page).2 := by
  unfold initIfNeeded
  exact .ite (.refl page) (SlottedPage.marks_init page)

theorem disciplined_appendNewPage (previous : PageId) (record : Bytes) :
    Disciplined none (appendNewPage previous record) (appendNewPage previous record) := by
  unfold appendNewPage
  refine disciplined_newPage (disciplined_pure _) fun p f f' d => ?_
  have hinit := SlottedPage.marks_init (Page.view p d)
  dsimp only
  refine disciplined_writePage hinit ?_
  cases (SlottedPage.init (Page.view p d)).1 with
  | error e =>
    refine disciplined_unpinPage (.inr rfl) ?_
    exact disciplined_deletePage fun _ => disciplined_pure _
  | ok =>
  dsimp only
  refine disciplined_rewritePage hinit (SlottedPage.marks_insertRecord _ record) ?_
  cases (SlottedPage.insertRecord (SlottedPage.init (Page.view p d)).2 record).1 with
  | error e =>
    refine disciplined_unpinPage (.inr rfl) ?_
    exact disciplined_deletePage fun _ => disciplined_pure _
  | ok slot =>
  refine disciplined_unpinPage (.inr rfl) ?_
  apply disciplined_fetchPage
  · exact disciplined_deletePage fun _ => disciplined_pure _
  intro f f' d
  apply disciplined_ite
  · intro _
    refine disciplined_unpinPage (.inr rfl) ?_
    exact disciplined_deletePage fun _ => disciplined_pure _
  intro _
  refine disciplined_writePage (SlottedPage.marks_setNextPageId _ p) ?_
  cases (SlottedPage.setNextPageId (Page.view previous d) p).1 with
  | error e =>
    refine disciplined_unpinPage (.inr rfl) ?_
    exact disciplined_deletePage fun _ => disciplined_pure _
  | ok =>
    refine disciplined_unpinPage (.inr rfl) ?_
    exact disciplined_pure _

theorem disciplined_insertLoop (record : Bytes) : ∀ (fuel : Nat) (visited : List PageId)
    (current : PageId), Disciplined none (insertLoop record fuel visited current)
      (insertLoop record fuel visited current) := by
  intro fuel
  induction fuel with
  | zero => exact fun _ _ => .diverge none
  | succ fuel ih =>
    intro visited current
    rw [insertLoop]
    refine disciplined_ite (fun _ => disciplined_pure _) fun _ => ?_
    refine disciplined_ite (fun _ => disciplined_pure _) fun _ => ?_
    refine disciplined_fetchPage (disciplined_pure _) fun f f' d => ?_
    have hinit := marks_initIfNeeded (Page.view current d)
    dsimp only
    cases (initIfNeeded (Page.view current d)).1 with
    | error e =>
      refine disciplined_unpinPage (.inr rfl) ?_
      exact disciplined_pure _
    | ok =>
    dsimp only
    refine disciplined_writePage (hinit.trans (SlottedPage.marks_insertRecord _ record)) ?_
    cases (SlottedPage.insertRecord (initIfNeeded (Page.view current d)).2 record).1 with
    | ok slot =>
      refine disciplined_unpinPage (.inr rfl) ?_
      exact disciplined_pure _
    | error e =>
      refine disciplined_unpinPage (.inr rfl) ?_
      refine disciplined_ite (fun _ => disciplined_pure _) fun _ => ?_
      exact disciplined_ite (fun _ => ih _ _) fun _ => disciplined_appendNewPage _ record

theorem disciplined_insertRecord (firstPageId : PageId) (record : Bytes) :
    Disciplined none (insertRecord firstPageId record) (insertRecord firstPageId record) :=
  disciplined_ite (fun _ => disciplined_pure _) fun _ => disciplined_insertLoop record _ _ _

theorem disciplined_getRecord (rid : RecordID) :
    Disciplined none (getRecord rid) (getRecord rid) := by
  unfold getRecord
  refine disciplined_ite (fun _ => disciplined_pure _) fun _ => ?_
  refine disciplined_fetchPage (disciplined_pure _) fun f f' d => ?_
  refine disciplined_unpinPage (.inr rfl) ?_
  exact disciplined_pure _

theorem disciplined_changeRecord (rid : RecordID) {change : Page → Except Status Unit × Page}
    (hm : ∀ page : Page, page.Marks (change page).2) (unpinError : String) :
    Disciplined none (changeRecord rid change unpinError) (changeRecord rid change unpinError) := by
  unfold changeRecord
  refine disciplined_fetchPage (disciplined_pure _) fun f f' d => ?_
  dsimp only
  refine disciplined_writePage (hm _) ?_
  refine disciplined_unpinPage (.inr rfl) ?_
  exact disciplined_pure _

theorem disciplined_updateRecord (record : Record) :
    Disciplined none (updateRecord record) (updateRecord record) := by
  refine disciplined_ite (fun _ => disciplined_pure _) fun _ => ?_
  refine disciplined_ite (fun _ => disciplined_pure _) fun _ => ?_
  exact disciplined_changeRecord _ (fun page => SlottedPage.marks_updateRecord page _ _) _

theorem disciplined_deleteRecord (rid : RecordID) :
    Disciplined none (deleteRecord rid) (deleteRecord rid) := by
  refine disciplined_ite (fun _ => disciplined_pure _) fun _ => ?_
  exact disciplined_changeRecord _ (fun page => SlottedPage.marks_deleteRecord page _) _

theorem disciplined_containsLoop (pageId : PageId) : ∀ (fuel : Nat) (visited : List PageId)
    (current : PageId), Disciplined none (containsLoop pageId fuel visited current)
      (containsLoop pageId fuel visited current) := by
  intro fuel
  induction fuel with
  | zero => exact fun _ _ => .diverge none
  | succ fuel ih =>
    intro visited current
    rw [containsLoop]
    refine disciplined_ite (fun _ => disciplined_pure _) fun _ => ?_
    refine disciplined_ite (fun _ => disciplined_pure _) fun _ => ?_
    refine disciplined_ite (fun _ => disciplined_pure _) fun _ => ?_
    refine disciplined_fetchPage (disciplined_pure _) fun f f' d => ?_
    apply disciplined_ite
    · intro _
      refine disciplined_unpinPage (.inr rfl) ?_
      exact disciplined_pure _
    · intro _
      refine disciplined_unpinPage (.inr rfl) ?_
      exact ih _ _

theorem disciplined_containsPage (firstPageId pageId : PageId) :
    Disciplined none (containsPage firstPageId pageId) (containsPage firstPageId pageId) :=
  disciplined_ite (fun _ => disciplined_pure _) fun _ => disciplined_containsLoop pageId _ _ _

theorem disciplined_findLoop : ∀ (fuel : Nat) (visited : List PageId) (current : PageId)
    (firstSlot : Nat), Disciplined none (findLoop fuel visited current firstSlot)
      (findLoop fuel visited current firstSlot) := by
  intro fuel
  induction fuel with
  | zero => exact fun _ _ _ => .diverge none
  | succ fuel ih =>
    intro visited current firstSlot
    rw [findLoop]
    refine disciplined_ite (fun _ => disciplined_pure _) fun _ => ?_
    refine disciplined_ite (fun _ => disciplined_pure _) fun _ => ?_
    refine disciplined_fetchPage (disciplined_pure _) fun f f' d => ?_
    apply disciplined_ite
    · intro _
      refine disciplined_unpinPage (.inr rfl) ?_
      exact disciplined_pure _
    intro _
    rcases findInPage (Page.view current d)
      (SlottedPage.getSlotCount (Page.view current d) - firstSlot) firstSlot with _ | _ | record
    · refine disciplined_unpinPage (.inr rfl) ?_
      exact ih _ _ _
    · refine disciplined_unpinPage (.inr rfl) ?_
      exact disciplined_pure _
    · refine disciplined_unpinPage (.inr rfl) ?_
      exact disciplined_pure _

theorem disciplined_getFirstRecord (firstPageId : PageId) :
    Disciplined none (getFirstRecord firstPageId) (getFirstRecord firstPageId) :=
  disciplined_findLoop _ _ _ _

theorem disciplined_getNextRecord (rid : RecordID) :
    Disciplined none (getNextRecord rid) (getNextRecord rid) :=
  disciplined_ite (fun _ => disciplined_pure _) fun _ => disciplined_findLoop _ _ _ _

end HeapFile

end MiniDbms
