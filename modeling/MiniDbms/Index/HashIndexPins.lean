import MiniDbms.Buffer.PinDiscipline
import MiniDbms.Index.HashIndex

/-!
# The pins of hash index operations

Every operation of a hash index is disciplined, whatever bytes its pages hold.
-/

namespace MiniDbms

open Lib PagedProgram Program

namespace HashIndexBucketPage

variable (page : Page)

theorem marks_init : page.Marks (init page).2 := by
  unfold init
  exact .ite (.refl page) (.inl rfl)

theorem marks_writeEntry (index : Nat) (key : Bytes) (value : RecordID) :
    page.Marks (writeEntry page index key value).2 := by
  unfold writeEntry
  cases validateKey key with
  | error e => exact .refl page
  | ok => exact .ite (.refl page) (.inl rfl)

theorem marks_clearEntry (index : Nat) : page.Marks (clearEntry page index) := by
  unfold clearEntry
  split
  · exact .refl page
  · exact .inl rfl

theorem marks_insert (key : Bytes) (value : RecordID) : page.Marks (insert page key value).2 := by
  unfold insert
  cases validateKey key with
  | error e => exact .refl page
  | ok =>
  refine .ite (.refl page) (.ite (.refl page) ?_)
  dsimp only
  rcases findPair page key value (getEntryCount page) 0 with e | _ | _
  · exact .refl page
  · refine .ite (.refl page) ?_
    have hm := marks_writeEntry page (getEntryCount page) key value
    revert hm
    rcases writeEntry page (getEntryCount page) key value with ⟨_ | _, page'⟩
    · exact fun hm => hm
    · exact fun _ => .inl rfl
  · exact .refl page

theorem marks_removeEntry (index lastIndex : Nat) :
    page.Marks (removeEntry page index lastIndex).2 := by
  unfold removeEntry
  refine .ite (marks_clearEntry page lastIndex) ?_
  rcases readEntry page lastIndex with e | ⟨lastKey, lastValue⟩
  · exact .refl page
  · dsimp only
    have hm := marks_writeEntry page index lastKey lastValue
    revert hm
    rcases writeEntry page index lastKey lastValue with ⟨_ | _, page'⟩
    · exact fun hm => hm
    · exact fun hm => hm.trans (marks_clearEntry page' lastIndex)

theorem marks_removeLoop (key : Bytes) (value : Option RecordID) : ∀ (left : Nat) (page : Page)
    (index removed : Nat), page.Marks (removeLoop key value left page index removed).2 := by
  intro left
  induction left with
  | zero => exact fun page _ _ => .refl page
  | succ left ih =>
    intro page index removed
    rw [removeLoop]
    cases readEntry page index with
    | error e => exact .refl page
    | ok existing =>
      refine .ite (ih _ _ _) ?_
      dsimp only
      have hm := marks_removeEntry page index (index + left)
      revert hm
      rcases removeEntry page index (index + left) with ⟨_ | _, page'⟩
      · exact fun hm => hm
      · exact fun hm => .ite hm (hm.trans (ih _ _ _))

theorem marks_remove (key : Bytes) (value : Option RecordID) :
    page.Marks (remove page key value).2 := by
  unfold remove
  cases validateKey key with
  | error e => exact .refl page
  | ok =>
  refine .ite (.refl page) ?_
  have hm := marks_removeLoop key value (getEntryCount page) page 0 0
  revert hm
  rcases removeLoop key value (getEntryCount page) page 0 0 with ⟨_ | ⟨entryCount, removed⟩, page'⟩
  · exact fun hm => hm
  · exact fun hm => .ite hm (.inl rfl)

theorem marks_setOverflowPageId (overflow : PageId) :
    page.Marks (setOverflowPageId page overflow).2 := by
  unfold setOverflowPageId
  exact .ite (.refl page) (.ite (.refl page) (.inl rfl))

end HashIndexBucketPage

namespace HashIndexHeaderPage

variable (page : Page)

theorem marks_init (bucketCount maxKeyLength : Nat) :
    page.Marks (init page bucketCount maxKeyLength).2 := by
  unfold init
  exact .ite (.refl page) (.ite (.refl page) (.ite (.refl page) (.inl rfl)))

theorem marks_setBucketPageId (index : Nat) (bucketPageId : PageId) :
    page.Marks (setBucketPageId page index bucketPageId).2 := by
  unfold setBucketPageId
  exact .ite (.refl page) (.ite (.refl page) (.ite (.refl page) (.inl rfl)))

end HashIndexHeaderPage

namespace HashIndex

/-! ## Changes of one page -/

theorem marks_fillBucket (page : Page) (key : Bytes) (value : RecordID) :
    page.Marks (fillBucket page key value).2 := by
  unfold fillBucket
  have hm := HashIndexBucketPage.marks_init page
  revert hm
  rcases HashIndexBucketPage.init page with ⟨_ | _, page'⟩
  · exact fun hm => hm
  · intro hm
    have hm' := HashIndexBucketPage.marks_insert page' key value
    revert hm'
    dsimp only
    rcases HashIndexBucketPage.insert page' key value with ⟨_ | _, page''⟩
    · exact fun hm' => hm.trans hm'
    · exact fun hm' => hm.trans hm'

theorem marks_linkPrimary (bucketIndex : Nat) (newBucketPageId : PageId) (page : Page) :
    page.Marks (linkPrimary bucketIndex newBucketPageId page).2 := by
  unfold linkPrimary
  cases HashIndexHeaderPage.getBucketPageId page bucketIndex with
  | error e => exact .refl page
  | ok existing =>
    exact .ite (.refl page)
      (HashIndexHeaderPage.marks_setBucketPageId page bucketIndex newBucketPageId)

theorem marks_linkOverflow (newBucketPageId : PageId) (page : Page) :
    page.Marks (linkOverflow newBucketPageId page).2 := by
  unfold linkOverflow
  exact .ite (.refl page) (.ite (.refl page)
    (HashIndexBucketPage.marks_setOverflowPageId page newBucketPageId))

/-! ## The operations -/

theorem disciplined_create (bucketCount : Nat) :
    Disciplined none (create bucketCount) (create bucketCount) := by
  unfold create
  refine disciplined_ite (fun _ => disciplined_pure _) fun _ => ?_
  refine disciplined_newPage (disciplined_pure _) fun p f f' d => ?_
  dsimp only
  refine disciplined_writePage (HashIndexHeaderPage.marks_init _ _ _) ?_
  refine disciplined_unpinPage (.inr rfl) ?_
  dsimp only
  cases (HashIndexHeaderPage.init (Page.view p d) bucketCount
    HashIndexBucketPage.maxKeyLength).1 with
  | error e => exact disciplined_deletePage fun _ => disciplined_pure _
  | ok => exact disciplined_pure _

theorem disciplined_validateHeader (header : PageId) :
    Disciplined none (validateHeader header) (validateHeader header) := by
  unfold validateHeader
  refine disciplined_fetchPage (disciplined_pure _) fun f f' d => ?_
  refine disciplined_unpinPage (.inr rfl) ?_
  exact disciplined_ite (fun _ => disciplined_pure _) fun _ => disciplined_pure _

theorem disciplined_openIndex (header : PageId) :
    Disciplined none (openIndex header) (openIndex header) := by
  unfold openIndex
  refine disciplined_ite (fun _ => disciplined_pure _) fun _ => ?_
  refine (disciplined_validateHeader header).bind fun r => ?_
  cases r with
  | error e => exact disciplined_pure _
  | ok => exact disciplined_pure _

theorem disciplined_getBucketPageId (header : PageId) (key : Bytes) :
    Disciplined none (getBucketPageId header key) (getBucketPageId header key) := by
  unfold getBucketPageId
  refine disciplined_ite (fun _ => disciplined_pure _) fun _ => ?_
  refine disciplined_fetchPage (disciplined_pure _) fun f f' d => ?_
  refine disciplined_unpinPage (.inr rfl) ?_
  refine disciplined_ite (fun _ => disciplined_pure _) fun _ => ?_
  dsimp only
  cases HashIndexHeaderPage.getBucketPageId (Page.view header d)
    (bucketOf (HashIndexHeaderPage.getBucketCount (Page.view header d)) key) with
  | error e => exact disciplined_pure _
  | ok => exact disciplined_pure _

theorem disciplined_newBucket (key : Bytes) (value : RecordID) (allocError unpinError : String) :
    Disciplined none (newBucket key value allocError unpinError)
      (newBucket key value allocError unpinError) := by
  unfold newBucket
  refine disciplined_newPage (disciplined_pure _) fun p f f' d => ?_
  dsimp only
  refine disciplined_writePage (marks_fillBucket _ _ _) ?_
  refine disciplined_unpinPage (.inr rfl) ?_
  dsimp only
  cases (fillBucket (Page.view p d) key value).1 with
  | error e => exact disciplined_deletePage fun _ => disciplined_pure _
  | ok => exact disciplined_pure _

theorem disciplined_linkBucket (pageId newBucketPageId : PageId)
    {link : Page → Except Status Unit × Page} (hm : ∀ page : Page, page.Marks (link page).2)
    (fetchError unpinError : String) :
    Disciplined none (linkBucket pageId newBucketPageId link fetchError unpinError)
      (linkBucket pageId newBucketPageId link fetchError unpinError) := by
  unfold linkBucket
  apply disciplined_fetchPage
  · exact disciplined_deletePage fun _ => disciplined_pure _
  intro f f' d
  dsimp only
  refine disciplined_writePage (hm _) ?_
  refine disciplined_unpinPage (.inr rfl) ?_
  dsimp only
  cases (link (Page.view pageId d)).1 with
  | error e => exact disciplined_deletePage fun _ => disciplined_pure _
  | ok => exact disciplined_pure _

theorem disciplined_createPrimaryBucket (header : PageId) (bucketIndex : Nat) (key : Bytes)
    (value : RecordID) : Disciplined none (createPrimaryBucket header bucketIndex key value)
      (createPrimaryBucket header bucketIndex key value) := by
  refine (disciplined_newBucket key value _ _).bind fun r => ?_
  cases r with
  | error e => exact disciplined_pure _
  | ok p => exact disciplined_linkBucket _ _ (marks_linkPrimary bucketIndex p) _ _

theorem disciplined_appendOverflowBucket (previous : PageId) (key : Bytes) (value : RecordID) :
    Disciplined none (appendOverflowBucket previous key value)
      (appendOverflowBucket previous key value) := by
  refine (disciplined_newBucket key value _ _).bind fun r => ?_
  cases r with
  | error e => exact disciplined_pure _
  | ok p => exact disciplined_linkBucket _ _ (marks_linkOverflow p) _ _

theorem disciplined_insertLoop (key : Bytes) (value : RecordID) : ∀ (fuel : Nat)
    (visited : List PageId) (current firstPageWithSpace lastPageId : PageId),
    Disciplined none (insertLoop key value fuel visited current firstPageWithSpace lastPageId)
      (insertLoop key value fuel visited current firstPageWithSpace lastPageId) := by
  intro fuel
  induction fuel with
  | zero => exact fun _ _ _ _ => .diverge none
  | succ fuel ih =>
    intro visited current firstPageWithSpace lastPageId
    rw [insertLoop]
    refine disciplined_ite (fun _ => disciplined_pure _) fun _ => ?_
    refine disciplined_ite (fun _ => disciplined_pure _) fun _ => ?_
    refine disciplined_fetchPage (disciplined_pure _) fun f f' d => ?_
    apply disciplined_ite
    · intro _
      refine disciplined_unpinPage (.inr rfl) ?_
      exact disciplined_pure _
    intro _
    cases HashIndexBucketPage.getValue (Page.view current d) key with
    | error e =>
      apply disciplined_ite
      · intro _
        refine disciplined_unpinPage (.inr rfl) ?_
        exact disciplined_pure _
      intro _
      refine disciplined_unpinPage (.inr rfl) ?_
      exact ih _ _ _ _
    | ok values =>
      refine disciplined_unpinPage (.inr rfl) ?_
      exact disciplined_ite (fun _ => disciplined_pure _) fun _ => ih _ _ _ _

theorem disciplined_insertIntoPage (pageId : PageId) (key : Bytes) (value : RecordID) :
    Disciplined none (insertIntoPage pageId key value) (insertIntoPage pageId key value) := by
  unfold insertIntoPage
  refine disciplined_fetchPage (disciplined_pure _) fun f f' d => ?_
  dsimp only
  refine disciplined_writePage (HashIndexBucketPage.marks_insert _ _ _) ?_
  cases (HashIndexBucketPage.insert (Page.view pageId d) key value).1 with
  | error e =>
    refine disciplined_unpinPage (.inr rfl) ?_
    exact disciplined_pure _
  | ok inserted =>
    refine disciplined_unpinPage (.inr rfl) ?_
    exact disciplined_pure _

theorem disciplined_insert (header : PageId) (key : Bytes) (value : RecordID) :
    Disciplined none (insert header key value) (insert header key value) := by
  unfold insert
  refine disciplined_ite (fun _ => disciplined_pure _) fun _ => ?_
  refine disciplined_ite (fun _ => disciplined_pure _) fun _ => ?_
  refine (disciplined_getBucketPageId header key).bind fun r => ?_
  rcases r with e | ⟨bucketIndex, bucketPageId⟩
  · exact disciplined_pure _
  refine disciplined_ite (fun _ => disciplined_createPrimaryBucket _ _ _ _) fun _ => ?_
  refine (disciplined_insertLoop key value _ _ _ _ _).bind fun r => ?_
  rcases r with e | _ | ⟨firstPageWithSpace, lastPageId⟩
  · exact disciplined_pure _
  · exact disciplined_pure _
  refine disciplined_ite (fun _ => disciplined_insertIntoPage _ _ _) fun _ => ?_
  exact disciplined_ite (fun _ => disciplined_pure _) fun _ =>
    disciplined_appendOverflowBucket _ _ _

theorem disciplined_getValueLoop (key : Bytes) : ∀ (fuel : Nat) (visited : List PageId)
    (current : PageId) (result : List RecordID),
    Disciplined none (getValueLoop key fuel visited current result)
      (getValueLoop key fuel visited current result) := by
  intro fuel
  induction fuel with
  | zero => exact fun _ _ _ => .diverge none
  | succ fuel ih =>
    intro visited current result
    rw [getValueLoop]
    refine disciplined_ite (fun _ => disciplined_pure _) fun _ => ?_
    refine disciplined_ite (fun _ => disciplined_pure _) fun _ => ?_
    refine disciplined_fetchPage (disciplined_pure _) fun f f' d => ?_
    apply disciplined_ite
    · intro _
      refine disciplined_unpinPage (.inr rfl) ?_
      exact disciplined_pure _
    intro _
    refine disciplined_unpinPage (.inr rfl) ?_
    dsimp only
    cases HashIndexBucketPage.getValue (Page.view current d) key with
    | error e => exact disciplined_ite (fun _ => disciplined_pure _) fun _ => ih _ _ _
    | ok values => exact ih _ _ _

theorem disciplined_getValue (header : PageId) (key : Bytes) :
    Disciplined none (getValue header key) (getValue header key) := by
  refine (disciplined_getBucketPageId header key).bind fun r => ?_
  rcases r with e | ⟨bucketIndex, bucketPageId⟩
  · exact disciplined_pure _
  · exact disciplined_getValueLoop key _ _ _ _

theorem disciplined_removeLoop (key : Bytes) (value : Option RecordID) : ∀ (fuel : Nat)
    (visited : List PageId) (current : PageId) (totalRemoved : Nat),
    Disciplined none (removeLoop key value fuel visited current totalRemoved)
      (removeLoop key value fuel visited current totalRemoved) := by
  intro fuel
  induction fuel with
  | zero =>
    intro visited current totalRemoved
    rw [removeLoop]
    exact .diverge none
  | succ fuel ih =>
    intro visited current totalRemoved
    rw [removeLoop]
    refine disciplined_ite (fun _ => disciplined_pure _) fun _ => ?_
    refine disciplined_ite (fun _ => disciplined_pure _) fun _ => ?_
    refine disciplined_fetchPage (disciplined_pure _) fun f f' d => ?_
    apply disciplined_ite
    · intro _
      refine disciplined_unpinPage (.inr rfl) ?_
      exact disciplined_pure _
    intro _
    dsimp only
    refine disciplined_writePage (HashIndexBucketPage.marks_remove _ _ _) ?_
    have hnext : ∀ overflowPageId totalRemoved, Disciplined none
        (removeLoop.removeNext key value fuel (current :: visited) overflowPageId totalRemoved)
        (removeLoop.removeNext key value fuel (current :: visited) overflowPageId
          totalRemoved) := by
      intro overflowPageId totalRemoved
      rw [removeLoop.removeNext]
      exact disciplined_ite (fun _ => disciplined_pure _) fun _ => ih _ _ _
    cases (HashIndexBucketPage.remove (Page.view current d) key value).1 with
    | error e =>
      refine disciplined_unpinPage (.inr rfl) ?_
      exact disciplined_ite (fun _ => disciplined_pure _) fun _ => hnext _ _
    | ok removedHere =>
      refine disciplined_unpinPage (.inr rfl) ?_
      exact hnext _ _

theorem disciplined_remove (header : PageId) (key : Bytes) (value : Option RecordID) :
    Disciplined none (remove header key value) (remove header key value) := by
  refine (disciplined_getBucketPageId header key).bind fun r => ?_
  rcases r with e | ⟨bucketIndex, bucketPageId⟩
  · exact disciplined_pure _
  refine disciplined_ite (fun _ => disciplined_pure _) fun _ => ?_
  refine (disciplined_removeLoop key value _ _ _ _).bind fun r => ?_
  cases r with
  | error e => exact disciplined_pure _
  | ok => exact disciplined_ite (fun _ => disciplined_pure _) fun _ => disciplined_pure _

theorem disciplined_destroyChain : ∀ (fuel : Nat) (visited : List PageId) (current : PageId),
    Disciplined none (destroyChain fuel visited current) (destroyChain fuel visited current) := by
  intro fuel
  induction fuel with
  | zero => exact fun _ _ => .diverge none
  | succ fuel ih =>
    intro visited current
    rw [destroyChain]
    refine disciplined_ite (fun _ => disciplined_pure _) fun _ => ?_
    refine disciplined_ite (fun _ => disciplined_pure _) fun _ => ?_
    refine disciplined_fetchPage (disciplined_pure _) fun f f' d => ?_
    apply disciplined_ite
    · intro _
      refine disciplined_unpinPage (.inr rfl) ?_
      exact disciplined_pure _
    intro _
    refine disciplined_unpinPage (.inr rfl) ?_
    refine disciplined_deletePage fun b => ?_
    cases b with
    | false => exact disciplined_pure _
    | true => exact ih _ _

theorem disciplined_destroyChains : ∀ (primaries visited : List PageId),
    Disciplined none (destroyChains primaries visited) (destroyChains primaries visited) := by
  intro primaries
  induction primaries with
  | nil => exact fun _ => disciplined_pure _
  | cons p primaries ih =>
    intro visited
    refine (disciplined_destroyChain _ _ _).bind fun r => ?_
    cases r with
    | error e => exact disciplined_pure _
    | ok visited => exact ih visited

theorem disciplined_destroy (header : PageId) :
    Disciplined none (destroy header) (destroy header) := by
  unfold destroy
  refine disciplined_ite (fun _ => disciplined_pure _) fun _ => ?_
  refine disciplined_fetchPage (disciplined_pure _) fun f f' d => ?_
  apply disciplined_ite
  · intro _
    refine disciplined_unpinPage (.inr rfl) ?_
    exact disciplined_pure _
  intro _
  refine disciplined_unpinPage (.inr rfl) ?_
  dsimp only
  cases primaryBuckets (Page.view header d)
    (HashIndexHeaderPage.getBucketCount (Page.view header d)) 0 with
  | error e => exact disciplined_pure _
  | ok primaries =>
  refine (disciplined_destroyChains primaries []).bind fun r => ?_
  cases r with
  | error e => exact disciplined_pure _
  | ok =>
    refine disciplined_deletePage fun b => ?_
    cases b with
    | false => exact disciplined_pure _
    | true => exact disciplined_pure _

end HashIndex

end MiniDbms
