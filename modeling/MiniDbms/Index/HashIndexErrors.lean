import MiniDbms.Index.HashIndex
import MiniDbms.Storage.HeapFileErrors

/-!
# Errors of hash indexes

An operation on a hash index in which a call has failed returns an error.
-/

namespace MiniDbms

open Lib PagedProgram Program

namespace HashIndex

theorem strict_getBucketPageId (header : PageId) (key : Bytes) :
    (getBucketPageId header key).Strict IsError := by
  refine strict_ite (strict_pure _) ?_
  refine strict_fetchPage (isError_error _) fun f d => ?_
  refine strict_unpinPage (strict_pure _) (strict_ite (strict_pure _) ?_)
  dsimp only
  cases HashIndexHeaderPage.getBucketPageId (Page.view header d)
    (bucketOf (HashIndexHeaderPage.getBucketCount (Page.view header d)) key) with
  | error e => exact strict_pure _
  | ok bucketPageId => exact strict_pure _

/-! ## Insertion -/

theorem strict_newBucket (key : Bytes) (value : RecordID) (allocError unpinError : String) :
    (newBucket key value allocError unpinError).Strict IsError := by
  unfold newBucket
  refine strict_newPage (isError_error _) fun p f d => ?_
  dsimp only
  refine strict_putPage (strict_unpinPage (strict_pure _) ?_)
  dsimp only
  cases (fillBucket (Page.view p d) key value).1 with
  | error e => exact strict_of_always always_deletePage_error
  | ok => exact strict_pure _

theorem strict_linkBucket (pageId newBucketPageId : PageId)
    (link : Page → Except Status Unit × Page) (fetchError unpinError : String) :
    (linkBucket pageId newBucketPageId link fetchError unpinError).Strict IsError := by
  unfold linkBucket
  refine strict_fetchPage always_deletePage_error fun f d => ?_
  refine strict_putPage (strict_unpinPage (strict_pure _) ?_)
  dsimp only
  cases (link (Page.view pageId d)).1 with
  | error e => exact strict_of_always always_deletePage_error
  | ok => exact strict_pure _

theorem strict_createPrimaryBucket (header : PageId) (bucketIndex : Nat) (key : Bytes)
    (value : RecordID) : (createPrimaryBucket header bucketIndex key value).Strict IsError := by
  refine (strict_newBucket _ _ _ _).bind_ok (fun e => isError_error e) fun newBucketPageId => ?_
  exact strict_linkBucket _ _ _ _ _

theorem strict_appendOverflowBucket (previous : PageId) (key : Bytes) (value : RecordID) :
    (appendOverflowBucket previous key value).Strict IsError := by
  refine (strict_newBucket _ _ _ _).bind_ok (fun e => isError_error e) fun newBucketPageId => ?_
  exact strict_linkBucket _ _ _ _ _

theorem strict_insertLoop (key : Bytes) (value : RecordID) : ∀ (fuel : Nat) (visited : List PageId)
    (current first last : PageId),
    (insertLoop key value fuel visited current first last).Strict IsError := by
  intro fuel
  induction fuel with
  | zero => exact fun _ _ _ _ => trivial
  | succ fuel ih =>
    intro visited current first last
    rw [insertLoop]
    refine strict_ite (strict_pure _) (strict_ite (strict_pure _) ?_)
    refine strict_fetchPage (isError_error _) fun f d => ?_
    refine strict_ite strict_unpinPage_return ?_
    cases HashIndexBucketPage.getValue (Page.view current d) key with
    | error e =>
      exact strict_ite strict_unpinPage_return (strict_unpinPage (strict_pure _) (ih _ _ _ _))
    | ok values =>
      exact strict_unpinPage (strict_pure _) (strict_ite (strict_pure _) (ih _ _ _ _))

theorem strict_insertIntoPage (pageId : PageId) (key : Bytes) (value : RecordID) :
    (insertIntoPage pageId key value).Strict IsError := by
  unfold insertIntoPage
  refine strict_fetchPage (isError_error _) fun f d => ?_
  dsimp only
  refine strict_putPage ?_
  cases (HashIndexBucketPage.insert (Page.view pageId d) key value).1 with
  | error e => exact strict_unpinPage (strict_pure _) (strict_pure _)
  | ok inserted => exact strict_unpinPage (strict_pure _) (strict_pure _)

theorem strict_insert (header : PageId) (key : Bytes) (value : RecordID) :
    (insert header key value).Strict IsError := by
  refine strict_ite (strict_pure _) (strict_ite (strict_pure _) ?_)
  refine (strict_getBucketPageId header key).bind_ok (fun e => isError_error e) fun bucket => ?_
  refine strict_ite (strict_createPrimaryBucket _ _ _ _) ?_
  refine (strict_insertLoop key value _ _ _ _ _).bind_ok (fun e => isError_error e) fun found => ?_
  rcases found with _ | ⟨first, last⟩
  · exact strict_pure _
  · refine strict_ite (strict_insertIntoPage _ _ _) ?_
    exact strict_ite (strict_pure _) (strict_appendOverflowBucket _ _ _)

/-! ## Lookup and removal -/

theorem strict_getValueLoop (key : Bytes) : ∀ (fuel : Nat) (visited : List PageId)
    (current : PageId) (result : List RecordID),
    (getValueLoop key fuel visited current result).Strict IsError := by
  intro fuel
  induction fuel with
  | zero => exact fun _ _ _ => trivial
  | succ fuel ih =>
    intro visited current result
    rw [getValueLoop]
    refine strict_ite (strict_pure _) (strict_ite (strict_pure _) ?_)
    refine strict_fetchPage (isError_error _) fun f d => ?_
    refine strict_ite strict_unpinPage_return (strict_unpinPage (strict_pure _) ?_)
    cases HashIndexBucketPage.getValue (Page.view current d) key with
    | error e => exact strict_ite (strict_pure _) (ih _ _ _)
    | ok values => exact ih _ _ _

theorem strict_getValue (header : PageId) (key : Bytes) : (getValue header key).Strict IsError := by
  refine (strict_getBucketPageId header key).bind_ok (fun e => isError_error e) fun bucket => ?_
  exact strict_getValueLoop _ _ _ _ _

theorem strict_removeLoop (key : Bytes) (value : Option RecordID) : ∀ (fuel : Nat)
    (visited : List PageId) (current : PageId) (totalRemoved : Nat),
    (removeLoop key value fuel visited current totalRemoved).Strict IsError := by
  intro fuel
  induction fuel with
  | zero =>
    intro visited current totalRemoved
    rw [removeLoop]
    exact trivial
  | succ fuel ih =>
    intro visited current totalRemoved
    have hnext : ∀ visited next removed,
        (removeLoop.removeNext key value fuel visited next removed).Strict IsError := by
      intro visited next removed
      rw [removeLoop.removeNext]
      exact strict_ite (strict_pure _) (ih _ _ _)
    rw [removeLoop]
    refine strict_ite (strict_pure _) (strict_ite (strict_pure _) ?_)
    refine strict_fetchPage (isError_error _) fun f d => ?_
    refine strict_ite strict_unpinPage_return ?_
    dsimp only
    refine strict_putPage ?_
    cases (HashIndexBucketPage.remove (Page.view current d) key value).1 with
    | error e =>
      refine strict_unpinPage (strict_pure _) (strict_ite (strict_pure _) ?_)
      exact hnext _ _ _
    | ok removedHere => exact strict_unpinPage (strict_pure _) (hnext _ _ _)

theorem strict_remove (header : PageId) (key : Bytes) (value : Option RecordID) :
    (remove header key value).Strict IsError := by
  refine (strict_getBucketPageId header key).bind_ok (fun e => isError_error e) fun bucket => ?_
  refine strict_ite (strict_pure _) ?_
  refine (strict_removeLoop key value _ _ _ _).bind_ok (fun e => isError_error e) fun removed => ?_
  exact strict_ite (strict_pure _) (strict_pure _)

end HashIndex

end MiniDbms
