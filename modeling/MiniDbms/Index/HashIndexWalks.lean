import MiniDbms.Buffer.FileBounds
import MiniDbms.Index.HashIndex

/-!
# The walks of a hash index

The loops of `Insert`, `GetValue`, `RemoveInternal` and `Destroy` are walks along the overflow page
ids (`insertLoop_eq`, `getValueLoop_eq`, `removeLoop_eq`, `destroyChain_eq`), whose rounds are
proper: each ends, and goes on only from a page of the file.
-/

namespace MiniDbms

open Lib PagedProgram Program LinkWalk

namespace HashIndex

variable {seen : List PageId} {grown : Bool}

/-! ## `Insert` -/

/-- The body of the loop of `Insert`; the state is the first page with space and the last page. -/
def insertRound (key : Bytes) (value : RecordID) (current : PageId) (s : PageId × PageId) :
    Program (Round PageId (PageId × PageId) (Except Status (Option (PageId × PageId)))) := do
  let some (_, data) ← fetchPage current
    | return .stop (.error (.ioError "Could not fetch hash bucket"))
  let bucket := Page.view current data
  if !HashIndexBucketPage.isInitialized bucket then
    let _ ← unpinPage current false
    return .stop (.error (.ioError "Hash bucket page is not initialized"))
  else
  match HashIndexBucketPage.getValue bucket key with
  | .error e =>
    if e.code ≠ .notFound then
      let _ ← unpinPage current false
      return .stop (.error e)
    else
    let .true ← unpinPage current false
      | return .stop (.error (.ioError "Could not unpin hash bucket"))
    return .go (HashIndexBucketPage.getOverflowPageId bucket)
      (insertLoop.pageWithSpace bucket s.1, current)
  | .ok valuesForKey =>
    let .true ← unpinPage current false
      | return .stop (.error (.ioError "Could not unpin hash bucket"))
    if value ∈ valuesForKey then return .stop (.ok none)
    else
      return .go (HashIndexBucketPage.getOverflowPageId bucket)
        (insertLoop.pageWithSpace bucket s.1, current)

/-- The loop of `Insert`. -/
def insertWalk (key : Bytes) (value : RecordID) :
    LinkWalk PageId FrameId PageData (PageId × PageId)
    (Except Status (Option (PageId × PageId))) where
  last := invalidPageId
  ended _ s := .ok (some s)
  cycle := .error (.ioError "Cycle detected in hash bucket chain")
  round := insertRound key value

theorem insertLoop_eq (key : Bytes) (value : RecordID) :
    ∀ (fuel : Nat) (visited : List PageId) (current : PageId) (s : PageId × PageId),
      insertLoop key value fuel visited current s.1 s.2 =
        (insertWalk key value).loop fuel visited current s := by
  apply eq_loop (fun _ _ _ => rfl) (fun _ _ _ _ => rfl)
  intro fuel visited current s
  show Continues _ (insertRound key value current s) _
  unfold insertRound
  apply continues_fetchPage (continues_stop _)
  intro f data
  apply continues_ite
  · apply continues_unpinPage <;> exact continues_stop _
  rcases HashIndexBucketPage.getValue (Page.view current data) key with e | values
  · apply continues_ite
    · apply continues_unpinPage <;> exact continues_stop _
    · exact continues_unpinPage (continues_stop _) (continues_go _ _)
  · apply continues_unpinPage (continues_stop _)
    exact continues_ite (continues_stop _) (continues_go _ _)

theorem proper_insertWalk (key : Bytes) (value : RecordID) : (insertWalk key value).Proper := by
  intro current s
  show (insertRound key value current s).Ends _ _ _
  unfold insertRound
  apply ends_fetchPage
  · exact trivial
  intro f data
  apply ends_ite
  · apply ends_unpinPage <;> exact trivial
  rcases HashIndexBucketPage.getValue (Page.view current data) key with e | values
  · apply ends_ite
    · apply ends_unpinPage <;> exact trivial
    apply ends_unpinPage
    · exact trivial
    · exact ⟨List.mem_cons_self, rfl⟩
  · apply ends_unpinPage
    · exact trivial
    apply ends_ite
    · exact trivial
    · exact ⟨List.mem_cons_self, rfl⟩

/-! ## `GetValue` -/

/-- The body of the loop of `GetValue`; the state is the values found so far. -/
def getValueRound (key : Bytes) (current : PageId) (result : List RecordID) :
    Program (Round PageId (List RecordID) (Except Status (List RecordID))) := do
  let some (_, data) ← fetchPage current
    | return .stop (.error (.ioError "Could not fetch hash bucket"))
  let bucket := Page.view current data
  if !HashIndexBucketPage.isInitialized bucket then
    let _ ← unpinPage current false
    return .stop (.error (.ioError "Hash bucket page is not initialized"))
  else
  let .true ← unpinPage current false
    | return .stop (.error (.ioError "Could not unpin hash bucket after search"))
  match HashIndexBucketPage.getValue bucket key with
  | .error e =>
    if e.code ≠ .notFound then return .stop (.error e)
    else return .go (HashIndexBucketPage.getOverflowPageId bucket) result
  | .ok values => return .go (HashIndexBucketPage.getOverflowPageId bucket) (result ++ values)

/-- The loop of `GetValue`. -/
def getValueWalk (key : Bytes) :
    LinkWalk PageId FrameId PageData (List RecordID) (Except Status (List RecordID)) where
  last := invalidPageId
  ended _ result := .ok result
  cycle := .error (.ioError "Cycle detected in hash bucket chain")
  round := getValueRound key

theorem getValueLoop_eq (key : Bytes) :
    ∀ (fuel : Nat) (visited : List PageId) (current : PageId) (result : List RecordID),
      getValueLoop key fuel visited current result =
        (getValueWalk key).loop fuel visited current result := by
  apply eq_loop (fun _ _ _ => rfl) (fun _ _ _ _ => rfl)
  intro fuel visited current result
  show Continues _ (getValueRound key current result) _
  unfold getValueRound
  apply continues_fetchPage (continues_stop _)
  intro f data
  apply continues_ite
  · apply continues_unpinPage <;> exact continues_stop _
  apply continues_unpinPage (continues_stop _)
  dsimp only
  rcases HashIndexBucketPage.getValue (Page.view current data) key with e | values
  · exact continues_ite (continues_stop _) (continues_go _ _)
  · exact continues_go _ _

theorem proper_getValueWalk (key : Bytes) : (getValueWalk key).Proper := by
  intro current result
  show (getValueRound key current result).Ends _ _ _
  unfold getValueRound
  apply ends_fetchPage
  · exact trivial
  intro f data
  apply ends_ite
  · apply ends_unpinPage <;> exact trivial
  apply ends_unpinPage
  · exact trivial
  dsimp only
  rcases HashIndexBucketPage.getValue (Page.view current data) key with e | values
  · apply ends_ite
    · exact trivial
    · exact ⟨List.mem_cons_self, rfl⟩
  · exact ⟨List.mem_cons_self, rfl⟩

/-! ## `RemoveInternal` -/

/-- The end of the body of the loop: one pair is removed at most once. -/
def removeNext (value : Option RecordID) (overflowPageId : PageId) (totalRemoved : Nat) :
    Program (Round PageId Nat (Except Status Nat)) :=
  if value.isSome ∧ 0 < totalRemoved then return .stop (.ok totalRemoved)
  else return .go overflowPageId totalRemoved

/-- The body of the loop of `RemoveInternal`; the state is the number of entries removed so far. -/
def removeRound (key : Bytes) (value : Option RecordID) (current : PageId) (totalRemoved : Nat) :
    Program (Round PageId Nat (Except Status Nat)) := do
  let some (f, data) ← fetchPage current
    | return .stop (.error (.ioError "Could not fetch hash bucket"))
  let bucket := Page.view current data
  if !HashIndexBucketPage.isInitialized bucket then
    let _ ← unpinPage current false
    return .stop (.error (.ioError "Hash bucket page is not initialized"))
  else
  let (status, bucket) := HashIndexBucketPage.remove bucket key value
  writePage f bucket
  let overflowPageId := HashIndexBucketPage.getOverflowPageId bucket
  match status with
  | .error e =>
    let .true ← unpinPage current false
      | return .stop (.error (.ioError "Could not unpin hash bucket after removal"))
    if e.code ≠ .notFound then return .stop (.error e)
    else removeNext value overflowPageId totalRemoved
  | .ok removedHere =>
    let .true ← unpinPage current (decide (0 < removedHere))
      | return .stop (.error (.ioError "Could not unpin hash bucket after removal"))
    removeNext value overflowPageId (totalRemoved + removedHere)

/-- The loop of `RemoveInternal`. -/
def removeWalk (key : Bytes) (value : Option RecordID) :
    LinkWalk PageId FrameId PageData Nat (Except Status Nat) where
  last := invalidPageId
  ended _ totalRemoved := .ok totalRemoved
  cycle := .error (.ioError "Cycle detected in hash bucket chain")
  round := removeRound key value

theorem removeLoop_eq (key : Bytes) (value : Option RecordID) :
    ∀ (fuel : Nat) (visited : List PageId) (current : PageId) (totalRemoved : Nat),
      removeLoop key value fuel visited current totalRemoved =
        (removeWalk key value).loop fuel visited current totalRemoved := by
  apply eq_loop (fun _ _ _ => removeLoop.eq_1 _ _ _ _ _)
    (fun _ _ _ _ => removeLoop.eq_2 _ _ _ _ _ _)
  intro fuel visited current totalRemoved
  show Continues _ (removeRound key value current totalRemoved) _
  have hnext : ∀ overflowPageId total,
      Continues (removeLoop key value fuel (current :: visited))
      (removeNext value overflowPageId total)
        (removeLoop.removeNext key value fuel (current :: visited) overflowPageId total) := by
    intro overflowPageId total
    rw [removeLoop.removeNext]
    exact continues_ite (continues_stop _) (continues_go _ _)
  unfold removeRound
  apply continues_fetchPage (continues_stop _)
  intro f data
  apply continues_ite
  · apply continues_unpinPage <;> exact continues_stop _
  dsimp only
  rcases HashIndexBucketPage.remove (Page.view current data) key value with
    ⟨e | removedHere, bucket⟩
  · apply continues_putPage
    apply continues_unpinPage (continues_stop _)
    exact continues_ite (continues_stop _) (hnext _ _)
  · apply continues_putPage
    exact continues_unpinPage (continues_stop _) (hnext _ _)

theorem proper_removeWalk (key : Bytes) (value : Option RecordID) :
    (removeWalk key value).Proper := by
  intro current totalRemoved
  show (removeRound key value current totalRemoved).Ends _ _ _
  have hnext : ∀ overflowPageId total, (removeNext value overflowPageId total :
      Program (Round PageId Nat (Except Status Nat))).Ends (GoesFrom current) [current] false := by
    intro overflowPageId total
    apply ends_ite
    · exact trivial
    · exact ⟨List.mem_cons_self, rfl⟩
  unfold removeRound
  apply ends_fetchPage
  · exact trivial
  intro f data
  apply ends_ite
  · apply ends_unpinPage <;> exact trivial
  dsimp only
  rcases HashIndexBucketPage.remove (Page.view current data) key value with
    ⟨e | removedHere, bucket⟩
  · apply ends_putPage
    apply ends_unpinPage
    · exact trivial
    apply ends_ite
    · exact trivial
    · exact hnext _ _
  · apply ends_putPage
    apply ends_unpinPage
    · exact trivial
    · exact hnext _ _

/-! ## `Destroy` -/

/-- The body of the inner loop of `Destroy`. -/
def destroyRound (current : PageId) :
    Program (Round PageId Unit (Except Status (List PageId))) := do
  let some (_, data) ← fetchPage current
    | return .stop (.error (.ioError "Could not fetch hash bucket during destroy"))
  let bucket := Page.view current data
  if !HashIndexBucketPage.isInitialized bucket then
    let _ ← unpinPage current false
    return .stop (.error (.ioError "Invalid hash bucket found during destroy"))
  else
  let .true ← unpinPage current false
    | return .stop (.error (.ioError "Could not unpin hash bucket during destroy"))
  let .true ← deletePage current
    | return .stop (.error (.ioError "Could not delete hash bucket during destroy"))
  return .go (HashIndexBucketPage.getOverflowPageId bucket) ()

/-- The inner loop of `Destroy`. -/
def destroyWalk : LinkWalk PageId FrameId PageData Unit (Except Status (List PageId)) where
  last := invalidPageId
  ended visited _ := .ok visited
  cycle := .error (.ioError "Cycle detected while destroying hash index")
  round current _ := destroyRound current

theorem destroyChain_eq : ∀ (fuel : Nat) (visited : List PageId) (current : PageId) (s : Unit),
    destroyChain fuel visited current = destroyWalk.loop fuel visited current s := by
  apply eq_loop (fun _ _ _ => rfl) (fun _ _ _ _ => rfl)
  intro fuel visited current s
  show Continues _ (destroyRound current) _
  unfold destroyRound
  apply continues_fetchPage (continues_stop _)
  intro f data
  apply continues_ite
  · apply continues_unpinPage <;> exact continues_stop _
  apply continues_unpinPage (continues_stop _)
  exact continues_deletePage (continues_stop _) (continues_go _ _)

theorem proper_destroyWalk : destroyWalk.Proper := by
  intro current s
  show (destroyRound current).Ends _ _ _
  unfold destroyRound
  apply ends_fetchPage
  · exact trivial
  intro f data
  apply ends_ite
  · apply ends_unpinPage <;> exact trivial
  apply ends_unpinPage
  · exact trivial
  apply ends_deletePage
  · exact trivial
  · exact ⟨List.mem_cons_self, rfl⟩

/-- A round of `Destroy` stops with an error only. -/
theorem always_destroyRound (current : PageId) :
    (destroyRound current).Always fun r => ∀ result, r = .stop result → ∃ e, result = .error e := by
  have hstop : ∀ e : Status, (pure (.stop (.error e)) :
      Program (Round PageId Unit (Except Status (List PageId)))).Always
        fun r => ∀ result, r = .stop result → ∃ e, result = .error e := by
    intro e result h
    cases h
    exact ⟨e, rfl⟩
  unfold destroyRound
  apply always_fetchPage
  rintro (_ | ⟨f, data⟩)
  · exact hstop _
  dsimp only
  split
  · apply always_unpinPage <;> exact hstop _
  apply always_unpinPage (hstop _)
  apply always_deletePage (hstop _)
  exact always_pure nofun

/-- The beginning of `Destroy`: the first pages of the buckets. -/
def destroyStarts (header : PageId) : Program (Except Status (List PageId)) := do
  let some (_, data) ← fetchPage header
    | return .error (.ioError "Could not fetch hash index header during destroy")
  let page := Page.view header data
  if !HashIndexHeaderPage.isInitialized page then
    let _ ← unpinPage header false
    return .error (.ioError "Cannot destroy an invalid hash index header")
  else
  let .true ← unpinPage header false
    | return .error (.ioError "Could not unpin hash index header during destroy")
  return primaryBuckets page (HashIndexHeaderPage.getBucketCount page) 0

/-- The end of `Destroy`. -/
def destroyHeader (header : PageId) : Program (Except Status Unit) := do
  let .true ← deletePage header
    | return .error (.ioError "Could not delete hash index header")
  return .ok ()

theorem destroy_eq {header : PageId} (hpos : ¬ header.toInt ≤ headerPageId.toInt) :
    destroy header = (do
      match ← destroyStarts header with
      | .error e => return .error e
      | .ok starts =>
        match ← destroyChains starts [] with
        | .error e => return .error e
        | .ok () => destroyHeader header) := by
  rw [destroy, if_neg hpos]
  refine congrArg (PagedProgram.fetch header) (funext fun r => ?_)
  rcases r with _ | ⟨f, data⟩
  · rfl
  show (if (!HashIndexHeaderPage.isInitialized (Page.view header data)) = true then _ else _) =
    (if (!HashIndexHeaderPage.isInitialized (Page.view header data)) = true then _ else _ :
      Program (Except Status (List PageId))) >>= _
  by_cases hinit : (!HashIndexHeaderPage.isInitialized (Page.view header data)) = true
  · rw [if_pos hinit, if_pos hinit]
    rfl
  rw [if_neg hinit, if_neg hinit]
  refine congrArg (PagedProgram.unpin header false) (funext fun b => ?_)
  cases b
  · rfl
  show (match primaryBuckets _ _ 0 with | .error e => _ | .ok starts => _) =
    (pure (primaryBuckets _ _ 0) : Program (Except Status (List PageId))) >>= _
  rcases primaryBuckets (Page.view header data)
    (HashIndexHeaderPage.getBucketCount (Page.view header data)) 0 with e | starts
  · rfl
  · rfl

/-! ## The other parts -/

theorem ends_getBucketPageId (header : PageId) (key : Bytes) :
    (getBucketPageId header key).Ends (fun _ grown _ => grown = false) [] false := by
  unfold getBucketPageId
  apply ends_ite
  · exact rfl
  apply ends_fetchPage
  · exact rfl
  intro f data
  apply ends_unpinPage
  · exact rfl
  apply ends_ite
  · exact rfl
  dsimp only
  split <;> exact rfl

theorem ends_destroyStarts (header : PageId) :
    (destroyStarts header).Ends (fun _ grown _ => grown = false) [] false := by
  unfold destroyStarts
  apply ends_fetchPage
  · exact rfl
  intro f data
  apply ends_ite
  · apply ends_unpinPage <;> exact rfl
  apply ends_unpinPage <;> exact rfl

theorem ends_destroyHeader (header : PageId) :
    (destroyHeader header).Ends (fun _ _ _ => True) seen grown := by
  unfold destroyHeader
  apply ends_deletePage <;> exact trivial

theorem ends_newBucket (key : Bytes) (value : RecordID) (allocError unpinError : String) :
    (newBucket key value allocError unpinError).Ends (fun _ _ _ => True) seen grown := by
  unfold newBucket
  apply ends_newPage
  · exact trivial
  intro p f data
  dsimp only
  rcases fillBucket (Page.view p data) key value with ⟨e | _, page⟩
  · apply ends_putPage
    apply ends_unpinPage
    · exact trivial
    · apply ends_deletePage <;> exact trivial
  · apply ends_putPage
    apply ends_unpinPage <;> exact trivial

theorem ends_linkBucket (pageId newBucketPageId : PageId) (link : Page → Except Status Unit × Page)
    (fetchError unpinError : String) :
    (linkBucket pageId newBucketPageId link fetchError unpinError).Ends (fun _ _ _ => True)
      seen grown := by
  unfold linkBucket
  apply ends_fetchPage
  · apply ends_deletePage <;> exact trivial
  intro f data
  dsimp only
  rcases link (Page.view pageId data) with ⟨e | _, page⟩
  · apply ends_putPage
    apply ends_unpinPage
    · exact trivial
    · apply ends_deletePage <;> exact trivial
  · apply ends_putPage
    apply ends_unpinPage <;> exact trivial

theorem ends_createPrimaryBucket (header : PageId) (bucketIndex : Nat) (key : Bytes)
    (value : RecordID) :
    (createPrimaryBucket header bucketIndex key value).Ends (fun _ _ _ => True) seen grown := by
  apply ends_bind
  apply (ends_newBucket key value _ _).mono
  rintro seen grown (e | p) -
  · exact trivial
  · exact ends_linkBucket _ _ _ _ _

theorem ends_appendOverflowBucket (previous : PageId) (key : Bytes) (value : RecordID) :
    (appendOverflowBucket previous key value).Ends (fun _ _ _ => True) seen grown := by
  apply ends_bind
  apply (ends_newBucket key value _ _).mono
  rintro seen grown (e | p) -
  · exact trivial
  · exact ends_linkBucket _ _ _ _ _

theorem ends_insertIntoPage (pageId : PageId) (key : Bytes) (value : RecordID) :
    (insertIntoPage pageId key value).Ends (fun _ _ _ => True) seen grown := by
  unfold insertIntoPage
  apply ends_fetchPage
  · exact trivial
  intro f data
  dsimp only
  rcases HashIndexBucketPage.insert (Page.view pageId data) key value with ⟨e | inserted, page⟩
  · apply ends_putPage
    apply ends_unpinPage <;> exact trivial
  · apply ends_putPage
    apply ends_unpinPage <;> exact trivial

end HashIndex

end MiniDbms
