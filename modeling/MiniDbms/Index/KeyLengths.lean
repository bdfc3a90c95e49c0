import MiniDbms.Index.HashIndex
import MiniDbms.Index.IndexKey

/-!
# Keys are not rejected for their length

`Insert`, `Remove` and `GetValue` of an index reject empty keys and keys of more than 64 bytes. A
key between the two limits is never rejected for its length, on whatever pages (`insert_always`,
`remove_always`, `getValue_always`), and the keys of values are all between them (`encode_spec`).
-/

namespace MiniDbms

open Lib PagedProgram Program

/-- The status of a key that is too long. -/
def tooLong : Status := .invalidArgument "Hash index key exceeds maximum length"

/-- The status of an empty key. -/
def emptyKey : Status := .invalidArgument "Hash index key cannot be empty"

/-- The result does not reject the length of a key. -/
def LengthFine {α : Type} (r : Except Status α) : Prop := r ≠ .error tooLong ∧ r ≠ .error emptyKey

section

variable {α : Type} {key : Bytes} {value : RecordID} {page : Page} {index : Nat} {e : Status}

theorem lengthFine_ok (a : α) : LengthFine (.ok a : Except Status α) := ⟨nofun, nofun⟩

theorem lengthFine_of_code (h : e.code ≠ .invalidArgument) :
    LengthFine (.error e : Except Status α) := by
  constructor
  · intro he
    cases he
    exact h rfl
  · intro he
    cases he
    exact h rfl

theorem lengthFine_of_msg {msg : String} (hlong : str msg ≠ tooLong.msg)
    (hempty : str msg ≠ emptyKey.msg) :
    LengthFine (.error (.invalidArgument msg) : Except Status α) := by
  constructor
  · intro he
    exact hlong (congrArg Status.msg (Except.error.inj he))
  · intro he
    exact hempty (congrArg Status.msg (Except.error.inj he))

theorem LengthFine.error {β : Type} (h : LengthFine (.error e : Except Status α)) :
    LengthFine (.error e : Except Status β) :=
  ⟨fun he => h.1 (congrArg Except.error (Except.error.inj he)),
    fun he => h.2 (congrArg Except.error (Except.error.inj he))⟩

namespace HashIndexBucketPage

theorem readEntry_error (h : readEntry page index = .error e) : e.code ≠ .invalidArgument := by
  unfold readEntry at h
  split at h
  · cases h
    nofun
  · dsimp only at h
    split at h
    · cases h
      nofun
    · cases h

theorem readEntry_ok {entry : Entry} (h : readEntry page index = .ok entry) :
    entry.1.length ≤ maxKeyLength := by
  unfold readEntry at h
  split at h
  · cases h
  · dsimp only at h
    split at h
    · cases h
    · rename_i hlen
      cases h
      exact (Image.length_bytes _ _ _).trans_le (Nat.le_of_not_lt hlen)

theorem lengthFine_findPair : ∀ (left index : Nat),
    LengthFine (findPair page key value left index) := by
  intro left
  induction left with
  | zero => exact fun _ => lengthFine_ok false
  | succ left ih =>
    intro index
    rw [findPair]
    cases hread : readEntry page index with
    | error e => exact lengthFine_of_code (readEntry_error hread)
    | ok entry =>
      dsimp only
      split
      · exact lengthFine_ok true
      · exact ih _

theorem lengthFine_collectValues : ∀ (left index : Nat),
    LengthFine (collectValues page key left index) := by
  intro left
  induction left with
  | zero => exact fun _ => lengthFine_ok []
  | succ left ih =>
    intro index
    rw [collectValues]
    cases hread : readEntry page index with
    | error e => exact lengthFine_of_code (readEntry_error hread)
    | ok entry =>
      dsimp only
      have hrest := ih (index + 1)
      cases hcollect : collectValues page key left (index + 1) with
      | error e =>
        rw [hcollect] at hrest
        exact hrest
      | ok values => exact lengthFine_ok _

theorem lengthFine_getValue (h : key.length ≤ maxKeyLength) (page : Page) :
    LengthFine (getValue page key) := by
  rw [getValue, validateKey_ok h]
  dsimp only
  split
  · exact lengthFine_of_code nofun
  · have hcollect : LengthFine (collectValues page key (getEntryCount page) 0) :=
      lengthFine_collectValues _ _
    split
    · rename_i e he
      rw [he] at hcollect
      exact hcollect.error
    · exact lengthFine_of_code nofun
    · exact lengthFine_ok _

theorem lengthFine_writeEntry (h : key.length ≤ maxKeyLength) (page : Page) (index : Nat) :
    LengthFine (writeEntry page index key value).1 := by
  rw [writeEntry, validateKey_ok h]
  dsimp only
  split
  · exact lengthFine_of_msg (by decide) (by decide)
  · exact lengthFine_ok ()

theorem lengthFine_insert (h : key.length ≤ maxKeyLength) (page : Page) :
    LengthFine (insert page key value).1 := by
  rw [insert, validateKey_ok h]
  dsimp only
  split
  · exact lengthFine_of_code nofun
  split
  · exact lengthFine_of_msg (by decide) (by decide)
  have hfind : LengthFine (findPair page key value (getEntryCount page) 0) :=
    lengthFine_findPair _ _
  split
  · rename_i e he
    rw [he] at hfind
    exact hfind
  · exact lengthFine_ok false
  · split
    · exact lengthFine_of_code nofun
    · have hwrite : LengthFine (writeEntry page (getEntryCount page) key value).1 :=
        lengthFine_writeEntry h _ _
      split
      · rename_i e page' he
        rw [he] at hwrite
        exact hwrite.error
      · exact lengthFine_ok true

theorem lengthFine_removeEntry (page : Page) (index lastIndex : Nat) :
    LengthFine (removeEntry page index lastIndex).1 := by
  unfold removeEntry
  split
  · exact lengthFine_ok ()
  · cases hread : readEntry page lastIndex with
    | error e => exact lengthFine_of_code (readEntry_error hread)
    | ok entry =>
      have hwrite : LengthFine (writeEntry page index entry.1 entry.2).1 :=
        lengthFine_writeEntry (readEntry_ok hread) _ _
      dsimp only
      split
      · rename_i e page' he
        rw [he] at hwrite
        exact hwrite
      · exact lengthFine_ok ()

theorem lengthFine_removeLoop {value : Option RecordID} : ∀ (left : Nat) (page : Page)
    (index removed : Nat), LengthFine (removeLoop key value left page index removed).1 := by
  intro left
  induction left with
  | zero => exact fun _ _ _ => lengthFine_ok _
  | succ left ih =>
    intro page index removed
    rw [removeLoop]
    cases hread : readEntry page index with
    | error e => exact lengthFine_of_code (readEntry_error hread)
    | ok existing =>
      dsimp only
      split
      · exact ih _ _ _
      · have hentry := lengthFine_removeEntry page index (index + left)
        rcases hremove : removeEntry page index (index + left) with ⟨_ | _, page'⟩
        · rw [hremove] at hentry
          exact hentry.error
        · dsimp only
          split
          · exact lengthFine_ok _
          · exact ih _ _ _

theorem lengthFine_remove {value : Option RecordID} (h : key.length ≤ maxKeyLength) (page : Page) :
    LengthFine (remove page key value).1 := by
  rw [remove, validateKey_ok h]
  dsimp only
  split
  · exact lengthFine_of_code nofun
  · have hloop : LengthFine (removeLoop key value (getEntryCount page) page 0 0).1 :=
      lengthFine_removeLoop _ _ _ _
    rcases hremove : removeLoop key value (getEntryCount page) page 0 0 with
      ⟨_ | ⟨count, removed⟩, page'⟩
    · rw [hremove] at hloop
      exact hloop.error
    · dsimp only
      split
      · exact lengthFine_of_code nofun
      · exact lengthFine_ok _

end HashIndexBucketPage

namespace HashIndex

open HashIndexBucketPage

/-- Every answer of the program is fine. -/
abbrev AlwaysFine {α : Type} (x : Program (Except Status α)) : Prop := x.Always LengthFine

theorem alwaysFine_code (h : e.code ≠ .invalidArgument) :
    AlwaysFine (pure (.error e) : Program (Except Status α)) := lengthFine_of_code h

theorem alwaysFine_ioError (msg : String) :
    AlwaysFine (pure (.error (.ioError msg)) : Program (Except Status α)) :=
  alwaysFine_code nofun

theorem alwaysFine_getBucketPageId (h : key.length ≤ maxKeyLength) (header : PageId) :
    AlwaysFine (getBucketPageId header key) := by
  rw [getBucketPageId, if_neg (Nat.not_lt.mpr h)]
  apply always_fetchPage
  rintro (_ | ⟨f, data⟩)
  · exact alwaysFine_code nofun
  apply always_unpinPage (alwaysFine_ioError _)
  dsimp only
  split
  · exact alwaysFine_code nofun
  split
  · rename_i e he
    apply always_pure
    unfold HashIndexHeaderPage.getBucketPageId at he
    split at he
    · cases he
      exact lengthFine_of_code nofun
    split at he
    · cases he
      exact lengthFine_of_msg (by decide) (by decide)
    · cases he
  · exact lengthFine_ok _

theorem lengthFine_fillBucket (h : key.length ≤ maxKeyLength) (page : Page) :
    LengthFine (fillBucket page key value).1 := by
  unfold fillBucket HashIndexBucketPage.init
  split
  · rename_i e page' he
    split at he
    · cases he
      exact lengthFine_of_msg (by decide) (by decide)
    · cases he
  · rename_i page' he
    have hinsert : LengthFine (HashIndexBucketPage.insert page' key value).1 :=
      lengthFine_insert h _
    split
    · rename_i e page'' he
      rw [he] at hinsert
      exact hinsert.error
    · exact lengthFine_ok ()

theorem alwaysFine_newBucket (h : key.length ≤ maxKeyLength) (allocError unpinError : String) :
    AlwaysFine (newBucket key value allocError unpinError) := by
  unfold newBucket
  apply always_newPage
  rintro (_ | ⟨p, f, data⟩)
  · exact alwaysFine_code nofun
  have hfill : LengthFine (fillBucket (Page.view p data) key value).1 := lengthFine_fillBucket h _
  dsimp only
  apply always_putPage
  apply always_unpinPage (alwaysFine_ioError _)
  dsimp only
  split
  · rename_i e he
    rw [he] at hfill
    exact always_deletePage hfill.error hfill.error
  · exact lengthFine_ok _

theorem alwaysFine_linkBucket {link : Page → Except Status Unit × Page}
    (hlink : ∀ page, LengthFine (link page).1) (p q : PageId) (fetchError unpinError : String) :
    AlwaysFine (linkBucket p q link fetchError unpinError) := by
  unfold linkBucket
  apply always_fetchPage
  rintro (_ | ⟨f, data⟩)
  · exact always_deletePage (alwaysFine_code nofun) (alwaysFine_code nofun)
  have hlink := hlink (Page.view p data)
  dsimp only
  apply always_putPage
  apply always_unpinPage (alwaysFine_ioError _)
  dsimp only
  split
  · rename_i e he
    rw [he] at hlink
    exact always_deletePage hlink hlink
  · exact lengthFine_ok ()

theorem lengthFine_linkPrimary (bucketIndex : Nat) (p : PageId) (page : Page) :
    LengthFine (linkPrimary bucketIndex p page).1 := by
  unfold linkPrimary HashIndexHeaderPage.getBucketPageId HashIndexHeaderPage.setBucketPageId
  split
  · rename_i e he
    split at he
    · cases he
      exact lengthFine_of_code nofun
    split at he
    · cases he
      exact lengthFine_of_msg (by decide) (by decide)
    · cases he
  split
  · exact lengthFine_of_code nofun
  split
  · exact lengthFine_of_code nofun
  split
  · exact lengthFine_of_msg (by decide) (by decide)
  split
  · exact lengthFine_of_msg (by decide) (by decide)
  · exact lengthFine_ok ()

theorem lengthFine_linkOverflow (p : PageId) (page : Page) :
    LengthFine (linkOverflow p page).1 := by
  unfold linkOverflow
  split
  · exact lengthFine_of_code nofun
  split
  · exact lengthFine_of_code nofun
  unfold setOverflowPageId
  split
  · exact lengthFine_of_code nofun
  split
  · exact lengthFine_of_msg (by decide) (by decide)
  · exact lengthFine_ok ()

theorem alwaysFine_insertIntoPage (h : key.length ≤ maxKeyLength) (p : PageId) :
    AlwaysFine (insertIntoPage p key value) := by
  unfold insertIntoPage
  apply always_fetchPage
  rintro (_ | ⟨f, data⟩)
  · exact alwaysFine_code nofun
  have hinsert : LengthFine (HashIndexBucketPage.insert (Page.view p data) key value).1 :=
    lengthFine_insert h _
  dsimp only
  apply always_putPage
  split
  · rename_i e he
    rw [he] at hinsert
    exact always_unpinPage (alwaysFine_code nofun) hinsert.error
  · exact always_unpinPage (alwaysFine_code nofun) (lengthFine_ok ())

theorem alwaysFine_insertLoop (h : key.length ≤ maxKeyLength) : ∀ (fuel : Nat)
    (visited : List PageId) (current space last : PageId),
    AlwaysFine (insertLoop key value fuel visited current space last) := by
  intro fuel
  induction fuel with
  | zero => exact fun _ _ _ _ => trivial
  | succ fuel ih =>
    intro visited current space last
    rw [insertLoop]
    split
    · exact lengthFine_ok _
    split
    · exact alwaysFine_code nofun
    apply always_fetchPage
    rintro (_ | ⟨f, data⟩)
    · exact alwaysFine_code nofun
    dsimp only
    split
    · exact always_unpinPage (alwaysFine_code nofun) (alwaysFine_code nofun)
    have hget := lengthFine_getValue h (Page.view current data)
    split
    · rename_i e he
      rw [he] at hget
      split
      · exact always_unpinPage hget.error hget.error
      · exact always_unpinPage (alwaysFine_code nofun) (ih _ _ _ _)
    · apply always_unpinPage (alwaysFine_ioError _)
      dsimp only
      split
      · exact lengthFine_ok _
      · exact ih _ _ _ _

/-- An insert never rejects the length of the key. -/
theorem insert_always (hne : key ≠ []) (h : key.length ≤ maxKeyLength) (header : PageId)
    (value : RecordID) : AlwaysFine (insert header key value) := by
  rw [insert, if_neg hne]
  split
  · exact lengthFine_of_msg (by decide) (by decide)
  apply always_bind (alwaysFine_getBucketPageId h header)
  rintro (e | ⟨bucketIndex, bucketPageId⟩) hfine
  · exact hfine.error
  dsimp only
  split
  · apply always_bind (alwaysFine_newBucket h _ _)
    rintro (e | p) hfine
    · exact hfine.error
    · exact alwaysFine_linkBucket (lengthFine_linkPrimary bucketIndex p) _ _ _ _
  apply always_bind (alwaysFine_insertLoop h _ _ _ _ _)
  rintro (e | _ | ⟨space, last⟩) hfine
  · exact hfine.error
  · exact lengthFine_ok ()
  dsimp only
  split
  · exact alwaysFine_insertIntoPage h _
  split
  · exact alwaysFine_code nofun
  apply always_bind (alwaysFine_newBucket h _ _)
  rintro (e | p) hfine
  · exact hfine.error
  · exact alwaysFine_linkBucket (lengthFine_linkOverflow p) _ _ _ _

theorem alwaysFine_getValueLoop (h : key.length ≤ maxKeyLength) : ∀ (fuel : Nat)
    (visited : List PageId) (current : PageId) (result : List RecordID),
    AlwaysFine (getValueLoop key fuel visited current result) := by
  intro fuel
  induction fuel with
  | zero => exact fun _ _ _ => trivial
  | succ fuel ih =>
    intro visited current result
    rw [getValueLoop]
    split
    · exact lengthFine_ok _
    split
    · exact alwaysFine_code nofun
    apply always_fetchPage
    rintro (_ | ⟨f, data⟩)
    · exact alwaysFine_code nofun
    dsimp only
    split
    · exact always_unpinPage (alwaysFine_code nofun) (alwaysFine_code nofun)
    apply always_unpinPage (alwaysFine_ioError _)
    have hget := lengthFine_getValue h (Page.view current data)
    dsimp only
    split
    · rename_i e he
      rw [he] at hget
      split
      · exact hget.error
      · exact ih _ _ _
    · exact ih _ _ _

/-- A lookup never rejects the length of the key. -/
theorem getValue_always (h : key.length ≤ maxKeyLength) (header : PageId) :
    AlwaysFine (getValue header key) := by
  unfold getValue
  apply always_bind (alwaysFine_getBucketPageId h header)
  rintro (e | ⟨bucketIndex, bucketPageId⟩) hfine
  · exact hfine.error
  · exact alwaysFine_getValueLoop h _ _ _ _

theorem alwaysFine_removeLoop {value : Option RecordID} (h : key.length ≤ maxKeyLength) :
    ∀ (fuel : Nat) (visited : List PageId) (current : PageId) (totalRemoved : Nat),
    AlwaysFine (removeLoop key value fuel visited current totalRemoved) := by
  intro fuel
  induction fuel with
  | zero =>
    intro visited current totalRemoved
    rw [removeLoop]
    trivial
  | succ fuel ih =>
    have hnext : ∀ (visited : List PageId) (overflow : PageId) (totalRemoved : Nat),
        AlwaysFine (removeLoop.removeNext key value fuel visited overflow totalRemoved) := by
      intro visited overflow totalRemoved
      unfold removeLoop.removeNext
      split
      · exact lengthFine_ok _
      · exact ih _ _ _
    intro visited current totalRemoved
    rw [removeLoop]
    split
    · exact lengthFine_ok _
    split
    · exact alwaysFine_code (by decide)
    apply always_fetchPage
    rintro (_ | ⟨f, data⟩)
    · exact alwaysFine_code (by decide)
    dsimp only
    split
    · exact always_unpinPage (alwaysFine_code (by decide)) (alwaysFine_code (by decide))
    have hremove : LengthFine (HashIndexBucketPage.remove (Page.view current data) key value).1 :=
      lengthFine_remove h _
    apply always_putPage
    split
    · rename_i e he
      rw [he] at hremove
      apply always_unpinPage (alwaysFine_ioError _)
      dsimp only
      split
      · exact hremove.error
      · exact hnext _ _ _
    · exact always_unpinPage (alwaysFine_code (by decide)) (hnext _ _ _)

/-- A removal never rejects the length of the key. -/
theorem remove_always (h : key.length ≤ maxKeyLength) (header : PageId) (value : Option RecordID) :
    AlwaysFine (remove header key value) := by
  unfold remove
  apply always_bind (alwaysFine_getBucketPageId h header)
  rintro (e | ⟨bucketIndex, bucketPageId⟩) hfine
  · exact hfine.error
  dsimp only
  split
  · exact alwaysFine_code nofun
  apply always_bind (alwaysFine_removeLoop h _ _ _ _)
  rintro (e | totalRemoved) hfine
  · exact hfine.error
  dsimp only
  split
  · exact alwaysFine_code nofun
  · exact lengthFine_ok ()

end HashIndex

end

namespace IndexKey

/-- Two values that have keys have the same key exactly if they are the same. A key has 1 to 64
bytes, and no index rejects its length, whatever its pages are. -/
theorem encode_spec {v w : FieldValue} {k k' : Bytes} (hv : encode v = .ok k)
    (hw : encode w = .ok k') :
    (k = k' ↔ v = w) ∧ 1 ≤ k.length ∧ k.length ≤ HashIndexBucketPage.maxKeyLength ∧
      ∀ header, (∀ value, (HashIndex.insert header k value).Always LengthFine) ∧
        (∀ value, (HashIndex.remove header k value).Always LengthFine) ∧
        (HashIndex.getValue header k).Always LengthFine := by
  obtain ⟨hne, hlen⟩ := length_encode hv
  refine ⟨⟨fun heq => ?_, fun heq => ?_⟩, List.length_pos_iff.mpr hne, hlen,
    fun header => ⟨?_, ?_, ?_⟩⟩
  · exact encode_injective hv (heq ▸ hw)
  · rw [heq, hw] at hv
    exact (Except.ok.inj hv).symm
  · exact HashIndex.insert_always hne hlen header
  · exact HashIndex.remove_always hlen header
  · exact HashIndex.getValue_always hlen header

theorem encode_spec_texts : encode (.text [1]) = .ok [2, 1] ∧ encode (.boolean true) = .ok [3, 1] ∧
    (([2, 1] : Bytes) = [3, 1] ↔ FieldValue.text [1] = .boolean true) :=
  ⟨rfl, rfl, (encode_spec (v := .text [1]) (w := .boolean true) rfl rfl).1⟩

end IndexKey

end MiniDbms
