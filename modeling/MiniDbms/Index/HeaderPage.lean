import MiniDbms.Buffer.BufferPool
import Mathlib.Logic.Function.Basic

/-!
# Header page of a hash index

`HashIndexHeaderPage` of `index/hash_index_header_page.cpp`: a header of 16 bytes (magic
number, version, bucket count, maximal key length) and the directory, one page id for each
bucket.

`Stores d bucketCount directory`: the image `d` is an initialised header page with this
directory.
-/

namespace MiniDbms

open Lib

namespace HashIndexHeaderPage

/-- `MAGIC`, the bytes "HIX1". -/
def magic : Nat := 0x31495848

/-- `VERSION`. -/
def version : Nat := 1

/-- `MaxBucketCount`. -/
def maxBucketCount : Nat := (pageSize - 16) / 4

/-- Where the directory keeps the bucket. -/
def directoryOffset (index : Nat) : Nat := 16 + index * 4

/-- The loop of `Init`, with the number of buckets left. -/
def clearDirectory : Nat → Nat → PageData → PageData
  | 0, _, d => d
  | left + 1, index, d =>
    clearDirectory left (index + 1) (PageData.writePageId d (directoryOffset index) invalidPageId)

/-- `HashIndexHeaderPage::Init`. -/
def init (page : Page) (bucketCount maxKeyLength : Nat) : Except Status Unit × Page :=
  if page.pageId = invalidPageId then
    (.error (.invalidArgument "Hash index header requires a valid page"), page)
  else if bucketCount = 0 ∨ maxBucketCount < bucketCount then
    (.error (.invalidArgument "Invalid hash index bucket count"), page)
  else if maxKeyLength = 0 then
    (.error (.invalidArgument "Hash index key length must be greater than zero"), page)
  else
    let d := ((Image.zero : PageData).writeNat 0 4 magic).writeNat 4 2 version
    let d := (d.writeNat 6 2 bucketCount).writeNat 8 2 maxKeyLength
    (.ok (),
      { page with data := clearDirectory bucketCount 0 (d.writeNat 10 2 0), isDirty := true })

/-- `HashIndexHeaderPage::IsInitialized`. -/
def isInitialized (page : Page) : Bool :=
  page.data.readNat 0 4 = magic ∧ page.data.readNat 4 2 = version ∧
    0 < page.data.readNat 6 2 ∧ page.data.readNat 6 2 ≤ maxBucketCount

def getBucketCount (page : Page) : Nat :=
  if isInitialized page then page.data.readNat 6 2 else 0

def getMaxKeyLength (page : Page) : Nat :=
  if isInitialized page then page.data.readNat 8 2 else 0

/-- `HashIndexHeaderPage::GetBucketPageId`. -/
def getBucketPageId (page : Page) (index : Nat) : Except Status PageId :=
  if !isInitialized page then .error (.ioError "Hash index header page is not initialized")
  else if getBucketCount page ≤ index then
    .error (.invalidArgument "Bucket index is out of range")
  else .ok (PageData.readPageId page.data (directoryOffset index))

/-- `HashIndexHeaderPage::SetBucketPageId`. -/
def setBucketPageId (page : Page) (index : Nat) (bucketPageId : PageId) :
    Except Status Unit × Page :=
  if !isInitialized page then
    (.error (.ioError "Hash index header page is not initialized"), page)
  else if getBucketCount page ≤ index then
    (.error (.invalidArgument "Bucket index is out of range"), page)
  else if bucketPageId = 0 ∨ bucketPageId.toInt < invalidPageId.toInt then
    (.error (.invalidArgument "Invalid bucket page id"), page)
  else
    (.ok (), { page with
      data := PageData.writePageId page.data (directoryOffset index) bucketPageId
      isDirty := true })

/-! ## What a header page holds -/

/-- The image of an initialised header page of an index with keys of at most 64 bytes. -/
structure Stores (d : PageData) (bucketCount : Nat) (directory : Nat → PageId) : Prop where
  magic : d.readNat 0 4 = magic
  version : d.readNat 4 2 = version
  count : d.readNat 6 2 = bucketCount
  keyLength : d.readNat 8 2 = 64
  pos : 0 < bucketCount
  le : bucketCount ≤ 1020
  entry : ∀ i, i < bucketCount → PageData.readPageId d (directoryOffset i) = directory i

section

variable {d : PageData} {bucketCount i : Nat} {directory : Nat → PageId} {page : Page}

theorem Stores.isInitialized (h : Stores page.data bucketCount directory) :
    isInitialized page = true := by
  simp only [HashIndexHeaderPage.isInitialized, decide_eq_true_eq]
  rw [h.magic, h.version, h.count]
  exact ⟨rfl, rfl, h.pos, h.le⟩

theorem Stores.getBucketCount (h : Stores page.data bucketCount directory) :
    getBucketCount page = bucketCount := by
  rw [HashIndexHeaderPage.getBucketCount, if_pos h.isInitialized, h.count]

theorem Stores.getMaxKeyLength (h : Stores page.data bucketCount directory) :
    getMaxKeyLength page = 64 := by
  rw [HashIndexHeaderPage.getMaxKeyLength, if_pos h.isInitialized, h.keyLength]

theorem Stores.getBucketPageId (h : Stores page.data bucketCount directory) (hi : i < bucketCount) :
    getBucketPageId page i = .ok (directory i) := by
  rw [HashIndexHeaderPage.getBucketPageId, h.isInitialized, h.getBucketCount, if_neg (by decide),
    if_neg (by omega), h.entry i hi]

theorem directoryOffset_le (hi : i < 1020) : directoryOffset i + 4 ≤ 4096 := by
  unfold directoryOffset
  omega

/-- Writing one entry of the directory changes nothing else. -/
theorem bytes_writeDirectory (d : PageData) (p : PageId) (hi : i < 1020) {off len : Nat}
    (hd : off + len ≤ directoryOffset i ∨ directoryOffset i + 4 ≤ off) :
    (PageData.writePageId d (directoryOffset i) p).bytes off len = d.bytes off len := by
  have hfit := directoryOffset_le hi
  exact Image.bytes_writeNat_of_disjoint _ (show _ ≤ 4096 by omega) hd

theorem Stores.write (h : Stores d bucketCount directory) (hi : i < bucketCount) (p : PageId) :
    Stores (PageData.writePageId d (directoryOffset i) p) bucketCount
      (Function.update directory i p) := by
  have hle := h.le
  have hlt : i < 1020 := by omega
  have hhead : ∀ {off len : Nat}, off + len ≤ 16 →
      (PageData.writePageId d (directoryOffset i) p).bytes off len = d.bytes off len :=
    fun hd => bytes_writeDirectory d p hlt (.inl (by unfold directoryOffset; omega))
  refine ⟨?_, ?_, ?_, ?_, h.pos, h.le, fun j hj => ?_⟩
  · exact (Image.readNat_congr (hhead (by omega))).trans h.magic
  · exact (Image.readNat_congr (hhead (by omega))).trans h.version
  · exact (Image.readNat_congr (hhead (by omega))).trans h.count
  · exact (Image.readNat_congr (hhead (by omega))).trans h.keyLength
  · have hfit := directoryOffset_le hlt
    by_cases hji : j = i
    · subst hji
      rw [Function.update_self]
      exact PageData.readPageId_writePageId_same _ _ (show _ ≤ 4096 by omega)
    · rw [Function.update_of_ne hji, ← h.entry j hj]
      apply PageData.readPageId_congr
      apply Image.readNat_congr
      apply bytes_writeDirectory d p hlt
      unfold directoryOffset
      omega

theorem setBucketPageId_stores {p : PageId} (h : Stores page.data bucketCount directory)
    (hi : i < bucketCount) (hpos : 0 < p.toInt) :
    ∃ d, setBucketPageId page i p = (.ok (), { page with data := d, isDirty := true }) ∧
      Stores d bucketCount (Function.update directory i p) := by
  have hcond : ¬ (p = 0 ∨ p.toInt < invalidPageId.toInt) := by
    rw [toInt_invalidPageId]
    rintro (rfl | hlt)
    · exact absurd hpos (by decide)
    · omega
  refine ⟨_, ?_, h.write hi p⟩
  rw [setBucketPageId, h.isInitialized, h.getBucketCount, if_neg (by decide), if_neg (by omega),
    if_neg hcond]

/-- The loop of `init` clears the directory from `index` on and changes nothing before it. -/
theorem clearDirectory_spec (left : Nat) :
    ∀ (index : Nat) (d : PageData), index + left ≤ 1020 →
      (clearDirectory left index d).bytes 0 (directoryOffset index) =
          d.bytes 0 (directoryOffset index) ∧
        ∀ i, index ≤ i → i < index + left →
          PageData.readPageId (clearDirectory left index d) (directoryOffset i) =
            invalidPageId := by
  induction left with
  | zero =>
    intro index d _
    refine ⟨rfl, fun i hlo hup => ?_⟩
    omega
  | succ left ih =>
    intro index d hle
    have hlt : index < 1020 := by omega
    have hfit := directoryOffset_le hlt
    obtain ⟨hhead, hrest⟩ := ih (index + 1)
      (PageData.writePageId d (directoryOffset index) invalidPageId) (by omega)
    refine ⟨?_, fun i hlo hup => ?_⟩
    · refine (Image.bytes_sub hhead (le_refl _) (by unfold directoryOffset; omega)).trans ?_
      exact bytes_writeDirectory d _ hlt (.inl (by omega))
    · rcases Nat.eq_or_lt_of_le hlo with rfl | hlo
      · rw [clearDirectory]
        refine (PageData.readPageId_congr
          (Image.readNat_congr (Image.bytes_sub hhead (Nat.zero_le _)
          ?_))).trans (PageData.readPageId_writePageId_same d invalidPageId
            (show _ ≤ 4096 by omega))
        unfold directoryOffset
        omega
      · exact hrest i hlo (by omega)

theorem init_stores (page : Page) (hid : page.pageId ≠ invalidPageId) (hpos : 0 < bucketCount)
    (hle : bucketCount ≤ 1020) :
    ∃ d, init page bucketCount 64 = (.ok (), { page with data := d, isDirty := true }) ∧
      Stores d bucketCount fun _ => invalidPageId := by
  unfold init
  rw [if_neg hid, if_neg (by show ¬ (_ ∨ 1020 < _); omega), if_neg (by decide)]
  obtain ⟨hhead, hdir⟩ := clearDirectory_spec bucketCount 0
    ((((((Image.zero : PageData).writeNat 0 4 HashIndexHeaderPage.magic).writeNat 4 2
      HashIndexHeaderPage.version).writeNat 6 2 bucketCount).writeNat 8 2 64).writeNat 10 2 0)
        (by omega)
  have hsub : ∀ {off len : Nat}, off + len ≤ 16 → _ := fun {off len} hup =>
    Image.readNat_congr (Image.bytes_sub hhead (Nat.zero_le off)
      (show off + len ≤ 0 + 16 by omega))
  refine ⟨_, rfl, ⟨?_, ?_, ?_, ?_, hpos, hle, fun i hi => hdir i (Nat.zero_le _) (by omega)⟩⟩
  · refine (hsub (by decide)).trans ?_
    rw [Image.readNat_writeNat_of_disjoint _ (by decide) (by decide),
      Image.readNat_writeNat_of_disjoint _ (by decide) (by decide),
      Image.readNat_writeNat_of_disjoint _ (by decide) (by decide),
      Image.readNat_writeNat_of_disjoint _ (by decide) (by decide),
      Image.readNat_writeNat_same _ (by decide)]
    rfl
  · refine (hsub (by decide)).trans ?_
    rw [Image.readNat_writeNat_of_disjoint _ (by decide) (by decide),
      Image.readNat_writeNat_of_disjoint _ (by decide) (by decide),
      Image.readNat_writeNat_of_disjoint _ (by decide) (by decide),
      Image.readNat_writeNat_same _ (by decide)]
    rfl
  · refine (hsub (by decide)).trans ?_
    rw [Image.readNat_writeNat_of_disjoint _ (by decide) (by decide),
      Image.readNat_writeNat_of_disjoint _ (by decide) (by decide),
      Image.readNat_writeNat_same _ (by decide)]
    exact Nat.mod_eq_of_lt (show _ < 65536 by omega)
  · refine (hsub (by decide)).trans ?_
    rw [Image.readNat_writeNat_of_disjoint _ (by decide) (by decide),
      Image.readNat_writeNat_same _ (by decide)]
    rfl

end

end HashIndexHeaderPage

end MiniDbms
