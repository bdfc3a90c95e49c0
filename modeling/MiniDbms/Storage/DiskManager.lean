import MiniDbms.Common.Types

/-!
# The disk manager

`DiskManager` of `storage/disk_manager.cpp`: a file of pages, the number of pages in it
(`num_pages_`) and the set of free page ids (`free_pages_`, a `std::set`, here a list in
increasing order).

Whether a physical access succeeds is not decided by the program: `DiskFaults` says for
each kind of access which of the accesses numbered `0, 1, 2, …` fail, and `ops` counts
the accesses made so far. A failed access leaves the file as it was. The file cannot
grow past the largest `PageId`: the increment of `num_pages_` would overflow there, and
the model lets the write that needs it fail.
-/

namespace MiniDbms

open Lib

/-- Which physical accesses fail, by kind and by number. -/
structure DiskFaults where
  read : Nat → Bool
  write : Nat → Bool
  allocate : Nat → Bool
  deallocate : Nat → Bool

/-- No access to an existing page fails. Allocations may. -/
structure DiskFaults.Reliable (f : DiskFaults) : Prop where
  read : ∀ n, f.read n = false
  write : ∀ n, f.write n = false
  deallocate : ∀ n, f.deallocate n = false

/-- No access fails. -/
def DiskFaults.none : DiskFaults where
  read _ := false
  write _ := false
  allocate _ := false
  deallocate _ := false

theorem DiskFaults.none_reliable : DiskFaults.none.Reliable :=
  ⟨fun _ => rfl, fun _ => rfl, fun _ => rfl⟩

/-- The largest `PageId`, which bounds the number of pages of a file. -/
def maxPages : Nat := 2147483647

/-! ## The free set -/

/-- `std::set<PageId>::insert` on the elements in increasing order. -/
def insertPageId (p : PageId) : List PageId → List PageId
  | [] => [p]
  | q :: qs =>
    if p.toInt < q.toInt then p :: q :: qs
    else if p = q then q :: qs
    else q :: insertPageId p qs

@[simp] theorem mem_insertPageId {p q : PageId} {l : List PageId} :
    q ∈ insertPageId p l ↔ q = p ∨ q ∈ l := by
  induction l with
  | nil => simp [insertPageId]
  | cons a l ih =>
    unfold insertPageId
    split
    · simp
    · split
      · rename_i h
        subst h
        simp
      · simp only [List.mem_cons, ih]
        tauto

theorem pairwise_insertPageId {p : PageId} {l : List PageId}
    (h : l.Pairwise fun a b => a.toInt < b.toInt) :
    (insertPageId p l).Pairwise fun a b => a.toInt < b.toInt := by
  induction l with
  | nil => simp [insertPageId]
  | cons a l ih =>
    obtain ⟨ha, hl⟩ := List.pairwise_cons.mp h
    unfold insertPageId
    split
    · rename_i hlt
      refine List.pairwise_cons.mpr ⟨fun b hb => ?_, h⟩
      rcases List.mem_cons.mp hb with rfl | hb
      · exact hlt
      · exact lt_trans hlt (ha b hb)
    · split
      · exact h
      · rename_i hle hne
        refine List.pairwise_cons.mpr ⟨fun b hb => ?_, ih hl⟩
        rcases mem_insertPageId.mp hb with rfl | hb
        · have : a.toInt ≠ b.toInt := fun he => hne (Int32.toInt_inj.mp he.symm)
          omega
        · exact ha b hb

/-! ## The file -/

structure DiskManager where
  /-- The file, page by page. -/
  pages : PageId → PageData
  numPages : Nat
  freePages : List PageId
  faults : DiskFaults
  ops : Nat
  numPages_pos : 0 < numPages
  numPages_le : numPages ≤ maxPages
  free_sorted : freePages.Pairwise fun a b => a.toInt < b.toInt
  free_range : ∀ p ∈ freePages, 0 < p.toInt ∧ p.toInt < numPages

namespace DiskManager

/-- A page id that belongs to the file and is not free. -/
def Allocated (d : DiskManager) (p : PageId) : Prop :=
  0 ≤ p.toInt ∧ p.toInt < d.numPages ∧ p ∉ d.freePages

instance (d : DiskManager) (p : PageId) : Decidable (d.Allocated p) :=
  inferInstanceAs (Decidable (_ ∧ _ ∧ _))

/-- One more access has been made. -/
def tick (d : DiskManager) : DiskManager := { d with ops := d.ops + 1 }

/-- The bytes of a page of the file are replaced. -/
def setPage (d : DiskManager) (p : PageId) (data : PageData) : DiskManager :=
  { d with pages := Function.update d.pages p data }

/-- The file grows by one page. -/
def grow (d : DiskManager) (h : d.numPages + 1 ≤ maxPages) : DiskManager where
  pages := d.pages
  numPages := d.numPages + 1
  freePages := d.freePages
  faults := d.faults
  ops := d.ops
  numPages_pos := Nat.succ_pos _
  numPages_le := h
  free_sorted := d.free_sorted
  free_range p hp := by
    have := d.free_range p hp
    push_cast
    omega

/-- `DiskManager::WritePage`. -/
def writePage (d : DiskManager) (p : PageId) (data : PageData) :
    Except Status Unit × DiskManager :=
  if p.toInt < 0 then
    (.error (.invalidArgument "Page id cannot be negative"), d)
  else if d.numPages < p.toInt then
    (.error (.invalidArgument "Cannot write beyond the next available page"), d)
  else if d.faults.write d.ops then
    (.error (.ioError "Could not write page to disk"), d.tick)
  else if p.toInt = d.numPages then
    if h : d.numPages + 1 ≤ maxPages then
      (.ok (), ((d.grow h).setPage p data).tick)
    else
      (.error (.ioError "Could not write page to disk"), d.tick)
  else
    (.ok (), (d.setPage p data).tick)

/-- `DiskManager::ReadPage`. -/
def readPage (d : DiskManager) (p : PageId) : Except Status PageData × DiskManager :=
  if p.toInt < 0 then
    (.error (.invalidArgument "Page id cannot be negative"), d)
  else if d.numPages ≤ p.toInt then
    (.error (.notFound "Page does not exist"), d)
  else if d.faults.read d.ops then
    (.error (.ioError "Could not read a complete page"), d.tick)
  else
    (.ok (d.pages p), d.tick)

/-- The id that the next allocation hands out: the first free id, else the end of the file. -/
def nextPageId (d : DiskManager) : PageId :=
  match d.freePages with
  | p :: _ => p
  | [] => Int32.ofNat d.numPages

/-- The first free id is taken out of the free set. -/
def takeFree (d : DiskManager) (rest : List PageId) (h : rest <:+ d.freePages) : DiskManager where
  pages := d.pages
  numPages := d.numPages
  freePages := rest
  faults := d.faults
  ops := d.ops
  numPages_pos := d.numPages_pos
  numPages_le := d.numPages_le
  free_sorted := d.free_sorted.sublist h.sublist
  free_range p hp := d.free_range p (h.subset hp)

/-- `DiskManager::AllocatePage`; `none` is `INVALID_PAGE_ID`. -/
def allocatePage (d : DiskManager) : Option PageId × DiskManager :=
  if d.faults.allocate d.ops then
    -- the free set is as before: the id taken from it is put back
    (none, d.tick)
  else
    match h : d.freePages with
    | p :: rest =>
      (some p, ((d.takeFree rest (h ▸ List.suffix_cons p rest)).setPage p Image.zero).tick)
    | [] =>
      if hg : d.numPages + 1 ≤ maxPages then
        (some (Int32.ofNat d.numPages),
          ((d.grow hg).setPage (Int32.ofNat d.numPages) Image.zero).tick)
      else
        (none, d.tick)

/-- A page of the file joins the free set. -/
def addFree (d : DiskManager) (p : PageId) (hp : 0 < p.toInt) (hlt : p.toInt < d.numPages) :
    DiskManager where
  pages := d.pages
  numPages := d.numPages
  freePages := insertPageId p d.freePages
  faults := d.faults
  ops := d.ops
  numPages_pos := d.numPages_pos
  numPages_le := d.numPages_le
  free_sorted := pairwise_insertPageId d.free_sorted
  free_range q hq := by
    rcases mem_insertPageId.mp hq with rfl | hq
    · exact ⟨hp, hlt⟩
    · exact d.free_range q hq

/-- `DiskManager::DeallocatePage`. -/
def deallocatePage (d : DiskManager) (p : PageId) : DiskManager :=
  if hp : 0 < p.toInt then
    if hlt : p.toInt < d.numPages then
      if p ∈ d.freePages then d
      else if d.faults.deallocate d.ops then d.tick
      else ((d.addFree p hp hlt).setPage p Image.zero).tick
    else d
  else d

/-- Whether all bytes of a page are zero. -/
def isZeroPage (data : PageData) : Bool := (List.range pageSize).all fun i => data.get i == 0

/-- The ids `1, …, n - 1` in order. -/
def dataPageIds (n : Nat) : List PageId := (List.range' 1 (n - 1)).map Int32.ofNat

theorem toInt_ofNat_of_le {i : Nat} (h : i ≤ maxPages) : (Int32.ofNat i).toInt = i :=
  Int32.toInt_ofNat_of_lt (by unfold maxPages at h; omega)

theorem mem_dataPageIds {n : Nat} (hn : n ≤ maxPages) {p : PageId} :
    p ∈ dataPageIds n ↔ 0 < p.toInt ∧ p.toInt < n := by
  simp only [dataPageIds, List.mem_map, List.mem_range'_1]
  constructor
  · rintro ⟨i, hi, rfl⟩
    rw [toInt_ofNat_of_le (by omega)]
    omega
  · rintro ⟨hlo, hup⟩
    refine ⟨p.toInt.toNat, by omega, ?_⟩
    apply Int32.toInt.inj
    rw [toInt_ofNat_of_le (by omega)]
    omega

theorem pairwise_dataPageIds {n : Nat} (hn : n ≤ maxPages) :
    (dataPageIds n).Pairwise fun a b => a.toInt < b.toInt := by
  rw [dataPageIds, List.pairwise_map]
  refine List.Pairwise.imp_of_mem (fun {a b} ha hb hab => ?_) List.pairwise_lt_range'
  simp only [List.mem_range'_1] at ha hb
  rw [toInt_ofNat_of_le (by omega), toInt_ofNat_of_le (by omega)]
  exact_mod_cast hab

/-- The constructor on a file of `n` pages: an empty file gets page 0, and every page of
zeros from page 1 on is free. Accesses are numbered from 0; a failed one throws. -/
def openFile (file : PageId → PageData) (n : Nat) (hn : n ≤ maxPages) (faults : DiskFaults) :
    Option DiskManager :=
  if hz : n = 0 then
    if faults.write 0 then none
    else some
      { pages := Function.update file headerPageId Image.zero
        numPages := 1
        freePages := []
        faults := faults
        ops := 1
        numPages_pos := Nat.one_pos
        numPages_le := by decide
        free_sorted := List.Pairwise.nil
        free_range := by simp }
  else if (List.range (n - 1)).any faults.read then none
  else some
    { pages := file
      numPages := n
      freePages := (dataPageIds n).filter fun p => isZeroPage (file p)
      faults := faults
      ops := n - 1
      numPages_pos := Nat.pos_of_ne_zero hz
      numPages_le := hn
      free_sorted := (pairwise_dataPageIds hn).filter _
      free_range := fun p hp => (mem_dataPageIds hn).mp (List.mem_of_mem_filter hp) }

/-- The manager of a file that did not exist before. -/
def newFile (faults : DiskFaults) : DiskManager where
  pages _ := Image.zero
  numPages := 1
  freePages := []
  faults := faults
  ops := 1
  numPages_pos := Nat.one_pos
  numPages_le := by decide
  free_sorted := List.Pairwise.nil
  free_range := by simp

/-- Opening an empty file without a fault gives the manager of a new file. -/
theorem openFile_empty (faults : DiskFaults) (h : faults.write 0 = false) :
    openFile (fun _ => Image.zero) 0 (Nat.zero_le _) faults = some (newFile faults) := by
  simp [openFile, h, newFile]

/-! ## What an access does -/

variable {d d' : DiskManager} {p : PageId}

@[simp] theorem pages_tick (d : DiskManager) : d.tick.pages = d.pages := rfl
@[simp] theorem numPages_tick (d : DiskManager) : d.tick.numPages = d.numPages := rfl
@[simp] theorem freePages_tick (d : DiskManager) : d.tick.freePages = d.freePages := rfl
@[simp] theorem faults_tick (d : DiskManager) : d.tick.faults = d.faults := rfl
@[simp] theorem pages_setPage (d : DiskManager) (p : PageId) (data : PageData) :
    (d.setPage p data).pages = Function.update d.pages p data := rfl
@[simp] theorem numPages_setPage (d : DiskManager) (p : PageId) (data : PageData) :
    (d.setPage p data).numPages = d.numPages := rfl
@[simp] theorem freePages_setPage (d : DiskManager) (p : PageId) (data : PageData) :
    (d.setPage p data).freePages = d.freePages := rfl
@[simp] theorem faults_setPage (d : DiskManager) (p : PageId) (data : PageData) :
    (d.setPage p data).faults = d.faults := rfl

/-- Apart from the bytes of its pages, `d'` is `d`. -/
structure SameShape (d d' : DiskManager) : Prop where
  numPages : d'.numPages = d.numPages
  freePages : d'.freePages = d.freePages
  faults : d'.faults = d.faults

theorem SameShape.refl (d : DiskManager) : SameShape d d := ⟨rfl, rfl, rfl⟩

theorem SameShape.trans {d₁ d₂ d₃ : DiskManager} (h : SameShape d₁ d₂) (h' : SameShape d₂ d₃) :
    SameShape d₁ d₃ :=
  ⟨h'.numPages.trans h.numPages, h'.freePages.trans h.freePages, h'.faults.trans h.faults⟩

theorem SameShape.allocated (h : SameShape d d') (p : PageId) : d'.Allocated p ↔ d.Allocated p := by
  simp only [Allocated, h.numPages, h.freePages]

/-- A write to a page of the file replaces its bytes, or fails and changes nothing. -/
theorem writePage_cases (h0 : 0 ≤ p.toInt) (hlt : p.toInt < d.numPages) (data : PageData) :
    d.writePage p data = (.ok (), (d.setPage p data).tick) ∨
      (d.faults.write d.ops = true ∧ ∃ e, d.writePage p data = (.error e, d.tick)) := by
  unfold writePage
  rw [if_neg (by omega), if_neg (by omega)]
  split
  · rename_i hf
    exact .inr ⟨hf, _, rfl⟩
  · rw [if_neg (by omega)]
    exact .inl rfl

theorem writePage_reliable (hd : d.faults.Reliable) (h0 : 0 ≤ p.toInt) (hlt : p.toInt < d.numPages)
    (data : PageData) : d.writePage p data = (.ok (), (d.setPage p data).tick) := by
  rcases writePage_cases h0 hlt data with h | ⟨hf, _⟩
  · exact h
  · rw [hd.write] at hf
    cases hf

/-- A read returns the bytes of a page of the file, or fails; it never changes the file. -/
theorem readPage_cases (d : DiskManager) (p : PageId) :
    (d.readPage p = (.ok (d.pages p), d.tick) ∧ 0 ≤ p.toInt ∧ p.toInt < d.numPages) ∨
      ∃ e d', d.readPage p = (.error e, d') ∧ (d' = d ∨ d' = d.tick) ∧
        (d.faults.read d.ops = true ∨ ¬ (0 ≤ p.toInt ∧ p.toInt < d.numPages)) := by
  unfold readPage
  split
  · exact .inr ⟨_, _, rfl, .inl rfl, .inr (by omega)⟩
  · split
    · exact .inr ⟨_, _, rfl, .inl rfl, .inr (by omega)⟩
    · split
      · rename_i hf
        exact .inr ⟨_, _, rfl, .inr rfl, .inl hf⟩
      · exact .inl ⟨rfl, by omega, by omega⟩

/-- What a successful allocation does: a page that was not allocated becomes one of zeros. -/
structure Allocates (d : DiskManager) (p : PageId) (d' : DiskManager) : Prop where
  id : p = d.nextPageId
  pages : d'.pages = Function.update d.pages p Image.zero
  faults : d'.faults = d.faults
  numPages_le : d.numPages ≤ d'.numPages
  pos : 0 < p.toInt
  fresh : ¬ d.Allocated p
  allocated : ∀ x, d'.Allocated x ↔ x = p ∨ d.Allocated x

theorem allocates_free {rest : List PageId} (h : d.freePages = p :: rest)
    (hs : rest <:+ d.freePages) :
    Allocates d p ((d.takeFree rest hs).setPage p Image.zero).tick := by
  have hmem : p ∈ d.freePages := by rw [h]; exact List.mem_cons_self
  have hrange := d.free_range p hmem
  have hsorted := d.free_sorted
  rw [h] at hsorted
  have hp : p ∉ rest := fun hin => by
    have := (List.pairwise_cons.mp hsorted).1 p hin
    omega
  refine ⟨by rw [nextPageId, h], rfl, rfl, le_refl _, hrange.1, fun ha => ha.2.2 hmem, fun x => ?_⟩
  show (0 ≤ x.toInt ∧ x.toInt < d.numPages ∧ x ∉ rest) ↔ _
  simp only [Allocated, h, List.mem_cons, not_or]
  constructor
  · rintro ⟨h0, h1, h2⟩
    by_cases hx : x = p
    · exact .inl hx
    · exact .inr ⟨h0, h1, hx, h2⟩
  · rintro (rfl | ⟨h0, h1, -, h2⟩)
    · exact ⟨by omega, hrange.2, hp⟩
    · exact ⟨h0, h1, h2⟩

theorem allocates_grow (h : d.freePages = []) (hg : d.numPages + 1 ≤ maxPages) :
    Allocates d (Int32.ofNat d.numPages)
      ((d.grow hg).setPage (Int32.ofNat d.numPages) Image.zero).tick := by
  have hid : (Int32.ofNat d.numPages).toInt = d.numPages := toInt_ofNat_of_le (by omega)
  have hpos := d.numPages_pos
  refine ⟨by rw [nextPageId, h], rfl, rfl, Nat.le_succ _, by omega, fun ha => ?_, fun x => ?_⟩
  · have := ha.2.1
    omega
  · show (0 ≤ x.toInt ∧ x.toInt < ((d.numPages + 1 : Nat) : Int) ∧ x ∉ d.freePages) ↔ _
    simp only [Allocated, h, List.not_mem_nil, not_false_eq_true, and_true, ← Int32.toInt_inj, hid]
    omega

theorem allocatePage_some (h : d.allocatePage = (some p, d')) : Allocates d p d' := by
  unfold allocatePage at h
  split at h
  · cases h
  · split at h
    · rename_i q rest hq
      cases h
      exact allocates_free hq _
    · rename_i hq
      split at h
      · cases h
        exact allocates_grow hq _
      · cases h

/-- An allocation fails by a fault, or because the file cannot grow. -/
def CannotAllocate (d : DiskManager) : Prop :=
  (∃ n, d.faults.allocate n = true) ∨ (d.freePages = [] ∧ d.numPages = maxPages)

theorem SameShape.cannotAllocate (h : SameShape d d') :
    d'.CannotAllocate ↔ d.CannotAllocate := by
  simp only [CannotAllocate, h.numPages, h.freePages, h.faults]

theorem allocatePage_none (h : d.allocatePage = (none, d')) : d' = d.tick ∧ d.CannotAllocate := by
  unfold allocatePage at h
  split at h
  · rename_i hf
    cases h
    exact ⟨rfl, .inl ⟨_, hf⟩⟩
  · split at h
    · cases h
    · rename_i hnil
      split at h
      · cases h
      · rename_i hfull
        cases h
        have := d.numPages_le
        exact ⟨rfl, .inr ⟨hnil, by omega⟩⟩

theorem nextPageId_not_allocated (d : DiskManager) : ¬ d.Allocated d.nextPageId := by
  intro ha
  unfold nextPageId at ha
  split at ha
  · rename_i p rest hp
    exact ha.2.2 (by rw [hp]; exact List.mem_cons_self)
  · rename_i hnil
    have hlt := ha.2.1
    rw [toInt_ofNat_of_le d.numPages_le] at hlt
    omega

/-- What `DeallocatePage` does to an allocated page other than page 0. -/
structure Deallocates (d : DiskManager) (p : PageId) (d' : DiskManager) : Prop where
  pages : d'.pages = Function.update d.pages p Image.zero
  faults : d'.faults = d.faults
  numPages : d'.numPages = d.numPages
  allocated : ∀ x, d'.Allocated x ↔ x ≠ p ∧ d.Allocated x

theorem deallocatePage_allocated (hd : d.faults.Reliable) (hp : 0 < p.toInt)
    (ha : d.Allocated p) : Deallocates d p (d.deallocatePage p) := by
  unfold deallocatePage
  rw [dif_pos hp, dif_pos ha.2.1, if_neg ha.2.2, hd.deallocate]
  refine ⟨rfl, rfl, rfl, fun x => ?_⟩
  show (0 ≤ x.toInt ∧ x.toInt < d.numPages ∧ x ∉ insertPageId p d.freePages) ↔ _
  simp only [Allocated, mem_insertPageId, not_or]
  tauto

/-- `DeallocatePage` changes nothing for a page that is not allocated and for page 0. -/
theorem deallocatePage_of_not (h : ¬ (0 < p.toInt ∧ d.Allocated p)) : d.deallocatePage p = d := by
  unfold deallocatePage
  split
  · rename_i hp
    split
    · rename_i hlt
      rw [if_pos]
      by_contra hfree
      exact h ⟨hp, by omega, hlt, hfree⟩
    · rfl
  · rfl

theorem deallocatePage_faults (d : DiskManager) (p : PageId) :
    (d.deallocatePage p).faults = d.faults := by
  unfold deallocatePage
  repeat' split
  all_goals rfl

theorem deallocatePage_numPages (d : DiskManager) (p : PageId) :
    (d.deallocatePage p).numPages = d.numPages := by
  unfold deallocatePage
  repeat' split
  all_goals rfl

end DiskManager

end MiniDbms
