import MiniDbms.Buffer.PoolInvariant

/-!
# What calls of the pool do to the shape of the disk

The number of pages and the free pages (`SameShape`) change in `NewPage` and `DeletePage` only. What
these two do depends on nothing but the shape of the disk, when no access fails and some frame is
free or evictable (`sameShape_newPage`, `SameShape.deallocatePage`).
-/

namespace MiniDbms

open Lib

/-- No access and no allocation fails. -/
structure DiskFaults.Perfect (f : DiskFaults) : Prop extends f.Reliable where
  allocate : ∀ n, f.allocate n = false

theorem DiskFaults.none_perfect : DiskFaults.none.Perfect :=
  ⟨DiskFaults.none_reliable, fun _ => rfl⟩

namespace DiskManager

variable {d d' : DiskManager} {p : PageId}

theorem mem_freePages_iff : p ∈ d.freePages ↔
    0 < p.toInt ∧ p.toInt < d.numPages ∧ ¬ d.Allocated p := by
  constructor
  · intro hp
    have hrange := d.free_range p hp
    exact ⟨hrange.1, hrange.2, fun ha => ha.2.2 hp⟩
  · intro hp
    by_contra hnot
    exact hp.2.2 ⟨hp.1.le, hp.2.1, hnot⟩

theorem SameShape.symm (h : SameShape d d') : SameShape d' d :=
  ⟨h.numPages.symm, h.freePages.symm, h.faults.symm⟩

/-- The page that an allocation gives, and the number of pages and the free pages afterwards. -/
def allocation (d : DiskManager) : Option PageId × Nat × List PageId :=
  match d.freePages with
  | p :: rest => (some p, d.numPages, rest)
  | [] =>
    if d.numPages + 1 ≤ maxPages then (some (Int32.ofNat d.numPages), d.numPages + 1, [])
    else (none, d.numPages, [])

theorem allocatePage_shape (hd : d.faults.Perfect) :
    (d.allocatePage.1, d.allocatePage.2.numPages, d.allocatePage.2.freePages) = d.allocation := by
  unfold DiskManager.allocatePage allocation
  rw [hd.allocate, if_neg Bool.false_ne_true]
  split
  · rename_i p rest hfree
    simp only [hfree]
    rfl
  · rename_i hfree
    simp only [hfree]
    split
    · exact congrArg (fun l => (_, _, l)) hfree
    · exact congrArg (fun l => (_, _, l)) hfree

theorem allocatePage_faults (d : DiskManager) : d.allocatePage.2.faults = d.faults := by
  unfold DiskManager.allocatePage
  split
  · rfl
  · split
    · rfl
    · split <;> rfl

/-- Allocations on disks of one shape give the same page. -/
theorem SameShape.allocatePage (h : SameShape d d') (hd : d.faults.Perfect) :
    d'.allocatePage.1 = d.allocatePage.1 ∧ SameShape d.allocatePage.2 d'.allocatePage.2 := by
  have hshape := allocatePage_shape hd
  have hshape' := allocatePage_shape (d := d') (by rw [h.faults]; exact hd)
  have hsame : d'.allocation = d.allocation := by
    rw [allocation, allocation, h.freePages, h.numPages]
  have he := hshape'.trans (hsame.trans hshape.symm)
  obtain ⟨hid, he⟩ := Prod.mk.inj he
  obtain ⟨hnum, hfree⟩ := Prod.mk.inj he
  refine ⟨hid, hnum, hfree, ?_⟩
  rw [allocatePage_faults, allocatePage_faults, h.faults]

theorem freePages_deallocatePage (hd : d.faults.Reliable) (p : PageId) :
    (d.deallocatePage p).freePages =
      if 0 < p.toInt ∧ p.toInt < d.numPages ∧ p ∉ d.freePages then insertPageId p d.freePages
      else d.freePages := by
  unfold DiskManager.deallocatePage
  rw [hd.deallocate]
  split
  · rename_i hp
    split
    · rename_i hlt
      split
      · rename_i hin
        rw [if_neg fun hc => hc.2.2 hin]
      · rename_i hin
        rw [if_neg Bool.false_ne_true, if_pos ⟨hp, hlt, hin⟩]
        rfl
    · rename_i hlt
      rw [if_neg fun hc => hlt hc.2.1]
  · rename_i hp
    rw [if_neg fun hc => hp hc.1]

theorem SameShape.deallocatePage (h : SameShape d d') (hd : d.faults.Reliable) (p : PageId) :
    SameShape (d.deallocatePage p) (d'.deallocatePage p) where
  numPages := by rw [deallocatePage_numPages, deallocatePage_numPages, h.numPages]
  freePages := by
    rw [freePages_deallocatePage hd, freePages_deallocatePage (by rw [h.faults]; exact hd),
      h.numPages, h.freePages]
  faults := by rw [deallocatePage_faults, deallocatePage_faults, h.faults]

end DiskManager

namespace BufferPoolManager

open DiskManager

variable {w v : BufferPoolManager}

theorem sameShape_fetchPage (hw : w.PoolInv) (p : PageId) :
    SameShape w.disk (w.fetchPage p).2.disk := by
  rcases fetchPage_cases hw p with ⟨f, hp, he⟩ | ⟨f, w', he, -, -, -, -, hs⟩ | ⟨w', he, -, hk, -⟩
  · obtain ⟨w', he', hdisk, -⟩ := fetchHit_touches hw hp
    rw [he, he', hdisk]
    exact .refl _
  · rw [he]
    exact hs.shape
  · rw [he]
    exact hk.shape

theorem disk_unpinPage (hw : w.PoolInv) (p : PageId) (dirty : Bool) :
    (w.unpinPage p dirty).2.disk = w.disk := by
  rcases unpinPage_cases hw p dirty with ⟨f, w', he, hd, -⟩ | ⟨he, -⟩
  · rw [he, hd]
  · rw [he]

theorem disk_deletePage {p : PageId} (h : (w.deletePage p).1 = true) :
    (w.deletePage p).2.disk = w.disk.deallocatePage p := by
  unfold deletePage at h ⊢
  split at h
  · cases h
  rename_i hp
  rw [if_neg hp]
  cases hf : w.frameOf p with
  | none => rfl
  | some f =>
    rw [hf] at h
    dsimp only at h ⊢
    split at h
    · cases h
    rename_i hpin
    rw [if_neg hpin]

theorem disk_takeFrame (w : BufferPoolManager) : w.takeFrame.2.disk = w.disk := by
  unfold takeFrame
  split
  · rfl
  · split <;> rfl

theorem disk_giveBack (w : BufferPoolManager) (f : FrameId) (b : Bool) :
    (w.giveBack f b).disk = w.disk := by
  cases b <;> rfl

theorem disk_unmap (w : BufferPoolManager) (f : FrameId) (b : Bool) :
    (w.unmap f b).disk = w.disk := by
  cases b <;> rfl

/-- With a frame to use, `NewPage` does to the shape of the disk what `AllocatePage` does. -/
theorem newPage_allocates (hw : w.PoolInv) (hframe : ¬ w.NoFrame) (hd : w.disk.faults.Reliable) :
    ∃ d, SameShape w.disk d ∧ w.newPage.1.map Prod.fst = d.allocatePage.1 ∧
      w.newPage.2.disk = d.allocatePage.2 := by
  unfold newPage
  rcases ht : w.takeFrame with ⟨_ | ⟨f, b⟩, v⟩
  · exact absurd (takeFrame_none hw ht).2 hframe
  · obtain ⟨hand, hdw⟩ := takeFrame_some hw ht
    dsimp only
    rcases hand.writeBack hw (by rw [hdw]) (by rw [hdw]; exact .refl _) with
      ⟨v', hwb, -, hs⟩ | ⟨e, v', -, -, -, -, hno⟩
    · rw [hwb]
      refine ⟨v'.disk, hs.shape, ?_⟩
      dsimp only
      rcases ha : v'.disk.allocatePage with ⟨_ | p, d⟩
      · exact ⟨rfl, disk_giveBack _ f b⟩
      · exact ⟨rfl, disk_unmap _ f b⟩
    · exact absurd hd hno

/-- Two pools with disks of one shape get the same new page. -/
theorem sameShape_newPage (hw : w.PoolInv) (hv : v.PoolInv) (hframe : ¬ w.NoFrame)
    (hframe' : ¬ v.NoFrame) (hshape : SameShape w.disk v.disk) (hd : w.disk.faults.Perfect) :
    v.newPage.1.map Prod.fst = w.newPage.1.map Prod.fst ∧
      SameShape w.newPage.2.disk v.newPage.2.disk := by
  have hd' : v.disk.faults.Reliable := by
    rw [hshape.faults]
    exact hd.toReliable
  obtain ⟨d, hs, hid, hdisk⟩ := newPage_allocates hw hframe hd.toReliable
  obtain ⟨d', hs', hid', hdisk'⟩ := newPage_allocates hv hframe' hd'
  have hdd : SameShape d d' := hs.symm.trans (hshape.trans hs')
  obtain ⟨hsame, hafter⟩ := hdd.allocatePage (by rw [hs.faults]; exact hd)
  rw [hid, hid', hdisk, hdisk']
  exact ⟨hsame, hafter⟩

/-- Only `NewPage` can change the number of pages. -/
theorem numPages_call (hw : w.PoolInv) {c : PoolCall} (hc : c ≠ .newPage) :
    (w.call c).disk.numPages = w.disk.numPages := by
  cases c with
  | fetchPage p => exact (sameShape_fetchPage hw p).numPages
  | newPage => exact absurd rfl hc
  | unpinPage p dirty => exact congrArg DiskManager.numPages (disk_unpinPage hw p dirty)
  | deletePage p =>
    show (w.deletePage p).2.disk.numPages = _
    rcases deletePage_cases hw p with ⟨f, w', he, -, hd⟩ | ⟨he, -⟩ | ⟨he, -⟩
    · rw [he, hd.disk]
      exact deallocatePage_numPages _ p
    · rw [he]
      exact deallocatePage_numPages _ p
    · rw [he]
  | flushPage p => exact (flushPage_flushed hw p).shape.numPages
  | flushAllPages => exact (flushAllPages_flushed hw).shape.numPages

end BufferPoolManager

end MiniDbms
