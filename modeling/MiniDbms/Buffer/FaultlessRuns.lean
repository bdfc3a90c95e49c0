import MiniDbms.Buffer.PoolImages
import MiniDbms.Lib.FailedCalls

/-!
# Runs on a disk without faults

`w.faultless` is the pool `w` on a disk on which nothing fails any more. A call of `w` that succeeds
does the same on `w.faultless`, and a program that passes its errors on (`Strict`) and answers with
success has made successful calls only. So it has the same answer without faults, and leaves the
same pool (`run_faultless`).
-/

namespace MiniDbms

open Lib PagedProgram

namespace DiskManager

/-- The same file on a disk with other faults. -/
def withFaults (d : DiskManager) (faults : DiskFaults) : DiskManager := { d with faults := faults }

/-- The same file on a disk on which no access fails. -/
def faultless (d : DiskManager) : DiskManager := { d with faults := .none }

variable {d d' : DiskManager} {p : PageId} {data : PageData}

theorem writePage_faultless (h : d.writePage p data = (.ok (), d')) :
    d.faultless.writePage p data = (.ok (), d'.faultless) := by
  unfold writePage at h ⊢
  split at h
  · cases h
  rename_i hneg
  split at h
  · cases h
  rename_i hbeyond
  split at h
  · cases h
  rw [if_neg hneg, if_neg (show ¬ (d.faultless.numPages : Int) < p.toInt from hbeyond),
    if_neg (fun hc => by cases hc)]
  split at h
  · rename_i hend
    rw [if_pos (show p.toInt = d.faultless.numPages from hend)]
    split at h
    · rename_i hle
      cases h
      exact dif_pos hle
    · cases h
  · rename_i hend
    rw [if_neg (show ¬ p.toInt = d.faultless.numPages from hend)]
    cases h
    rfl

theorem readPage_faultless (h : d.readPage p = (.ok data, d')) :
    d.faultless.readPage p = (.ok data, d'.faultless) := by
  unfold readPage at h ⊢
  split at h
  · cases h
  rename_i hneg
  split at h
  · cases h
  rename_i hbeyond
  split at h
  · cases h
  rw [if_neg hneg, if_neg (show ¬ (d.faultless.numPages : Int) ≤ p.toInt from hbeyond),
    if_neg (fun hc => by cases hc)]
  cases h
  rfl

theorem allocatePage_faultless (h : d.allocatePage = (some p, d')) :
    d.faultless.allocatePage = (some p, d'.faultless) := by
  unfold allocatePage at h ⊢
  split at h
  · cases h
  rw [if_neg (fun hc => by cases hc)]
  obtain ⟨pages, numPages, freePages, faults, ops, hpos, hle, hsorted, hrange⟩ := d
  cases freePages with
  | cons q rest =>
    cases h
    rfl
  | nil =>
    simp only at h
    split at h
    · rename_i hg
      cases h
      exact dif_pos hg
    · cases h

end DiskManager

namespace BufferPoolManager

/-- The pool on a disk with other faults. -/
def withFaults (w : BufferPoolManager) (faults : DiskFaults) : BufferPoolManager :=
  { w with disk := w.disk.withFaults faults }

/-- The pool on a disk on which no access fails. -/
def faultless (w : BufferPoolManager) : BufferPoolManager := { w with disk := w.disk.faultless }

variable {w w' : BufferPoolManager} {p : PageId} {f : FrameId} {b fromFree : Bool}

theorem frameOf_faultless (w : BufferPoolManager) (p : PageId) :
    w.faultless.frameOf p = w.frameOf p := rfl

theorem takeFrame_faultless (w : BufferPoolManager) :
    w.faultless.takeFrame = (w.takeFrame.1, w.takeFrame.2.faultless) := by
  obtain ⟨poolSize, disk, replacer, pages, pageTable, freeList, hits, misses, reads, writes⟩ := w
  cases freeList with
  | cons f rest => rfl
  | nil =>
    unfold takeFrame faultless
    dsimp only
    rcases replacer.victim with ⟨_ | f, r⟩ <;> rfl

theorem writeBack_faultless (h : w.writeBack f fromFree = (.ok (), w')) :
    w.faultless.writeBack f fromFree = (.ok (), w'.faultless) := by
  unfold writeBack at h ⊢
  split at h
  · rename_i hdirty
    rw [if_pos (show fromFree = false ∧ (w.faultless.pages f).isDirty = true from hdirty)]
    rcases hw : w.disk.writePage (w.pages f).pageId (w.pages f).data with ⟨e | _, d⟩
    · rw [hw] at h
      cases h
    · rw [hw] at h
      cases h
      have hw' : w.faultless.disk.writePage (w.faultless.pages f).pageId
        (w.faultless.pages f).data =
        (.ok (), d.faultless) := DiskManager.writePage_faultless hw
      rw [hw']
      rfl
  · rename_i hdirty
    rw [if_neg (show ¬ (fromFree = false ∧ (w.faultless.pages f).isDirty = true) from hdirty)]
    cases h
    rfl

/-- A fetch that succeeds. -/
theorem fetchPage_faultless (h : w.fetchPage p = (some f, w')) :
    w.faultless.fetchPage p = (some f, w'.faultless) := by
  unfold fetchPage at h ⊢
  split at h
  · cases h
  rename_i hneg
  rw [if_neg hneg, frameOf_faultless]
  cases hf : w.frameOf p with
  | some g =>
    rw [hf] at h
    cases h
    rfl
  | none =>
    rw [hf] at h
    dsimp only at h ⊢
    unfold fetchMiss at h ⊢
    have htake := takeFrame_faultless { w with bufferMisses := w.bufferMisses + 1 }
    rcases ht : takeFrame { w with bufferMisses := w.bufferMisses + 1 } with ⟨_ | ⟨g, fromFree⟩, v⟩
    · rw [ht] at h
      cases h
    rw [ht] at h htake
    rw [show takeFrame { w.faultless with bufferMisses := w.faultless.bufferMisses + 1 } =
      (some (g, fromFree), v.faultless) from htake]
    dsimp only at h ⊢
    rcases hr : v.disk.readPage p with ⟨e | data, d⟩
    · rw [hr] at h
      cases h
    rw [hr] at h
    rw [show v.faultless.disk.readPage p = (.ok data, d.faultless) from
      DiskManager.readPage_faultless hr]
    dsimp only at h ⊢
    rcases hb : writeBack { v with disk := d, diskReads := v.diskReads + 1 } g fromFree with
      ⟨e | _, u⟩
    · rw [hb] at h
      cases h
    rw [hb] at h
    rw [show writeBack
      { v.faultless with disk := d.faultless, diskReads := v.faultless.diskReads + 1 } g
      fromFree = (.ok (), u.faultless) from writeBack_faultless hb]
    cases h
    cases fromFree <;> rfl

theorem unpinPage_faultless (w : BufferPoolManager) (p : PageId) (dirty : Bool) :
    w.faultless.unpinPage p dirty =
      ((w.unpinPage p dirty).1, (w.unpinPage p dirty).2.faultless) := by
  unfold unpinPage
  rw [frameOf_faultless]
  cases w.frameOf p with
  | none => rfl
  | some f =>
    dsimp only
    by_cases hpin : (w.pages f).pinCount = 0
    · rw [if_pos hpin, if_pos (show (w.faultless.pages f).pinCount = 0 from hpin)]
    · rw [if_neg hpin, if_neg (show ¬ (w.faultless.pages f).pinCount = 0 from hpin)]
      by_cases hone : (w.pages f).pinCount - 1 = 0
      · rw [if_pos hone, if_pos (show (w.faultless.pages f).pinCount - 1 = 0 from hone)]
        rfl
      · rw [if_neg hone, if_neg (show ¬ (w.faultless.pages f).pinCount - 1 = 0 from hone)]
        rfl

/-- An allocation that succeeds. -/
theorem newPage_faultless (h : w.newPage = (some (p, f), w')) :
    w.faultless.newPage = (some (p, f), w'.faultless) := by
  unfold newPage at h ⊢
  have htake := takeFrame_faultless w
  rcases ht : w.takeFrame with ⟨_ | ⟨g, fromFree⟩, v⟩
  · rw [ht] at h
    cases h
  rw [ht] at h htake
  rw [htake]
  dsimp only at h ⊢
  rcases hb : v.writeBack g fromFree with ⟨e | _, u⟩
  · rw [hb] at h
    cases h
  rw [hb] at h
  rw [writeBack_faultless hb]
  dsimp only at h ⊢
  rcases ha : u.disk.allocatePage with ⟨_ | q, d⟩
  · rw [ha] at h
    cases h
  rw [ha] at h
  rw [show u.faultless.disk.allocatePage = (some q, d.faultless) from
    DiskManager.allocatePage_faultless ha]
  cases h
  cases fromFree <;> rfl

/-- A flush that succeeds. -/
theorem flushPage_faultless (h : w.flushPage p = (true, w')) :
    w.faultless.flushPage p = (true, w'.faultless) := by
  unfold flushPage at h ⊢
  rw [frameOf_faultless]
  cases hf : w.frameOf p with
  | none =>
    rw [hf] at h
    cases h
  | some f =>
    rw [hf] at h
    dsimp only at h ⊢
    split at h
    · rename_i hdirty
      rw [if_pos (show (w.faultless.pages f).isDirty = true from hdirty)]
      rcases hw : w.disk.writePage p (w.pages f).data with ⟨e | _, d⟩
      · rw [hw] at h
        cases h
      rw [hw] at h
      rw [show w.faultless.disk.writePage p (w.faultless.pages f).data = (.ok (), d.faultless) from
        DiskManager.writePage_faultless hw]
      cases h
      rfl
    · rename_i hdirty
      rw [if_neg (show ¬ (w.faultless.pages f).isDirty = true from hdirty)]
      cases h
      rfl

end BufferPoolManager

open BufferPoolManager

/-- An answer of a strict program that is no error is its answer without faults. -/
theorem run_faultless {α : Type} {E : α → Prop} {x : Program α} (hx : x.Strict E)
    {w w' : BufferPoolManager} {a : α} (hrun : Program.run x w = some (a, w')) (ha : ¬ E a) :
    Program.run x w.faultless = some (a, w'.faultless) := by
  induction x generalizing w with
  | ret b =>
    cases hrun
    rfl
  | diverge => cases hrun
  | fetch p k ih =>
    rw [Program.run] at hrun ⊢
    rcases he : w.fetchPage p with ⟨_ | f, v⟩
    · rw [he] at hrun
      exact absurd (Program.run_always hx.1 hrun) ha
    · rw [he] at hrun
      rw [fetchPage_faultless he]
      exact ih _ (hx.2 _ _) hrun
  | put f d mark k ih =>
    have hrun' := ih hx hrun
    cases mark <;> exact hrun'
  | unpin p dirty k ih =>
    rw [Program.run] at hrun ⊢
    rw [unpinPage_faultless]
    exact ih _ (hx _) hrun
  | alloc k ih =>
    rw [Program.run] at hrun ⊢
    rcases he : w.newPage with ⟨_ | ⟨p, f⟩, v⟩
    · rw [he] at hrun
      exact absurd (Program.run_always hx.1 hrun) ha
    · rw [he] at hrun
      rw [newPage_faultless he]
      exact ih _ (hx.2 _ _ _) hrun
  | free p k ih => exact absurd (Program.run_always (hx _) hrun) ha
  | flush p k ih =>
    rw [Program.run] at hrun ⊢
    rcases he : w.flushPage p with ⟨_ | _, v⟩
    · rw [he] at hrun
      exact absurd (Program.run_always hx.1 hrun) ha
    · rw [he] at hrun
      rw [flushPage_faultless he]
      exact ih _ hx.2 hrun
  | flushAll k ih => exact absurd (Program.run_always hx hrun) ha

/-! ## Pools with other faults -/

section

variable {w : BufferPoolManager} {ext : PageId → Nat} {h : Pages}

theorem BufferPoolManager.Coherent.withFaults (hw : w.Coherent) (faults : DiskFaults) :
    (w.withFaults faults).Coherent where
  inv := ⟨hw.inv.table, hw.inv.freeNodup, hw.inv.free, hw.inv.covered, hw.inv.replacer,
    hw.inv.evictable, hw.inv.resident⟩
  clean := hw.clean

/-- On a disk without faults the pool holds the same pages, and no allocation has failed there. -/
theorem Holds.faultless (hw : Holds ext w h) : Holds ext w.faultless h.settled := by
  obtain ⟨r, hr⟩ := hw
  have hs := hr.sim
  refine ⟨r, ⟨⟨⟨hs.inv.table, hs.inv.freeNodup, hs.inv.free, hs.inv.covered, hs.inv.replacer,
    hs.inv.evictable, hs.inv.resident⟩, DiskFaults.none_reliable, hs.allocated, hs.pins,
    hs.unmapped, hs.data, hs.onDisk, hs.clean, hs.stale⟩, hr.domain, hr.handle, hr.recent, ?_,
    hr.room⟩⟩
  exact fun hfailed => absurd hfailed Bool.false_ne_true

end

end MiniDbms
