import MiniDbms.Buffer.FileBounds

/-!
# Requests for a frame that fail

A `FetchPage` or a `NewPage` that returns no frame has changed nothing that counts: the page table,
the frames, the free list, the frames in the replacer and the allocated pages are the same, whatever
the disk does (`failed_request`). At most a dirty page has been written to the disk, and it stays
dirty.
-/

namespace MiniDbms

open Lib

namespace ClockReplacer

variable {r : ClockReplacer} {f : FrameId}

theorem length_firstPass : ∀ (k : Nat) (r : ClockReplacer),
    (firstPass k r).2.inReplacer.length = r.inReplacer.length := by
  intro k
  induction k with
  | zero => exact fun _ => rfl
  | succ k ih =>
    intro r
    rw [firstPass]
    split
    · split
      · exact ih _
      · exact List.length_set
    · exact ih _

theorem length_secondPass : ∀ (k : Nat) (r : ClockReplacer),
    (secondPass k r).2.inReplacer.length = r.inReplacer.length := by
  intro k
  induction k with
  | zero => exact fun _ => rfl
  | succ k ih =>
    intro r
    rw [secondPass]
    split
    · exact List.length_set
    · exact ih _

theorem length_victim (r : ClockReplacer) :
    r.victim.2.inReplacer.length = r.inReplacer.length := by
  unfold victim
  split
  · rfl
  · have hfirst := length_firstPass r.refFlags.length r
    rcases hp : firstPass r.refFlags.length r with ⟨_ | f, r'⟩
    · rw [hp] at hfirst
      exact (length_secondPass _ _).trans hfirst
    · rw [hp] at hfirst
      exact hfirst

/-- A victim that is put back. -/
theorem has_unpin_victim {r' : ClockReplacer} (h : r.victim = (some f, r')) (g : FrameId) :
    (r'.unpin f).has g = r.has g := by
  obtain ⟨hf, hothers⟩ := victim_some h
  have hlt : f < r'.inReplacer.length := by
    have hlength := length_victim r
    rw [h] at hlength
    rw [hlength]
    exact lt_of_has hf
  rw [unpin, if_pos hlt, has, getD_set]
  by_cases hg : g = f
  · rw [hg, if_pos ⟨rfl, hlt⟩, hf]
  · rw [if_neg fun h => hg h.1.symm]
    exact (hothers g).trans (if_neg hg)

end ClockReplacer

namespace DiskManager

variable {d d' : DiskManager} {p : PageId} {data : PageData} {r : Except Status Unit}

/-- What a write of a page of the file, or of no page, does at most. -/
theorem writePage_bytes (hp : p = invalidPageId ∨ d.Has p) (h : d.writePage p data = (r, d')) :
    SameShape d d' ∧ ∀ x, d'.pages x = d.pages x ∨ x = p ∧ d'.pages x = data := by
  rcases hp with rfl | hp
  · cases h
    exact ⟨.refl _, fun _ => .inl rfl⟩
  · rcases writePage_cases hp.1 hp.2 data with hw | ⟨-, e, hw⟩
    · rw [hw] at h
      cases h
      refine ⟨⟨rfl, rfl, rfl⟩, fun x => ?_⟩
      by_cases hx : x = p
      · exact .inr ⟨hx, by rw [hx]; exact Function.update_self _ _ _⟩
      · exact .inl (Function.update_of_ne hx _ _)
    · rw [hw] at h
      cases h
      exact ⟨⟨rfl, rfl, rfl⟩, fun _ => .inl rfl⟩

end DiskManager

namespace BufferPoolManager

variable {w w' v : BufferPoolManager} {p : PageId} {f : FrameId} {b : Bool}

/-- The disk has the bytes it had, or those of a dirty frame. -/
def DiskKeeps (w : BufferPoolManager) (d : DiskManager) : Prop :=
  DiskManager.SameShape w.disk d ∧ ∀ p, d.pages p = w.disk.pages p ∨
    ∃ f, (w.pages f).isDirty = true ∧ (w.pages f).pageId = p ∧ d.pages p = (w.pages f).data

/-- Nothing that counts has changed. -/
structure Undone (w w' : BufferPoolManager) : Prop where
  pageTable : w'.pageTable = w.pageTable
  pages : w'.pages = w.pages
  freeList : w'.freeList = w.freeList
  evictable : ∀ f, w'.replacer.has f = w.replacer.has f
  disk : DiskKeeps w w'.disk

/-- The frame `f` is in hand, and giving it back restores the pool. -/
structure Borrowed (w : BufferPoolManager) (f : FrameId) (b : Bool) (v : BufferPoolManager) :
    Prop where
  pageTable : v.pageTable = w.pageTable
  pages : v.pages = w.pages
  freeList : (v.giveBack f b).freeList = w.freeList
  evictable : ∀ g, (v.giveBack f b).replacer.has g = w.replacer.has g
  disk : DiskKeeps w v.disk

theorem Borrowed.giveBack (h : Borrowed w f b v) : Undone w (v.giveBack f b) := by
  cases b with
  | true => exact ⟨h.pageTable, h.pages, h.freeList, h.evictable, h.disk⟩
  | false => exact ⟨h.pageTable, h.pages, h.freeList, h.evictable, h.disk⟩

theorem diskKeeps_refl (w : BufferPoolManager) : DiskKeeps w w.disk :=
  ⟨.refl _, fun _ => .inl rfl⟩

theorem DiskKeeps.tick {d : DiskManager} (h : DiskKeeps w d) : DiskKeeps w d.tick :=
  ⟨h.1.trans ⟨rfl, rfl, rfl⟩, h.2⟩

theorem takeFrame_borrowed (h : w.takeFrame = (some (f, b), v)) : Borrowed w f b v := by
  unfold takeFrame at h
  split at h
  · rename_i rest hfree
    cases h
    exact ⟨rfl, rfl, hfree.symm, fun _ => rfl, diskKeeps_refl w⟩
  · split at h
    · rename_i hvictim
      cases h
      exact ⟨rfl, rfl, rfl, ClockReplacer.has_unpin_victim hvictim, diskKeeps_refl w⟩
    · cases h

theorem takeFrame_undone (h : w.takeFrame = (none, v)) : Undone w v := by
  unfold takeFrame at h
  split at h
  · cases h
  · split at h
    · cases h
    · rename_i r hvictim
      have htook := ClockReplacer.victim_took w.replacer
      rw [hvictim] at htook
      cases h
      exact ⟨rfl, rfl, rfl, htook, diskKeeps_refl w⟩

/-- Another disk, and other statistics. -/
theorem Borrowed.access (h : Borrowed w f b v) {d : DiskManager} (hd : DiskKeeps w d) (n m : Nat) :
    Borrowed w f b { v with disk := d, diskReads := n, diskWrites := m } := by
  cases b with
  | true => exact ⟨h.pageTable, h.pages, h.freeList, h.evictable, hd⟩
  | false => exact ⟨h.pageTable, h.pages, h.freeList, h.evictable, hd⟩

/-- The dirty page in the frame is written, or that fails; it stays dirty. -/
theorem Borrowed.writeBack (hw : w.InFile) (h : Borrowed w f b v) :
    Borrowed w f b (v.writeBack f b).2 := by
  unfold BufferPoolManager.writeBack
  split
  · rename_i hdirty
    have hpage : v.pages f = w.pages f := by rw [h.pages]
    rw [hpage] at hdirty ⊢
    have hin : (w.pages f).pageId = invalidPageId ∨ v.disk.Has (w.pages f).pageId := by
      rw [DiskManager.Has, h.disk.1.numPages]
      exact hw.pages f
    have hkeeps : ∀ {r d}, v.disk.writePage (w.pages f).pageId (w.pages f).data = (r, d) →
        DiskKeeps w d := by
      intro r d hwrite
      obtain ⟨hshape, hbytes⟩ := DiskManager.writePage_bytes hin hwrite
      refine ⟨h.disk.1.trans hshape, fun x => ?_⟩
      rcases hbytes x with hx | ⟨rfl, hx⟩
      · rw [hx]
        exact h.disk.2 x
      · exact .inr ⟨f, hdirty.2, rfl, hx⟩
    rcases hwrite : v.disk.writePage (w.pages f).pageId (w.pages f).data with ⟨_ | _, d⟩
    · exact h.access (hkeeps hwrite) _ _
    · exact h.access (hkeeps hwrite) _ _
  · exact h

theorem fetchMiss_undone (hw : w.InFile) (h : w.fetchMiss p = (none, w')) : Undone w w' := by
  unfold fetchMiss at h
  have hcount : ∀ {v}, Undone { w with bufferMisses := w.bufferMisses + 1 } v → Undone w v :=
    fun hv => ⟨hv.pageTable, hv.pages, hv.freeList, hv.evictable, hv.disk⟩
  rcases ht : takeFrame { w with bufferMisses := w.bufferMisses + 1 } with ⟨_ | ⟨f, b⟩, v⟩
  · rw [ht] at h
    cases h
    exact hcount (takeFrame_undone ht)
  rw [ht] at h
  have hv := takeFrame_borrowed ht
  have hw : InFile { w with bufferMisses := w.bufferMisses + 1 } := ⟨hw.table, hw.pages⟩
  dsimp only at h
  rcases DiskManager.readPage_cases v.disk p with ⟨hr, -⟩ | ⟨e, d, hr, hd, -⟩
  · rw [hr] at h
    dsimp only at h
    have hback := (hv.access hv.disk.tick (v.diskReads + 1) v.diskWrites).writeBack hw
    split at h
    · rename_i e u hwrite
      rw [hwrite] at hback
      cases h
      exact hcount hback.giveBack
    · cases h
  · rw [hr] at h
    cases h
    apply hcount
    apply Borrowed.giveBack
    rcases hd with rfl | rfl
    · exact hv
    · exact hv.access hv.disk.tick _ _

theorem fetchPage_undone (hw : w.InFile) (h : w.fetchPage p = (none, w')) : Undone w w' := by
  unfold fetchPage at h
  split at h
  · cases h
    exact ⟨rfl, rfl, rfl, fun _ => rfl, diskKeeps_refl w⟩
  split at h
  · cases h
  · exact fetchMiss_undone hw h

theorem newPage_undone (hw : w.InFile) (h : w.newPage = (none, w')) : Undone w w' := by
  unfold newPage at h
  rcases ht : w.takeFrame with ⟨_ | ⟨f, b⟩, v⟩
  · rw [ht] at h
    cases h
    exact takeFrame_undone ht
  rw [ht] at h
  have hback := (takeFrame_borrowed ht).writeBack hw
  dsimp only at h
  split at h
  · rename_i e u hwrite
    rw [hwrite] at hback
    cases h
    exact hback.giveBack
  · rename_i u hwrite
    rw [hwrite] at hback
    split at h
    · rename_i d hd
      obtain ⟨rfl, -⟩ := DiskManager.allocatePage_none hd
      cases h
      exact (hback.access hback.disk.tick _ _).giveBack
    · cases h

/-- On every pool that clients have used, whatever the disk does: a request that returns no frame
has changed nothing that counts. -/
theorem failed_request (hw : Opened w) :
    (∀ p w', w.fetchPage p = (none, w') → Undone w w') ∧
      ∀ w', w.newPage = (none, w') → Undone w w' :=
  ⟨fun _ _ => fetchPage_undone hw.inFile, fun _ => newPage_undone hw.inFile⟩

/-- A new file on a disk that cannot be written. -/
def unwritableFile : DiskManager := .newFile { DiskFaults.none with write := fun _ => true }

/-- A page is created and changed. -/
def changeNewPage : Program Bool := do
  let some (p, f, _) ← PagedProgram.newPage
    | return false
  PagedProgram.putPage f (fun _ => 1) false
  PagedProgram.unpinPage p true

/-- The only frame has a dirty page that cannot be written back. -/
theorem failed_request_write_back : ∃ w w₁ w₂,
    changeNewPage.run (new 1 unwritableFile) = some (true, w) ∧ (w.pages 0).isDirty = true ∧
    w.fetchPage 0 = (none, w₁) ∧ Undone w w₁ ∧ w.newPage = (none, w₂) ∧ Undone w w₂ := by
  have hval : (changeNewPage.run (new 1 unwritableFile)).map (fun r =>
      (r.1, (r.2.pages 0).isDirty, (r.2.fetchPage 0).1, r.2.newPage.1)) =
      some (true, true, none, none) := by decide +kernel
  obtain ⟨⟨b, w⟩, hrun, hval⟩ := Option.map_eq_some_iff.mp hval
  simp only [Prod.mk.injEq] at hval
  obtain ⟨rfl, hdirty, hfetch, hnew⟩ := hval
  have hfetch' : w.fetchPage 0 = (none, (w.fetchPage 0).2) := Prod.ext hfetch rfl
  have hnew' : w.newPage = (none, w.newPage.2) := Prod.ext hnew rfl
  obtain ⟨hfetched, hcreated⟩ := failed_request (.run (.new 1 _) hrun)
  exact ⟨w, _, _, hrun, hdirty, hfetch', hfetched 0 _ hfetch', hnew', hcreated _ hnew'⟩

end BufferPoolManager

end MiniDbms
