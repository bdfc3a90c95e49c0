import MiniDbms.Buffer.BufferPool

/-!
# What one call of the pool can do

`PoolInv` is the structural invariant of the pool: the page table, the free list, the
replacer and the frames agree. Under it, each call that looks for a frame has one of a few
outcomes, whatever the disk does:

* `fetchPage_cases`: a hit, a page loaded into a frame (`Loads`, with the previous page
  of the frame saved, `Saves`), or the null pointer with nothing changed (`Kept`);
* `newPage_cases`: a page of zeros loaded into a frame, or the null pointer.

Everything later about the pool is derived from these.
-/

namespace MiniDbms

namespace BufferPoolManager

open Lib

/-- The page table, the free list, the replacer and the frames of a pool agree. -/
structure PoolInv (w : BufferPoolManager) : Prop where
  table : ∀ {p f}, w.frameOf p = some f → f < w.poolSize ∧ (w.pages f).pageId = p
  freeNodup : w.freeList.Nodup
  free : ∀ f ∈ w.freeList,
    f < w.poolSize ∧ (w.pages f).pinCount = 0 ∧ ∀ p, w.frameOf p ≠ some f
  covered : ∀ f, f < w.poolSize → f ∈ w.freeList ∨ ∃ p, w.frameOf p = some f
  replacer : w.replacer.Valid w.poolSize
  evictable : ∀ f,
    w.replacer.has f = true ↔ (∃ p, w.frameOf p = some f) ∧ (w.pages f).pinCount = 0
  resident : ∀ {p f}, w.frameOf p = some f → 0 ≤ p.toInt ∧ p.toInt < w.disk.numPages

theorem new_poolInv {n : Nat} (hn : 0 < n) (d : DiskManager) : (new n d).PoolInv where
  table h := by simp [new, frameOf] at h
  freeNodup := List.nodup_range
  free f hf := ⟨by simpa [new] using hf, rfl, fun p => by simp [new, frameOf]⟩
  covered f hf := .inl (by simpa [new] using hf)
  replacer := ClockReplacer.new_valid hn
  evictable f := by simp [new, frameOf]
  resident h := by simp [new, frameOf] at h

variable {w v w' : BufferPoolManager} {f g : FrameId} {p q : PageId} {b : Bool}

theorem PoolInv.frame_inj (hw : w.PoolInv) (hp : w.frameOf p = some f) (hq : w.frameOf q = some f) :
    p = q :=
  (hw.table hp).2.symm.trans (hw.table hq).2

theorem PoolInv.frameOf_iff (hw : w.PoolInv) (hq : w.frameOf q = some f) :
    w.frameOf p = some f ↔ p = q :=
  ⟨fun hp => hw.frame_inj hp hq, fun h => h ▸ hq⟩

/-! ## The three outcomes -/

/-- Nothing has changed but the counters; a dirty page may have been written to disk. -/
structure Kept (w w' : BufferPoolManager) : Prop where
  poolSize : w'.poolSize = w.poolSize
  pages : w'.pages = w.pages
  pageTable : w'.pageTable = w.pageTable
  freeList : w'.freeList = w.freeList
  replacer : w'.replacer.Valid w.poolSize
  has : ∀ g, w'.replacer.has g = w.replacer.has g
  shape : DiskManager.SameShape w.disk w'.disk
  disk : ∀ x, w'.disk.pages x = w.disk.pages x ∨
    ∃ f, w.frameOf x = some f ∧ (w.pages f).isDirty = true ∧ w'.disk.pages x = (w.pages f).data

/-- The frame `f` was free or evictable, and now holds the page `p`, pinned once. -/
structure Loads (w : BufferPoolManager) (f : FrameId) (p : PageId) (data : PageData)
    (w' : BufferPoolManager) : Prop where
  lt : f < w.poolSize
  unpinned : (w.pages f).pinCount = 0
  source : f ∈ w.freeList ∨ w.replacer.has f = true
  poolSize : w'.poolSize = w.poolSize
  pages : w'.pages =
    Function.update w.pages f { data := data, pageId := p, pinCount := 1, isDirty := false }
  frameOf : ∀ x, w'.frameOf x =
    if x = p then some f else if w.frameOf x = some f then none else w.frameOf x
  freeList : w'.freeList = w.freeList.erase f
  replacer : w'.replacer.Valid w.poolSize
  has : ∀ g, w'.replacer.has g = if g = f then false else w.replacer.has g

/-- The disk `d` is the disk of `w` after the page in the frame `f` was saved, if it was dirty. -/
structure Saves (w : BufferPoolManager) (f : FrameId) (d : DiskManager) : Prop where
  shape : DiskManager.SameShape w.disk d
  pages : ∀ x, d.pages x =
    if w.frameOf x = some f ∧ (w.pages f).isDirty = true then (w.pages f).data
    else w.disk.pages x

/-! ## Taking a frame -/

/-- The pool `v` is `w` with the frame `f` in hand; only the disk and the counters may differ. -/
structure InHand (w : BufferPoolManager) (f : FrameId) (b : Bool) (v : BufferPoolManager) :
    Prop where
  lt : f < w.poolSize
  unpinned : (w.pages f).pinCount = 0
  poolSize : v.poolSize = w.poolSize
  pages : v.pages = w.pages
  pageTable : v.pageTable = w.pageTable
  valid : v.replacer.Valid w.poolSize
  fromFree : b = true → w.freeList = f :: v.freeList ∧ ∀ g, v.replacer.has g = w.replacer.has g
  fromReplacer : b = false → w.freeList = [] ∧ v.freeList = [] ∧ w.replacer.has f = true ∧
    ∀ g, v.replacer.has g = if g = f then false else w.replacer.has g

theorem takeFrame_some (hw : w.PoolInv) (h : w.takeFrame = (some (f, b), v)) :
    InHand w f b v ∧ v.disk = w.disk := by
  unfold takeFrame at h
  split at h
  · rename_i f' rest hfree
    cases h
    have hf := hw.free f (by rw [hfree]; exact List.mem_cons_self)
    exact ⟨⟨hf.1, hf.2.1, rfl, rfl, rfl, hw.replacer, fun _ => ⟨hfree, fun _ => rfl⟩, nofun⟩, rfl⟩
  · rename_i hfree
    split at h
    · rename_i f' r hv
      cases h
      obtain ⟨hin, hhas⟩ := ClockReplacer.victim_some hv
      obtain ⟨⟨q, hq⟩, hpin⟩ := (hw.evictable f).mp hin
      have hvalid : r.Valid w.poolSize := by
        have := ClockReplacer.victim_valid hw.replacer
        rwa [hv] at this
      exact ⟨⟨(hw.table hq).1, hpin, rfl, rfl, rfl, hvalid, nofun,
        fun _ => ⟨hfree, hfree, hin, hhas⟩⟩, rfl⟩
    · cases h

/-- No frame is free and none can be evicted. -/
def NoFrame (w : BufferPoolManager) : Prop := w.freeList = [] ∧ ∀ f, w.replacer.has f = false

theorem takeFrame_none (hw : w.PoolInv) (h : w.takeFrame = (none, v)) : v = w ∧ w.NoFrame := by
  unfold takeFrame at h
  split at h
  · cases h
  · rename_i hfree
    split at h
    · cases h
    · rename_i r hv
      cases h
      obtain ⟨rfl, hnone⟩ := ClockReplacer.victim_none hw.replacer hv
      exact ⟨rfl, hfree, hnone⟩

/-- A frame in hand that holds a page was a victim. -/
theorem InHand.victim_of_mapped (hw : w.PoolInv) (h : InHand w f b v) (hq : w.frameOf q = some f) :
    b = false := by
  cases b with
  | false => rfl
  | true =>
    have hf := (h.fromFree rfl).1
    exact absurd hq ((hw.free f (by rw [hf]; exact List.mem_cons_self)).2.2 q)

/-- Giving the frame back undoes `takeFrame`. -/
theorem InHand.giveBack (h : InHand w f b v) (hshape : DiskManager.SameShape w.disk v.disk)
    (hdisk : ∀ x, v.disk.pages x = w.disk.pages x ∨
      ∃ f, w.frameOf x = some f ∧ (w.pages f).isDirty = true ∧
        v.disk.pages x = (w.pages f).data) : Kept w (v.giveBack f b) := by
  cases b with
  | true =>
    obtain ⟨hfree, hhas⟩ := h.fromFree rfl
    exact ⟨h.poolSize, h.pages, h.pageTable, hfree.symm, h.valid, hhas, hshape, hdisk⟩
  | false =>
    obtain ⟨hfree, hnil, hin, hhas⟩ := h.fromReplacer rfl
    refine ⟨h.poolSize, h.pages, h.pageTable, hnil.trans hfree.symm, h.valid.unpin f, fun g => ?_,
      hshape, hdisk⟩
    show (v.replacer.unpin f).has g = _
    rw [ClockReplacer.has_unpin h.valid h.lt, hhas]
    by_cases hg : g = f
    · subst hg
      simp [hin]
    · simp [hg]

/-- Putting a page into the frame in hand. -/
theorem InHand.install (hw : w.PoolInv) (h : InHand w f b v) (p : PageId) (data : PageData) :
    Loads w f p data ((v.unmap f b).install f p data) := by
  have hhas : ∀ g, (v.replacer.pin f).has g = if g = f then false else w.replacer.has g := by
    intro g
    rw [ClockReplacer.has_pin]
    by_cases hg : g = f
    · simp [hg]
    · cases b with
      | true => simp [hg, (h.fromFree rfl).2]
      | false => simp [hg, (h.fromReplacer rfl).2.2.2]
  have hpages : Function.update v.pages f
      ({ data := data, pageId := p, pinCount := 1, isDirty := false } : Page) =
      Function.update w.pages f { data := data, pageId := p, pinCount := 1, isDirty := false } := by
    rw [h.pages]
  cases b with
  | true =>
    obtain ⟨hfree, -⟩ := h.fromFree rfl
    have hmem : f ∈ w.freeList := by rw [hfree]; exact List.mem_cons_self
    have hnot := (hw.free f hmem).2.2
    refine ⟨h.lt, h.unpinned, .inl hmem, h.poolSize, hpages, fun x => ?_, ?_, h.valid.pin f, hhas⟩
    · show (v.pageTable.insert p f).lookup x = _
      rw [if_neg (hnot x), h.pageTable]
      by_cases hx : x = p
      · rw [hx, if_pos rfl, AList.lookup_insert]
      · rw [if_neg hx, AList.lookup_insert_ne hx]
        rfl
    · show v.freeList = _
      rw [hfree, List.erase_cons_head]
  | false =>
    obtain ⟨hfree, hnil, hin, -⟩ := h.fromReplacer rfl
    obtain ⟨⟨q, hq⟩, -⟩ := (hw.evictable f).mp hin
    have hqid : (v.pages f).pageId = q := by rw [h.pages]; exact (hw.table hq).2
    refine ⟨h.lt, h.unpinned, .inr hin, h.poolSize, hpages, fun x => ?_, ?_, h.valid.pin f, hhas⟩
    · show ((v.pageTable.erase (v.pages f).pageId).insert p f).lookup x = _
      rw [hqid, h.pageTable]
      by_cases hx : x = p
      · rw [hx, if_pos rfl, AList.lookup_insert]
      · rw [if_neg hx, AList.lookup_insert_ne hx]
        by_cases hxq : x = q
        · rw [hxq, AList.lookup_erase, if_pos hq]
        · rw [AList.lookup_erase_ne hxq, if_neg fun hxf => hxq (hw.frame_inj hxf hq)]
          rfl
    · show v.freeList = _
      rw [hnil, hfree]
      rfl

/-- Saving the page in the frame in hand, or failing without an effect. -/
theorem InHand.writeBack (hw : w.PoolInv) (h : InHand w f b v) (hd : v.disk.pages = w.disk.pages)
    (hs : DiskManager.SameShape w.disk v.disk) :
    (∃ v', v.writeBack f b = (.ok (), v') ∧ InHand w f b v' ∧ Saves w f v'.disk) ∨
      (∃ e v', v.writeBack f b = (.error e, v') ∧ InHand w f b v' ∧ v'.disk.pages = w.disk.pages ∧
        DiskManager.SameShape w.disk v'.disk ∧ ¬ w.disk.faults.Reliable) := by
  have hcopy : ∀ d n, InHand w f b { v with disk := d, diskWrites := n } := fun d n =>
    ⟨h.lt, h.unpinned, h.poolSize, h.pages, h.pageTable, h.valid, h.fromFree, h.fromReplacer⟩
  have hpage : v.pages f = w.pages f := by rw [h.pages]
  unfold BufferPoolManager.writeBack
  split
  · rename_i hcond
    obtain ⟨rfl, hdirty⟩ := hcond
    rw [hpage] at hdirty
    obtain ⟨⟨q, hq⟩, -⟩ := (hw.evictable f).mp (h.fromReplacer rfl).2.2.1
    have hqid : (w.pages f).pageId = q := (hw.table hq).2
    have hr := hw.resident hq
    rw [hpage, hqid]
    rcases DiskManager.writePage_cases (d := v.disk) hr.1 (by rw [hs.numPages]; exact hr.2)
      (w.pages f).data with hwr | ⟨hf, e, hwr⟩
    · rw [hwr]
      refine .inl ⟨_, rfl, hcopy _ _, ⟨hs.numPages, hs.freePages, hs.faults⟩, fun x => ?_⟩
      show Function.update v.disk.pages q (w.pages f).data x = _
      simp only [Function.update_apply, hw.frameOf_iff hq, hdirty, and_true, hd]
    · rw [hwr]
      refine .inr ⟨e, _, rfl, hcopy _ _, hd, ⟨hs.numPages, hs.freePages, hs.faults⟩, fun hrel => ?_⟩
      rw [hs.faults, hrel.write] at hf
      cases hf
  · rename_i hcond
    refine .inl ⟨v, rfl, h, hs, fun x => ?_⟩
    split
    · rename_i hx
      exact absurd ⟨h.victim_of_mapped hw hx.1, hpage ▸ hx.2⟩ hcond
    · rw [hd]

/-! ## The calls that look for a frame -/

/-- A copy of the pool that differs in the counters satisfies the invariant too. -/
theorem PoolInv.countMiss (hw : w.PoolInv) (n : Nat) : PoolInv { w with bufferMisses := n } :=
  ⟨hw.table, hw.freeNodup, hw.free, hw.covered, hw.replacer, hw.evictable, hw.resident⟩

theorem fetchMiss_cases (hw : w.PoolInv) :
    (∃ f w', w.fetchMiss p = (some f, w') ∧ 0 ≤ p.toInt ∧ p.toInt < w.disk.numPages ∧
        Loads w f p (w.disk.pages p) w' ∧ Saves w f w'.disk) ∨
      ∃ w', w.fetchMiss p = (none, w') ∧ Kept w w' ∧
        (¬ (0 ≤ p.toInt ∧ p.toInt < w.disk.numPages) ∨ w.NoFrame ∨ ¬ w.disk.faults.Reliable) := by
  unfold fetchMiss
  have hw' := hw.countMiss (w.bufferMisses + 1)
  rcases ht : takeFrame { w with bufferMisses := w.bufferMisses + 1 } with ⟨_ | ⟨f, b⟩, v⟩
  · obtain ⟨rfl, hno⟩ := takeFrame_none hw' ht
    exact .inr ⟨_, rfl, ⟨rfl, rfl, rfl, rfl, hw.replacer, fun _ => rfl, .refl _, fun _ => .inl rfl⟩,
      .inr (.inl hno)⟩
  · obtain ⟨hh, hd⟩ := takeFrame_some hw' ht
    have hand : InHand w f b v :=
      ⟨hh.lt, hh.unpinned, hh.poolSize, hh.pages, hh.pageTable, hh.valid, hh.fromFree,
        hh.fromReplacer⟩
    have hcopy : ∀ d n, InHand w f b { v with disk := d, diskReads := n } := fun d n =>
      ⟨hand.lt, hand.unpinned, hand.poolSize, hand.pages, hand.pageTable, hand.valid,
        hand.fromFree, hand.fromReplacer⟩
    have hdw : v.disk = w.disk := hd
    dsimp only
    rcases DiskManager.readPage_cases v.disk p with ⟨hr, h0, hlt⟩ | ⟨e, d, hr, hdd, hwhy⟩
    · rw [hr]
      dsimp only
      rcases (hcopy v.disk.tick (v.diskReads + 1)).writeBack hw (by rw [← hdw]; rfl)
        (by rw [← hdw]; exact ⟨rfl, rfl, rfl⟩) with
        ⟨v', hwb, hh', hs⟩ | ⟨e, v', hwb, hh', hpg, hs, hrel⟩
      · rw [hwb]
        rw [hdw] at hlt
        refine .inl ⟨f, _, rfl, h0, hlt, ?_, ?_⟩
        · have := hh'.install hw p (v.disk.pages p)
          rwa [hdw] at this ⊢
        · cases b <;> exact hs
      · rw [hwb]
        exact .inr ⟨_, rfl, hh'.giveBack hs (fun x => .inl (by rw [hpg])), .inr (.inr hrel)⟩
    · rw [hr]
      rw [hdw] at hdd hwhy
      refine .inr ⟨_, rfl, (hcopy d v.diskReads).giveBack ?_ (fun x => .inl ?_), ?_⟩
      · rcases hdd with rfl | rfl
        · exact .refl _
        · exact ⟨rfl, rfl, rfl⟩
      · rcases hdd with rfl | rfl <;> rfl
      · rcases hwhy with hf | hv
        · exact .inr (.inr fun hrel => by rw [hrel.read] at hf; cases hf)
        · exact .inl hv

/-- `FetchPage` is a hit, loads the page into a frame, or returns null and changes nothing. -/
theorem fetchPage_cases (hw : w.PoolInv) (p : PageId) :
    (∃ f, w.frameOf p = some f ∧ w.fetchPage p = w.fetchHit f) ∨
      (∃ f w', w.fetchPage p = (some f, w') ∧ w.frameOf p = none ∧
        0 ≤ p.toInt ∧ p.toInt < w.disk.numPages ∧
        Loads w f p (w.disk.pages p) w' ∧ Saves w f w'.disk) ∨
      ∃ w', w.fetchPage p = (none, w') ∧ w.frameOf p = none ∧ Kept w w' ∧
        (¬ (0 ≤ p.toInt ∧ p.toInt < w.disk.numPages) ∨ w.NoFrame ∨ ¬ w.disk.faults.Reliable) := by
  unfold fetchPage
  cases hp : w.frameOf p with
  | some f =>
    have := hw.resident hp
    rw [if_neg (by omega)]
    exact .inl ⟨f, rfl, rfl⟩
  | none =>
    split
    · rename_i hneg
      exact .inr (.inr ⟨w, rfl, rfl,
        ⟨rfl, rfl, rfl, rfl, hw.replacer, fun _ => rfl, .refl _, fun _ => .inl rfl⟩,
        .inl (by omega)⟩)
    · rcases fetchMiss_cases (p := p) hw with ⟨f, w', h, h0, hlt, hl, hs⟩ | ⟨w', h, hk, hwhy⟩
      · exact .inr (.inl ⟨f, w', h, rfl, h0, hlt, hl, hs⟩)
      · exact .inr (.inr ⟨w', h, rfl, hk, hwhy⟩)

/-- `NewPage` loads a page of zeros into a frame, or returns null and changes nothing. -/
theorem newPage_cases (hw : w.PoolInv) :
    (∃ p f d w', w.newPage = (some (p, f), w') ∧ Loads w f p Image.zero w' ∧ Saves w f d ∧
        DiskManager.Allocates d p w'.disk ∧ ∃ b v, w.takeFrame = (some (f, b), v)) ∨
      ∃ w', w.newPage = (none, w') ∧ Kept w w' ∧
        (w.NoFrame ∨ ¬ w.disk.faults.Reliable ∨ w.disk.CannotAllocate) := by
  unfold newPage
  rcases ht : w.takeFrame with ⟨_ | ⟨f, b⟩, v⟩
  · obtain ⟨rfl, hno⟩ := takeFrame_none hw ht
    exact .inr ⟨_, rfl, ⟨rfl, rfl, rfl, rfl, hw.replacer, fun _ => rfl, .refl _, fun _ => .inl rfl⟩,
      .inl hno⟩
  · obtain ⟨hand, hdw⟩ := takeFrame_some hw ht
    have hcopy : ∀ v' d n, InHand w f b v' → InHand w f b { v' with disk := d, diskWrites := n } :=
      fun v' d n h => ⟨h.lt, h.unpinned, h.poolSize, h.pages, h.pageTable, h.valid, h.fromFree,
        h.fromReplacer⟩
    dsimp only
    rcases hand.writeBack hw (by rw [hdw]) (by rw [hdw]; exact .refl _) with
      ⟨v', hwb, hh', hs⟩ | ⟨e, v', hwb, hh', hpg, hs, hrel⟩
    · rw [hwb]
      dsimp only
      rcases ha : v'.disk.allocatePage with ⟨_ | p, d⟩
      · obtain ⟨rfl, hwhy⟩ := DiskManager.allocatePage_none ha
        refine .inr ⟨_, rfl, (hcopy v' _ v'.diskWrites hh').giveBack ?_ fun x => ?_,
          .inr (.inr (hs.shape.cannotAllocate.mp hwhy))⟩
        · exact ⟨hs.shape.numPages, hs.shape.freePages, hs.shape.faults⟩
        · show v'.disk.pages x = _ ∨ ∃ f, _ ∧ _ ∧ v'.disk.pages x = _
          rw [hs.pages]
          split
          · rename_i hx
            exact .inr ⟨f, hx.1, hx.2, rfl⟩
          · exact .inl rfl
      · refine .inl ⟨p, f, v'.disk, _, rfl, (hcopy v' d _ hh').install hw p _, hs, ?_, b, v, rfl⟩
        cases b <;> exact DiskManager.allocatePage_some ha
    · rw [hwb]
      exact .inr ⟨_, rfl, hh'.giveBack hs (fun x => .inl (by rw [hpg])), .inr (.inl hrel)⟩

end BufferPoolManager

end MiniDbms
