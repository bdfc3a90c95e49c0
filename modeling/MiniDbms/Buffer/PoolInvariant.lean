import MiniDbms.Buffer.PoolSteps
import Mathlib.Data.List.Induction

/-!
# The structural invariant of the pool

`PoolInv` is preserved by every public call, whatever its arguments and whatever the disk
does, with one exception. A deleted page can be fetched again, because `ReadPage` does not
look at the free set; when `AllocatePage` then hands out its id, `NewPage` maps the id to a
second frame and the first one is orphaned: it is neither free nor mapped.

* `step_poolInv`: a call keeps the invariant when `NewPage` does not meet such a page
  (`NewPageFresh`), and `step_keepsPinned`: it keeps every pinned page where it is;
* `runCalls_poolInv`: so does a whole run;
* `poolInv_unless_reallocated`: the four structures agree in every state of such a run;
* `reallocated_page_orphans_frame`: the run that orphans a frame.
-/

namespace MiniDbms

namespace BufferPoolManager

open Lib

variable {w w' : BufferPoolManager} {f g : FrameId} {p q : PageId}

/-! ## The other outcomes -/

/-- The page `p` stays in the frame `f`, whose contents become `page`. -/
structure Touches (w : BufferPoolManager) (p : PageId) (f : FrameId) (page : Page)
    (w' : BufferPoolManager) : Prop where
  mapped : w.frameOf p = some f
  pageId : page.pageId = p
  poolSize : w'.poolSize = w.poolSize
  pages : w'.pages = Function.update w.pages f page
  pageTable : w'.pageTable = w.pageTable
  freeList : w'.freeList = w.freeList
  replacer : w'.replacer.Valid w.poolSize
  has : ∀ g, w'.replacer.has g = if g = f then decide (page.pinCount = 0) else w.replacer.has g
  shape : DiskManager.SameShape w.disk w'.disk

/-- The page `p` leaves the frame `f`, which becomes free. -/
structure Drops (w : BufferPoolManager) (p : PageId) (f : FrameId) (w' : BufferPoolManager) :
    Prop where
  mapped : w.frameOf p = some f
  unpinned : (w.pages f).pinCount = 0
  poolSize : w'.poolSize = w.poolSize
  pages : w'.pages = Function.update w.pages f {}
  frameOf : ∀ x, w'.frameOf x = if x = p then none else w.frameOf x
  freeList : w'.freeList = w.freeList ++ [f]
  replacer : w'.replacer.Valid w.poolSize
  has : ∀ g, w'.replacer.has g = if g = f then false else w.replacer.has g
  disk : w'.disk = w.disk.deallocatePage p

theorem fetchHit_touches (hw : w.PoolInv) (hp : w.frameOf p = some f) :
    ∃ w', w.fetchHit f = (some f, w') ∧ w'.disk = w.disk ∧
      Touches w p f { w.pages f with pinCount := (w.pages f).pinCount + 1 } w' := by
  refine ⟨_, rfl, rfl, hp, (hw.table hp).2, rfl, rfl, rfl, rfl, hw.replacer.pin f, fun g => ?_,
    .refl _⟩
  rw [show decide ((w.pages f).pinCount + 1 = 0) = false by simp]
  exact ClockReplacer.has_pin w.replacer f g

/-- `UnpinPage` takes one pin from a page that is in the pool and pinned, else it does nothing. -/
theorem unpinPage_cases (hw : w.PoolInv) (p : PageId) (dirty : Bool) :
    (∃ f w', w.unpinPage p dirty = (true, w') ∧ w'.disk = w.disk ∧ 0 < (w.pages f).pinCount ∧
        Touches w p f { w.pages f with
          pinCount := (w.pages f).pinCount - 1
          isDirty := (w.pages f).isDirty || dirty } w') ∨
      w.unpinPage p dirty = (false, w) ∧
        ∀ f, w.frameOf p = some f → (w.pages f).pinCount = 0 := by
  unfold unpinPage
  cases hp : w.frameOf p with
  | none => exact .inr ⟨rfl, nofun⟩
  | some f =>
    dsimp only
    split
    · rename_i hzero
      exact .inr ⟨rfl, fun g hg => by cases hg; exact hzero⟩
    · rename_i hpos
      have hid := (hw.table hp).2
      have hnot : w.replacer.has f = false := by
        rw [← Bool.not_eq_true, hw.evictable]
        exact fun h => hpos h.2
      refine .inl ⟨f, _, rfl, ?_, by omega, hp, hid, ?_, ?_, ?_, ?_, ?_, fun g => ?_, ?_⟩
      all_goals split
      case refine_7.isTrue hlast =>
        show (w.replacer.unpin f).has g = _
        rw [ClockReplacer.has_unpin hw.replacer (hw.table hp).1, hlast]
        rfl
      case refine_7.isFalse hlast =>
        show w.replacer.has g = _
        split
        · rename_i hg
          rw [hg, hnot, decide_eq_false hlast]
        · rfl
      case refine_6.isTrue => exact hw.replacer.unpin f
      case refine_6.isFalse => exact hw.replacer
      case refine_8.isTrue => exact .refl _
      case refine_8.isFalse => exact .refl _
      all_goals rfl

/-- A dirty page is written to disk and becomes clean, unless the write fails. -/
theorem flushEntry_cases (hw : w.PoolInv) (hp : w.frameOf p = some f) :
    (Touches w p f { w.pages f with isDirty := false } (w.flushEntry p f) ∧
        (w.flushEntry p f).disk.pages = Function.update w.disk.pages p (w.pages f).data) ∨
      Kept w (w.flushEntry p f) ∧ (w.flushEntry p f).disk.pages = w.disk.pages ∧
        ((w.pages f).isDirty = false ∨ ¬ w.disk.faults.Reliable) := by
  have hr := hw.resident hp
  have hhas : ∀ g, w.replacer.has g =
      if g = f then decide ((w.pages f).pinCount = 0) else w.replacer.has g := by
    intro g
    split
    · rename_i hg
      rw [Bool.eq_iff_iff, hg, hw.evictable, decide_eq_true_iff]
      exact ⟨fun h => h.2, fun h => ⟨⟨p, hp⟩, h⟩⟩
    · rfl
  unfold flushEntry
  split
  · rcases DiskManager.writePage_cases hr.1 hr.2 (w.pages f).data with hwr | ⟨hf, e, hwr⟩
    · rw [hwr]
      exact .inl ⟨⟨hp, (hw.table hp).2, rfl, rfl, rfl, rfl, hw.replacer, hhas, ⟨rfl, rfl, rfl⟩⟩,
        rfl⟩
    · rw [hwr]
      exact .inr ⟨⟨rfl, rfl, rfl, rfl, hw.replacer, fun _ => rfl, ⟨rfl, rfl, rfl⟩,
        fun _ => .inl rfl⟩, rfl, .inr fun hrel => by rw [hrel.write] at hf; cases hf⟩
  · rename_i hclean
    exact .inr ⟨⟨rfl, rfl, rfl, rfl, hw.replacer, fun _ => rfl, .refl _, fun _ => .inl rfl⟩, rfl,
      .inl (by simpa using hclean)⟩

/-- `FlushPage` is one turn of the loop of `FlushAllPages`, with a result. -/
theorem flushPage_snd (w : BufferPoolManager) (p : PageId) :
    (w.flushPage p).2 = match w.frameOf p with
      | none => w
      | some f => w.flushEntry p f := by
  unfold flushPage flushEntry
  cases w.frameOf p with
  | none => rfl
  | some f =>
    dsimp only
    split
    · rcases w.disk.writePage p (w.pages f).data with ⟨_ | _, d⟩ <;> rfl
    · rfl

theorem deletePage_cases (hw : w.PoolInv) (p : PageId) :
    (∃ f w', w.deletePage p = (true, w') ∧ 0 < p.toInt ∧ Drops w p f w') ∨
      (w.deletePage p = (true, { w with disk := w.disk.deallocatePage p }) ∧ 0 < p.toInt ∧
        w.frameOf p = none) ∨
      w.deletePage p = (false, w) ∧
        (p.toInt ≤ 0 ∨ ∃ f, w.frameOf p = some f ∧ 0 < (w.pages f).pinCount) := by
  unfold deletePage
  split
  · rename_i hneg
    exact .inr (.inr ⟨rfl, .inl hneg⟩)
  · cases hp : w.frameOf p with
    | none => exact .inr (.inl ⟨rfl, by omega, rfl⟩)
    | some f =>
      dsimp only
      split
      · rename_i hpin
        exact .inr (.inr ⟨rfl, .inr ⟨f, rfl, hpin⟩⟩)
      · refine .inl ⟨f, _, rfl, by omega, hp, by omega, rfl, rfl, fun x => ?_, rfl,
          hw.replacer.pin f, fun g => ClockReplacer.has_pin _ f g, rfl⟩
        show (w.pageTable.erase p).lookup x = _
        split
        · rename_i hx
          rw [hx, AList.lookup_erase]
        · rename_i hx
          exact AList.lookup_erase_ne hx

/-! ## The outcomes keep the invariant -/

theorem Kept.frameOf (h : Kept w w') (x : PageId) : w'.frameOf x = w.frameOf x := by
  rw [BufferPoolManager.frameOf, h.pageTable]
  rfl

theorem Kept.poolInv (h : Kept w w') (hw : w.PoolInv) : w'.PoolInv where
  table hp := by
    rw [h.frameOf] at hp
    rw [h.poolSize, h.pages]
    exact hw.table hp
  freeNodup := by rw [h.freeList]; exact hw.freeNodup
  free f hf := by
    rw [h.freeList] at hf
    simp only [h.poolSize, h.pages, h.frameOf]
    exact hw.free f hf
  covered f hf := by
    rw [h.poolSize] at hf
    simp only [h.freeList, h.frameOf]
    exact hw.covered f hf
  replacer := by rw [h.poolSize]; exact h.replacer
  evictable f := by simp only [h.has, h.frameOf, h.pages, hw.evictable f]
  resident hp := by
    rw [h.frameOf] at hp
    rw [h.shape.numPages]
    exact hw.resident hp

theorem Touches.frameOf {page : Page} (h : Touches w p f page w') (x : PageId) :
    w'.frameOf x = w.frameOf x := by
  rw [BufferPoolManager.frameOf, h.pageTable]
  rfl

theorem Touches.poolInv {page : Page} (h : Touches w p f page w') (hw : w.PoolInv) :
    w'.PoolInv where
  table {q g} hq := by
    rw [h.frameOf] at hq
    rw [h.poolSize, h.pages]
    refine ⟨(hw.table hq).1, ?_⟩
    by_cases hg : g = f
    · subst hg
      rw [Function.update_self, h.pageId]
      exact hw.frame_inj h.mapped hq
    · rw [Function.update_of_ne hg]
      exact (hw.table hq).2
  freeNodup := by rw [h.freeList]; exact hw.freeNodup
  free g hg := by
    rw [h.freeList] at hg
    have hfree := hw.free g hg
    have hne : g ≠ f := fun he => hfree.2.2 p (he ▸ h.mapped)
    simp only [h.poolSize, h.pages, h.frameOf, Function.update_of_ne hne]
    exact hfree
  covered g hg := by
    rw [h.poolSize] at hg
    simp only [h.freeList, h.frameOf]
    exact hw.covered g hg
  replacer := by rw [h.poolSize]; exact h.replacer
  evictable g := by
    simp only [h.has, h.frameOf, h.pages]
    by_cases hg : g = f
    · subst hg
      simp only [if_pos, Function.update_self, decide_eq_true_iff]
      exact ⟨fun h0 => ⟨⟨p, h.mapped⟩, h0⟩, fun h0 => h0.2⟩
    · rw [if_neg hg, Function.update_of_ne hg, hw.evictable]
  resident hq := by
    rw [h.frameOf] at hq
    rw [h.shape.numPages]
    exact hw.resident hq

theorem Drops.poolInv (h : Drops w p f w') (hw : w.PoolInv) : w'.PoolInv where
  table {q g} hq := by
    rw [h.frameOf] at hq
    split at hq
    · cases hq
    · rename_i hne
      have hg : g ≠ f := fun he => hne (hw.frame_inj hq (he ▸ h.mapped))
      rw [h.poolSize, h.pages, Function.update_of_ne hg]
      exact hw.table hq
  freeNodup := by
    rw [h.freeList, List.nodup_append]
    refine ⟨hw.freeNodup, List.nodup_singleton f, fun g hg g' hg' => ?_⟩
    rw [List.mem_singleton] at hg'
    rintro rfl
    exact (hw.free g hg).2.2 p (hg' ▸ h.mapped)
  free g hg := by
    simp only [h.poolSize, h.pages, h.frameOf]
    rw [h.freeList, List.mem_append, List.mem_singleton] at hg
    by_cases hgf : g = f
    · subst hgf
      refine ⟨(hw.table h.mapped).1, by rw [Function.update_self], fun q hq => ?_⟩
      split at hq
      · cases hq
      · rename_i hne
        exact hne (hw.frame_inj hq h.mapped)
    · have hfree := hw.free g (hg.resolve_right hgf)
      refine ⟨hfree.1, by rw [Function.update_of_ne hgf]; exact hfree.2.1, fun q hq => ?_⟩
      split at hq
      · cases hq
      · exact hfree.2.2 q hq
  covered g hg := by
    rw [h.poolSize] at hg
    simp only [h.freeList, h.frameOf, List.mem_append, List.mem_singleton]
    rcases hw.covered g hg with hfree | ⟨q, hq⟩
    · exact .inl (.inl hfree)
    · by_cases hqp : q = p
      · rw [hqp, h.mapped] at hq
        exact .inl (.inr (Option.some.inj hq).symm)
      · exact .inr ⟨q, by rw [if_neg hqp]; exact hq⟩
  replacer := by rw [h.poolSize]; exact h.replacer
  evictable g := by
    simp only [h.has, h.frameOf, h.pages]
    by_cases hg : g = f
    · subst hg
      simp only [if_pos, Bool.false_eq_true, false_iff, not_and, forall_exists_index]
      intro q hq
      split at hq
      · cases hq
      · rename_i hne
        exact absurd (hw.frame_inj hq h.mapped) hne
    · rw [if_neg hg, Function.update_of_ne hg, hw.evictable]
      refine and_congr_left fun _ => exists_congr fun q => ?_
      split
      · rename_i hq
        rw [hq, h.mapped]
        simp [Ne.symm hg]
      · rfl
  resident hq := by
    rw [h.frameOf] at hq
    rw [h.disk, DiskManager.deallocatePage_numPages]
    split at hq
    · cases hq
    · exact hw.resident hq

/-- A page put into a frame keeps the invariant, unless the page already is in another one. -/
theorem Loads.poolInv {data : PageData} (h : Loads w f p data w') (hw : w.PoolInv)
    (hfresh : ∀ g, w.frameOf p = some g → g = f) (h0 : 0 ≤ p.toInt)
    (hlt : p.toInt < w'.disk.numPages) (hmono : w.disk.numPages ≤ w'.disk.numPages) :
    w'.PoolInv := by
  -- what the new table says about the frames other than `f`
  have hother : ∀ {q g}, g ≠ f → (w'.frameOf q = some g ↔ w.frameOf q = some g) := by
    intro q g hg
    rw [h.frameOf]
    split
    · rename_i hq
      subst hq
      exact ⟨fun he => absurd (Option.some.inj he).symm hg, fun he => absurd (hfresh g he) hg⟩
    · split
      · rename_i hqf
        rw [hqf]
        exact ⟨nofun, fun he => absurd (Option.some.inj he).symm hg⟩
      · rfl
  have hself : ∀ {q}, w'.frameOf q = some f ↔ q = p := by
    intro q
    rw [h.frameOf]
    split
    · rename_i hq
      simp [hq]
    · rename_i hq
      split
      · simp [hq]
      · rename_i hqf
        simp [hq, hqf]
  have hfree : ∀ g, g ∈ w'.freeList ↔ g ≠ f ∧ g ∈ w.freeList := fun g => by
    rw [h.freeList, hw.freeNodup.mem_erase_iff]
  refine ⟨fun {q g} hq => ?_, ?_, fun g hg => ?_, fun g hg => ?_, ?_, fun g => ?_,
    fun {q g} hq => ?_⟩
  · rw [h.poolSize, h.pages]
    by_cases hg : g = f
    · subst hg
      rw [Function.update_self]
      exact ⟨h.lt, (hself.mp hq).symm⟩
    · rw [Function.update_of_ne hg]
      exact hw.table ((hother hg).mp hq)
  · rw [h.freeList]
    exact hw.freeNodup.erase f
  · obtain ⟨hgf, hin⟩ := (hfree g).mp hg
    obtain ⟨hlt', hpin, hno⟩ := hw.free g hin
    rw [h.poolSize, h.pages, Function.update_of_ne hgf]
    exact ⟨hlt', hpin, fun q hq => hno q ((hother hgf).mp hq)⟩
  · rw [h.poolSize] at hg
    by_cases hgf : g = f
    · exact .inr ⟨p, by rw [hgf]; exact hself.mpr rfl⟩
    · rcases hw.covered g hg with hin | ⟨q, hq⟩
      · exact .inl ((hfree g).mpr ⟨hgf, hin⟩)
      · exact .inr ⟨q, (hother hgf).mpr hq⟩
  · rw [h.poolSize]
    exact h.replacer
  · rw [h.has, h.pages]
    by_cases hgf : g = f
    · simp [hgf]
    · rw [if_neg hgf, Function.update_of_ne hgf, hw.evictable]
      exact and_congr_left fun _ => exists_congr fun q => (hother hgf).symm
  · by_cases hgf : g = f
    · rw [hgf, hself] at hq
      subst hq
      exact ⟨h0, hlt⟩
    · have := hw.resident ((hother hgf).mp hq)
      exact ⟨this.1, by omega⟩

/-! ## `FlushAllPages` -/

theorem mem_entries {e : (_ : PageId) × FrameId} (he : e ∈ w.pageTable.entries) :
    w.frameOf e.1 = some e.2 :=
  AList.mem_lookup_iff.mpr he

/-- What every turn of the loop of `FlushAllPages` keeps holds at its end. -/
theorem flushAllPages_induction (P : BufferPoolManager → Prop) (h0 : P w)
    (hstep : ∀ v, P v → ∀ p f, w.frameOf p = some f → P (v.flushEntry p f)) :
    P w.flushAllPages :=
  List.foldlRecOn (motive := P) w.pageTable.entries _ h0 fun v hv e he =>
    hstep v hv e.1 e.2 (mem_entries he)

theorem Kept.refl (hw : w.PoolInv) : Kept w w :=
  ⟨rfl, rfl, rfl, rfl, hw.replacer, fun _ => rfl, .refl _, fun _ => .inl rfl⟩

/-- What writing back dirty pages leaves as it was. -/
structure Flushed (w w' : BufferPoolManager) : Prop where
  inv : w'.PoolInv
  frameOf : ∀ x, w'.frameOf x = w.frameOf x
  pinCount : ∀ g, (w'.pages g).pinCount = (w.pages g).pinCount
  data : ∀ g, (w'.pages g).data = (w.pages g).data
  poolSize : w'.poolSize = w.poolSize
  shape : DiskManager.SameShape w.disk w'.disk

theorem flushEntry_flushed (hw : w.PoolInv) (hp : w.frameOf p = some f) :
    Flushed w (w.flushEntry p f) := by
  rcases flushEntry_cases hw hp with ⟨ht, -⟩ | ⟨hk, -, -⟩
  · have hpage : ∀ g, (w.flushEntry p f).pages g =
        if g = f then { w.pages f with isDirty := false } else w.pages g := fun g => by
      rw [ht.pages, Function.update_apply]
    refine ⟨ht.poolInv hw, ht.frameOf, fun g => ?_, fun g => ?_, ht.poolSize, ht.shape⟩
    · rw [hpage]
      split
      · rename_i hg
        rw [hg]
      · rfl
    · rw [hpage]
      split
      · rename_i hg
        rw [hg]
      · rfl
  · exact ⟨hk.poolInv hw, hk.frameOf, fun g => by rw [hk.pages], fun g => by rw [hk.pages],
      hk.poolSize, hk.shape⟩

theorem Flushed.trans {v : BufferPoolManager} (h : Flushed w v) (h' : Flushed v w') :
    Flushed w w' :=
  ⟨h'.inv, fun x => (h'.frameOf x).trans (h.frameOf x),
    fun g => (h'.pinCount g).trans (h.pinCount g),
    fun g => (h'.data g).trans (h.data g), h'.poolSize.trans h.poolSize, h.shape.trans h'.shape⟩

theorem flushAllPages_flushed (hw : w.PoolInv) : Flushed w w.flushAllPages :=
  flushAllPages_induction (Flushed w)
    ⟨hw, fun _ => rfl, fun _ => rfl, fun _ => rfl, rfl, .refl _⟩
    fun _ hv p _ hp => hv.trans (flushEntry_flushed hv.inv ((hv.frameOf p).trans hp))

theorem flushPage_flushed (hw : w.PoolInv) (p : PageId) : Flushed w (w.flushPage p).2 := by
  rw [flushPage_snd]
  cases hp : w.frameOf p with
  | none => exact ⟨hw, fun _ => rfl, fun _ => rfl, fun _ => rfl, rfl, .refl _⟩
  | some f => exact flushEntry_flushed hw hp

/-! ## Calls -/

/-- A public call of the pool. -/
inductive PoolCall where
  | fetchPage (p : PageId)
  | newPage
  | unpinPage (p : PageId) (isDirty : Bool)
  | deletePage (p : PageId)
  | flushPage (p : PageId)
  | flushAllPages
  deriving DecidableEq, Repr

/-- The pool after a call. -/
def call (w : BufferPoolManager) : PoolCall → BufferPoolManager
  | .fetchPage p => (w.fetchPage p).2
  | .newPage => w.newPage.2
  | .unpinPage p dirty => (w.unpinPage p dirty).2
  | .deletePage p => (w.deletePage p).2
  | .flushPage p => (w.flushPage p).2
  | .flushAllPages => w.flushAllPages

/-- The pool after a run of calls. -/
def runCalls (w : BufferPoolManager) (calls : List PoolCall) : BufferPoolManager :=
  calls.foldl call w

/-- The id that the next allocation hands out is in a frame, and `NewPage` takes another frame. -/
def ReallocatesResident (w : BufferPoolManager) : Prop :=
  ∃ g f b v, w.frameOf w.disk.nextPageId = some g ∧ w.takeFrame = (some (f, b), v) ∧ g ≠ f

/-- The call does not hand out the id of a page that stays in another frame. -/
def CallSafe (w : BufferPoolManager) (c : PoolCall) : Prop :=
  c = .newPage → ¬ w.ReallocatesResident

/-- Every call of the run is safe in the state in which it is made. -/
def SafeRun (w : BufferPoolManager) : List PoolCall → Prop
  | [] => True
  | c :: cs => w.CallSafe c ∧ SafeRun (w.call c) cs

theorem nextPageId_congr {d d' : DiskManager} (h : DiskManager.SameShape d d') :
    d'.nextPageId = d.nextPageId := by
  unfold DiskManager.nextPageId
  rw [h.freePages, h.numPages]

/-- A pinned page stays in its frame, and pinned until it is unpinned. -/
def KeepsPinned (w : BufferPoolManager) (c : PoolCall) (w' : BufferPoolManager) : Prop :=
  ∀ p f, w.frameOf p = some f → 0 < (w.pages f).pinCount →
    w'.frameOf p = some f ∧ ((∀ dirty, c ≠ .unpinPage p dirty) → 0 < (w'.pages f).pinCount)

theorem Flushed.keepsPinned (h : Flushed w w') (c : PoolCall) : KeepsPinned w c w' :=
  fun p f hp hpin => ⟨(h.frameOf p).trans hp, fun _ => by rw [h.pinCount]; exact hpin⟩

theorem Kept.keepsPinned (h : Kept w w') (c : PoolCall) : KeepsPinned w c w' :=
  fun p f hp hpin => ⟨(h.frameOf p).trans hp, fun _ => by rw [h.pages]; exact hpin⟩

theorem Loads.keepsPinned {data : PageData} (h : Loads w f p data w')
    (hfresh : ∀ g, w.frameOf p = some g → g = f) (c : PoolCall) : KeepsPinned w c w' := by
  intro q g hq hpin
  have hgf : g ≠ f := by
    rintro rfl
    have := h.unpinned
    omega
  have hqp : q ≠ p := by
    rintro rfl
    exact hgf (hfresh g hq)
  refine ⟨?_, fun _ => by rw [h.pages, Function.update_of_ne hgf]; exact hpin⟩
  rw [h.frameOf, if_neg hqp, if_neg, hq]
  rw [hq]
  exact fun he => hgf (Option.some.inj he)

/-- The call keeps the invariant and the pinned pages. -/
theorem step_poolInv (hw : w.PoolInv) {c : PoolCall} (hc : w.CallSafe c) :
    (w.call c).PoolInv ∧ KeepsPinned w c (w.call c) := by
  cases c with
  | fetchPage p =>
    rcases fetchPage_cases hw p with ⟨f, hp, he⟩ | ⟨f, w', he, hp, h0, hlt, hl, hs⟩ |
      ⟨w', he, -, hk, -⟩
    · obtain ⟨w', he', -, ht⟩ := fetchHit_touches hw hp
      simp only [call, he, he']
      refine ⟨ht.poolInv hw, fun q g hq hpin => ⟨(ht.frameOf q).trans hq, fun _ => ?_⟩⟩
      rw [ht.pages, Function.update_apply]
      split
      · exact Nat.succ_pos _
      · exact hpin
    · simp only [call, he]
      have hfresh : ∀ g, w.frameOf p = some g → g = f := fun g hg => by rw [hp] at hg; cases hg
      exact ⟨hl.poolInv hw hfresh h0 (by rw [hs.shape.numPages]; exact hlt)
        (le_of_eq hs.shape.numPages.symm), hl.keepsPinned hfresh _⟩
    · simp only [call, he]
      exact ⟨hk.poolInv hw, hk.keepsPinned _⟩
  | newPage =>
    rcases newPage_cases hw with ⟨p, f, d, w', he, hl, hs, ha, b, v, ht⟩ | ⟨w', he, hk, hwhy⟩
    · simp only [call, he]
      have hfresh : ∀ g, w.frameOf p = some g → g = f := by
        intro g hg
        by_contra hne
        refine hc rfl ⟨g, f, b, v, ?_, ht, hne⟩
        rw [← nextPageId_congr hs.shape, ← ha.id, hg]
      have hin := ((ha.allocated p).mpr (.inl rfl))
      refine ⟨hl.poolInv hw hfresh hin.1 hin.2.1 ?_, hl.keepsPinned hfresh _⟩
      rw [← hs.shape.numPages]
      exact ha.numPages_le
    · simp only [call, he]
      exact ⟨hk.poolInv hw, hk.keepsPinned _⟩
  | unpinPage p dirty =>
    rcases unpinPage_cases hw p dirty with ⟨f, w', he, -, -, ht⟩ | ⟨he, -⟩
    · simp only [call, he]
      refine ⟨ht.poolInv hw, fun q g hq hpin => ⟨(ht.frameOf q).trans hq, fun hne => ?_⟩⟩
      have hqp : q ≠ p := fun h => hne dirty (h ▸ rfl)
      rw [ht.pages, Function.update_of_ne]
      · exact hpin
      · rintro rfl
        exact hqp (hw.frame_inj hq ht.mapped)
    · simp only [call, he]
      exact ⟨hw, (Kept.refl hw).keepsPinned _⟩
  | deletePage p =>
    rcases deletePage_cases hw p with ⟨f, w', he, -, hd⟩ | ⟨he, -, hp⟩ | ⟨he, -⟩
    · simp only [call, he]
      refine ⟨hd.poolInv hw, fun q g hq hpin => ?_⟩
      have hgf : g ≠ f := by
        rintro rfl
        have := hd.unpinned
        omega
      have hqp : q ≠ p := by
        rintro rfl
        exact hgf (Option.some.inj (hq.symm.trans hd.mapped))
      rw [hd.frameOf, if_neg hqp, hd.pages, Function.update_of_ne hgf]
      exact ⟨hq, fun _ => hpin⟩
    · simp only [call, he]
      refine ⟨⟨hw.table, hw.freeNodup, hw.free, hw.covered, hw.replacer, hw.evictable,
        fun hq => ?_⟩, fun q g hq hpin => ⟨hq, fun _ => hpin⟩⟩
      show _ ∧ _ < ((w.disk.deallocatePage p).numPages : Int)
      rw [DiskManager.deallocatePage_numPages]
      exact hw.resident hq
    · simp only [call, he]
      exact ⟨hw, (Kept.refl hw).keepsPinned _⟩
  | flushPage p => exact ⟨(flushPage_flushed hw p).inv, (flushPage_flushed hw p).keepsPinned _⟩
  | flushAllPages =>
    exact ⟨(flushAllPages_flushed hw).inv, (flushAllPages_flushed hw).keepsPinned _⟩

/-! ## Runs -/

theorem runCalls_append (w : BufferPoolManager) (pre post : List PoolCall) :
    w.runCalls (pre ++ post) = (w.runCalls pre).runCalls post :=
  List.foldl_append

theorem safeRun_append {pre post : List PoolCall} :
    w.SafeRun (pre ++ post) ↔ w.SafeRun pre ∧ (w.runCalls pre).SafeRun post := by
  induction pre generalizing w with
  | nil => simp [SafeRun, runCalls]
  | cons c cs ih =>
    simp only [List.cons_append, SafeRun, ih, and_assoc]
    rfl

theorem runCalls_poolInv (hw : w.PoolInv) {calls : List PoolCall} (h : w.SafeRun calls) :
    (w.runCalls calls).PoolInv := by
  induction calls generalizing w with
  | nil => exact hw
  | cons c cs ih => exact ih (step_poolInv hw h.1).1 h.2

/-- No call changes which accesses fail. -/
theorem call_faults (hw : w.PoolInv) (c : PoolCall) : (w.call c).disk.faults = w.disk.faults := by
  cases c with
  | fetchPage p =>
    rcases fetchPage_cases hw p with ⟨f, hp, he⟩ | ⟨f, w', he, -, -, -, -, hs⟩ | ⟨w', he, -, hk, -⟩
    · rw [call, he]
      rfl
    · rw [call, he]
      exact hs.shape.faults
    · rw [call, he]
      exact hk.shape.faults
  | newPage =>
    rcases newPage_cases hw with ⟨p, f, d, w', he, hl, hs, ha, -⟩ | ⟨w', he, hk, -⟩
    · rw [call, he]
      exact ha.faults.trans hs.shape.faults
    · rw [call, he]
      exact hk.shape.faults
  | unpinPage p dirty =>
    rcases unpinPage_cases hw p dirty with ⟨f, w', he, hd, -⟩ | ⟨he, -⟩
    · rw [call, he, hd]
    · rw [call, he]
  | deletePage p =>
    rcases deletePage_cases hw p with ⟨f, w', he, -, hd⟩ | ⟨he, -⟩ | ⟨he, -⟩
    · rw [call, he]
      dsimp only
      rw [hd.disk, DiskManager.deallocatePage_faults]
    · rw [call, he]
      exact DiskManager.deallocatePage_faults _ _
    · rw [call, he]
  | flushPage p => exact (flushPage_flushed hw p).shape.faults
  | flushAllPages => exact (flushAllPages_flushed hw).shape.faults

theorem runCalls_faults (hw : w.PoolInv) {calls : List PoolCall} (h : w.SafeRun calls) :
    (w.runCalls calls).disk.faults = w.disk.faults := by
  induction calls generalizing w with
  | nil => rfl
  | cons c cs ih => exact (ih (step_poolInv hw h.1).1 h.2).trans (call_faults hw c)

/-- The page table, the free list, the replacer and the frames agree, as seen from outside. -/
structure Structured (w : BufferPoolManager) : Prop where
  injective : ∀ p q f, w.frameOf p = some f → w.frameOf q = some f → p = q
  ownId : ∀ p f, w.frameOf p = some f → f < w.poolSize ∧ (w.pages f).pageId = p
  inPool : ∀ f ∈ w.freeList, f < w.poolSize
  placed : ∀ f, f < w.poolSize →
    (w.freeList.count f = 1 ∧ ∀ p, w.frameOf p ≠ some f) ∨
      (w.freeList.count f = 0 ∧ ∃! p, w.frameOf p = some f)
  replacer : ∀ f,
    w.replacer.has f = true ↔ (∃ p, w.frameOf p = some f) ∧ (w.pages f).pinCount = 0

theorem PoolInv.structured (hw : w.PoolInv) : w.Structured where
  injective _ _ _ hp hq := hw.frame_inj hp hq
  ownId _ _ hp := hw.table hp
  inPool f hf := (hw.free f hf).1
  placed f hf := by
    by_cases hin : f ∈ w.freeList
    · exact .inl ⟨List.count_eq_one_of_mem hw.freeNodup hin, (hw.free f hin).2.2⟩
    · obtain ⟨p, hp⟩ := (hw.covered f hf).resolve_left hin
      exact .inr ⟨List.count_eq_zero_of_not_mem hin, p, hp, fun q hq => hw.frame_inj hq hp⟩
  replacer := hw.evictable

theorem InHand.not_noFrame {b : Bool} {v : BufferPoolManager} (h : InHand w f b v) :
    ¬ w.NoFrame := by
  rintro ⟨hfree, hhas⟩
  cases b with
  | true =>
    have := (h.fromFree rfl).1
    rw [hfree] at this
    cases this
  | false =>
    have := (h.fromReplacer rfl).2.2.1
    rw [hhas f] at this
    cases this

/-- An unsafe `NewPage` leaves the frame of the reallocated page neither free nor mapped. -/
theorem newPage_orphans (hw : w.PoolInv) (hd : w.disk.faults = DiskFaults.none)
    (h : w.ReallocatesResident) : ¬ w.newPage.2.Structured := by
  obtain ⟨g, f', b', v', hg, ht', hne⟩ := h
  have hrange := hw.resident hg
  have hfree : w.disk.nextPageId ∈ w.disk.freePages := by
    by_contra hin
    exact w.disk.nextPageId_not_allocated ⟨hrange.1, hrange.2, hin⟩
  rcases newPage_cases hw with ⟨p, f, d, w', he, hl, hs, ha, b, v, ht⟩ | ⟨w', he, hk, hwhy⟩
  · rw [he]
    intro hst
    cases ht.symm.trans ht'
    have hp : p = w.disk.nextPageId := by rw [ha.id, nextPageId_congr hs.shape]
    rw [← hp] at hg
    have hlt : g < w'.poolSize := by rw [hl.poolSize]; exact (hw.table hg).1
    have hunmapped : ∀ q, w'.frameOf q ≠ some g := by
      intro q
      rw [hl.frameOf]
      split
      · exact fun heq => hne (Option.some.inj heq).symm
      · split
        · exact nofun
        · rename_i hq _
          exact fun hqg => hq (hw.frame_inj hqg hg)
    rcases hst.placed g hlt with ⟨hcount, -⟩ | ⟨-, q, hq, -⟩
    · have hin : g ∈ w'.freeList := List.count_pos_iff.mp (by rw [hcount]; exact Nat.one_pos)
      rw [hl.freeList] at hin
      exact (hw.free g (List.mem_of_mem_erase hin)).2.2 p hg
    · exact hunmapped q hq
  · exfalso
    rcases hwhy with hno | hrel | ⟨n, hn⟩ | ⟨hnil, -⟩
    · exact (takeFrame_some hw ht').1.not_noFrame hno
    · exact hrel (hd ▸ DiskFaults.none_reliable)
    · rw [hd] at hn
      cases hn
    · rw [hnil] at hfree
      cases hfree

/-- In a run whose calls are all safe the four structures agree in every state and every pinned
page stays in its frame, and only in such a run. -/
theorem structured_iff_safeRun {n : Nat} (hn : 0 < n) {d : DiskManager}
    (hd : d.faults = DiskFaults.none) (calls : List PoolCall) :
    ((∀ pre post, calls = pre ++ post → ((new n d).runCalls pre).Structured) ∧
        ∀ pre c post, calls = pre ++ c :: post →
          KeepsPinned ((new n d).runCalls pre) c (((new n d).runCalls pre).call c)) ↔
      (new n d).SafeRun calls := by
  have h0 := new_poolInv hn d
  constructor
  · rintro ⟨hall, -⟩
    induction calls using List.reverseRecOn with
    | nil => trivial
    | append_singleton cs c ih =>
      have hsafe : (new n d).SafeRun cs := ih fun pre post he =>
        hall pre (post ++ [c]) (by rw [he, List.append_assoc])
      refine safeRun_append.mpr ⟨hsafe, ?_, trivial⟩
      rintro rfl hre
      have hst := hall (cs ++ [.newPage]) [] (List.append_nil _).symm
      rw [runCalls_append] at hst
      exact newPage_orphans (runCalls_poolInv h0 hsafe)
        ((runCalls_faults h0 hsafe).trans hd) hre hst
  · intro hsafe
    constructor
    · rintro pre post rfl
      exact (runCalls_poolInv h0 (safeRun_append.mp hsafe).1).structured
    · rintro pre c post rfl
      obtain ⟨hpre, hc, -⟩ := safeRun_append.mp hsafe
      exact (step_poolInv (runCalls_poolInv h0 hpre) hc).2

theorem structured_iff_safeRun_one :
    0 < 1 ∧ (DiskManager.newFile DiskFaults.none).faults = DiskFaults.none ∧
      ((new 1 (DiskManager.newFile DiskFaults.none)).runCalls
        [.newPage, .unpinPage 1 false, .deletePage 1]).Structured :=
  ⟨Nat.one_pos, rfl,
    ((structured_iff_safeRun Nat.one_pos rfl [.newPage, .unpinPage 1 false, .deletePage 1]).mpr
      ⟨by (rintro - ⟨g, f, b, v, hg, -⟩; cases hg), nofun, nofun, trivial⟩).1 _ [] rfl⟩

/-- A page is created, unpinned and deleted, and its id is fetched again. -/
def refetchDeleted : List PoolCall := [.newPage, .unpinPage 1 false, .deletePage 1, .fetchPage 1]

/-- The next `NewPage` hands out the id that was fetched and orphans its frame. -/
theorem reallocated_page_orphans_frame :
    ¬ ((new 2 (DiskManager.newFile DiskFaults.none)).runCalls
      (refetchDeleted ++ [.newPage])).Structured := by
  have h0 := new_poolInv Nat.two_pos (DiskManager.newFile DiskFaults.none)
  have hsafe : (new 2 (DiskManager.newFile DiskFaults.none)).SafeRun refetchDeleted :=
    ⟨by (rintro - ⟨g, f, b, v, hg, -⟩; cases hg), nofun, nofun, nofun, trivial⟩
  rw [runCalls_append]
  refine newPage_orphans (runCalls_poolInv h0 hsafe) (runCalls_faults h0 hsafe)
    ⟨1, 0, true, _, by decide, rfl, by decide⟩

end BufferPoolManager

end MiniDbms
