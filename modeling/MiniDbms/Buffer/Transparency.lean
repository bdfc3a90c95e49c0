import MiniDbms.Buffer.PoolInvariant

/-!
# The pool is transparent

What clients know of the pool is a `ClientView`: the bytes last written to each page, the
pins that they hold, and the pages with bytes written since the last dirty mark (`stale`).
`Sim` relates it to the frames, the dirty bits and the disk: a resident page has its bytes
in its frame, every other allocated page has them on disk, and a clean frame equals the
disk unless the page is stale. Each call keeps `Sim` for the view that it should produce:

* `Sim.fetchPage`, `Sim.newPage`: a frame with the expected bytes, or a null pointer;
* `Sim.write`, `Sim.setDirty`, `Sim.unpinPage`, `Sim.deletePage`;
* `Sim.flushPage`, `Sim.flushAllPages`: the view is unchanged, and the disk is up to date.
-/

namespace MiniDbms

open Lib

/-- What the clients of a pool know. -/
structure ClientView where
  /-- The bytes last written to a page, zeros if none since it was allocated. -/
  mem : PageId → PageData
  /-- The number of pins that the clients hold on a page. -/
  pins : PageId → Nat
  /-- Bytes were written after the last dirty mark. -/
  stale : PageId → Bool

namespace ClientView

/-- One more pin on `p`. -/
def pin (s : ClientView) (p : PageId) : ClientView :=
  { s with pins := Function.update s.pins p (s.pins p + 1) }

/-- One pin less on `p`, with a dirty mark or without. -/
def unpin (s : ClientView) (p : PageId) (dirty : Bool) : ClientView :=
  { s with
    pins := Function.update s.pins p (s.pins p - 1)
    stale := if dirty then Function.update s.stale p false else s.stale }

/-- A new page of zeros, pinned once. -/
def create (s : ClientView) (p : PageId) : ClientView :=
  { s with mem := Function.update s.mem p Image.zero, pins := Function.update s.pins p 1 }

/-- The bytes of `p` are replaced. -/
def write (s : ClientView) (p : PageId) (data : PageData) : ClientView :=
  { s with mem := Function.update s.mem p data, stale := Function.update s.stale p true }

/-- `p` is marked dirty. -/
def mark (s : ClientView) (p : PageId) : ClientView :=
  { s with stale := Function.update s.stale p false }

end ClientView

namespace BufferPoolManager

variable {w w' : BufferPoolManager} {s : ClientView} {f g : FrameId} {p q : PageId}

/-- A client writes through its `Page*`. -/
def writeBytes (w : BufferPoolManager) (f : FrameId) (data : PageData) : BufferPoolManager :=
  w.setFrame f { w.pages f with data := data }

/-- `Page::SetDirty(true)`. -/
def setDirty (w : BufferPoolManager) (f : FrameId) : BufferPoolManager :=
  w.setFrame f { w.pages f with isDirty := true }

/-- The pool holds what its clients know. -/
structure Sim (w : BufferPoolManager) (s : ClientView) : Prop where
  inv : w.PoolInv
  reliable : w.disk.faults.Reliable
  allocated : ∀ {p f}, w.frameOf p = some f → w.disk.Allocated p
  pins : ∀ {p f}, w.frameOf p = some f → (w.pages f).pinCount = s.pins p
  unmapped : ∀ {p}, w.frameOf p = none → s.pins p = 0
  data : ∀ {p f}, w.frameOf p = some f → (w.pages f).data = s.mem p
  onDisk : ∀ {p}, w.disk.Allocated p → w.frameOf p = none → w.disk.pages p = s.mem p
  clean : ∀ {p f}, w.frameOf p = some f → (w.pages f).isDirty = false → s.stale p = false →
    w.disk.pages p = s.mem p
  stale : ∀ {p}, s.stale p = true → 0 < s.pins p

/-- What a call never changes: the size, the faults and the frames of pinned pages. -/
structure Stays (w : BufferPoolManager) (s : ClientView) (w' : BufferPoolManager) : Prop where
  poolSize : w'.poolSize = w.poolSize
  faults : w'.disk.faults = w.disk.faults
  numPages : w.disk.numPages ≤ w'.disk.numPages
  frames : ∀ {q g}, w.frameOf q = some g → 0 < s.pins q → w'.frameOf q = some g

theorem Sim.mapped_of_pinned (h : Sim w s) (hp : 0 < s.pins p) : ∃ f, w.frameOf p = some f := by
  cases hf : w.frameOf p with
  | some f => exact ⟨f, rfl⟩
  | none =>
    have := h.unmapped hf
    omega

theorem Stays.of_same (hsize : w'.poolSize = w.poolSize) (hdisk : w'.disk = w.disk)
    (htable : w'.pageTable = w.pageTable) : Stays w s w' :=
  ⟨hsize, by rw [hdisk], by rw [hdisk], fun hq _ => by rwa [frameOf, htable]⟩

/-- What is known about pages that are not allocated does not matter. -/
theorem Sim.congr_allocated {s' : ClientView} (h : Sim w s) (hpins : s'.pins = s.pins)
    (hstale : s'.stale = s.stale) (hmem : ∀ p, w.disk.Allocated p → s'.mem p = s.mem p) :
    Sim w s' where
  inv := h.inv
  reliable := h.reliable
  allocated := h.allocated
  pins hp := by rw [hpins, h.pins hp]
  unmapped hp := by rw [hpins, h.unmapped hp]
  data hp := by rw [h.data hp, hmem _ (h.allocated hp)]
  onDisk ha hp := by rw [h.onDisk ha hp, hmem _ ha]
  clean hp hc hs := by
    rw [hstale] at hs
    rw [h.clean hp hc hs, hmem _ (h.allocated hp)]
  stale hs := by
    rw [hstale] at hs
    rw [hpins]
    exact h.stale hs

/-! ## Steps that move no page -/

/-- The page in a frame changes as the view of it does. -/
theorem Sim.touch {page : Page} {s' : ClientView} (h : Sim w s) (ht : Touches w p f page w')
    (hother : ∀ q, q ≠ p → s'.mem q = s.mem q ∧ s'.pins q = s.pins q ∧ s'.stale q = s.stale q)
    (hpins : page.pinCount = s'.pins p) (hdata : page.data = s'.mem p)
    (hdiskOther : ∀ q, q ≠ p → w'.disk.pages q = w.disk.pages q)
    (hclean : page.isDirty = false → s'.stale p = false → w'.disk.pages p = s'.mem p)
    (hstale : s'.stale p = true → 0 < s'.pins p) : Sim w' s' where
  inv := ht.poolInv h.inv
  reliable := by rw [ht.shape.faults]; exact h.reliable
  allocated hq := by
    rw [ht.frameOf] at hq
    exact (ht.shape.allocated _).mpr (h.allocated hq)
  pins {q g} hq := by
    rw [ht.frameOf] at hq
    rw [ht.pages]
    by_cases hqp : q = p
    · subst hqp
      cases hq.symm.trans ht.mapped
      rw [Function.update_self, hpins]
    · have hgf : g ≠ f := fun he => hqp (h.inv.frame_inj hq (he ▸ ht.mapped))
      rw [Function.update_of_ne hgf, h.pins hq, (hother q hqp).2.1]
  unmapped {q} hq := by
    rw [ht.frameOf] at hq
    have hqp : q ≠ p := by
      rintro rfl
      rw [ht.mapped] at hq
      cases hq
    rw [(hother q hqp).2.1]
    exact h.unmapped hq
  data {q g} hq := by
    rw [ht.frameOf] at hq
    rw [ht.pages]
    by_cases hqp : q = p
    · subst hqp
      cases hq.symm.trans ht.mapped
      rw [Function.update_self, hdata]
    · have hgf : g ≠ f := fun he => hqp (h.inv.frame_inj hq (he ▸ ht.mapped))
      rw [Function.update_of_ne hgf, h.data hq, (hother q hqp).1]
  onDisk {q} ha hq := by
    rw [ht.frameOf] at hq
    have hqp : q ≠ p := by
      rintro rfl
      rw [ht.mapped] at hq
      cases hq
    rw [hdiskOther q hqp, (hother q hqp).1]
    exact h.onDisk ((ht.shape.allocated _).mp ha) hq
  clean {q g} hq := by
    rw [ht.frameOf] at hq
    rw [ht.pages]
    by_cases hqp : q = p
    · subst hqp
      cases hq.symm.trans ht.mapped
      rw [Function.update_self]
      exact hclean
    · have hgf : g ≠ f := fun he => hqp (h.inv.frame_inj hq (he ▸ ht.mapped))
      rw [Function.update_of_ne hgf, hdiskOther q hqp, (hother q hqp).1, (hother q hqp).2.2]
      exact h.clean hq
  stale {q} hq := by
    by_cases hqp : q = p
    · subst hqp
      exact hstale hq
    · rw [(hother q hqp).2.1]
      rw [(hother q hqp).2.2] at hq
      exact h.stale hq

theorem touches_setFrame (hw : w.PoolInv) (hp : w.frameOf p = some f) (page : Page)
    (hid : page.pageId = (w.pages f).pageId) (hpin : page.pinCount = (w.pages f).pinCount) :
    Touches w p f page (w.setFrame f page) := by
  refine ⟨hp, hid.trans (hw.table hp).2, rfl, rfl, rfl, rfl, hw.replacer, fun g => ?_, .refl _⟩
  show w.replacer.has g = _
  split
  · rename_i hg
    rw [Bool.eq_iff_iff, hg, hw.evictable, decide_eq_true_iff, hpin]
    exact ⟨fun h => h.2, fun h => ⟨⟨p, hp⟩, h⟩⟩
  · rfl

theorem Sim.write (h : Sim w s) (hp : w.frameOf p = some f) (hpin : 0 < s.pins p)
    (data : PageData) : Sim (w.writeBytes f data) (s.write p data) := by
  refine h.touch (touches_setFrame h.inv hp { w.pages f with data := data } rfl rfl)
    (fun q hq => ?_) (h.pins hp) ?_ (fun _ _ => rfl) (fun _ hst => ?_) (fun _ => hpin)
  · simp [ClientView.write, hq]
  · simp [ClientView.write]
  · simp [ClientView.write] at hst

theorem Sim.setDirty (h : Sim w s) (hp : w.frameOf p = some f) :
    Sim (w.setDirty f) (s.mark p) := by
  refine h.touch (touches_setFrame h.inv hp { w.pages f with isDirty := true } rfl rfl)
    (fun q hq => ?_) (h.pins hp) (h.data hp) (fun _ _ => rfl) (fun hd => by cases hd)
    (fun hst => ?_)
  · simp [ClientView.mark, hq]
  · simp [ClientView.mark] at hst

/-- Giving up a pin. The last one may go only when no unmarked bytes are left. -/
theorem Sim.unpinPage (h : Sim w s) (hpin : 0 < s.pins p) (dirty : Bool)
    (hlast : s.pins p = 1 → dirty = true ∨ s.stale p = false) :
    ∃ w', w.unpinPage p dirty = (true, w') ∧ Sim w' (s.unpin p dirty) ∧ Stays w s w' ∧
      ∀ x, w'.disk.Allocated x ↔ w.disk.Allocated x := by
  obtain ⟨f, hf⟩ := h.mapped_of_pinned hpin
  rcases unpinPage_cases h.inv p dirty with ⟨g, w', he, hd, hpos, ht⟩ | ⟨-, hzero⟩
  · have hpc := h.pins ht.mapped
    refine ⟨w', he, ?_, .of_same ht.poolSize hd ht.pageTable, fun x => by rw [hd]⟩
    refine h.touch ht (fun q hq => ?_) ?_ (h.data ht.mapped) (fun q _ => by rw [hd])
      (fun hcl hst => ?_) (fun hst => ?_)
    · cases dirty <;> simp [ClientView.unpin, hq]
    · simp [ClientView.unpin, hpc]
    · have hcl' : (w.pages g).isDirty = false ∧ dirty = false := by simpa using hcl
      rw [hcl'.2] at hst
      rw [hd]
      exact h.clean ht.mapped hcl'.1 hst
    · simp only [ClientView.unpin, Function.update_self] at hst ⊢
      cases dirty with
      | true => simp at hst
      | false =>
        have hst' : s.stale p = true := by simpa using hst
        by_contra hle
        rcases hlast (by omega) with hd' | hd'
        · cases hd'
        · rw [hst'] at hd'
          cases hd'
  · have := hzero f hf
    have := h.pins hf
    omega

/-! ## Writing back -/

theorem Sim.flushEntry (h : Sim w s) (hp : w.frameOf p = some f) :
    Sim (w.flushEntry p f) s ∧
      (∀ q, w.disk.pages q = s.mem q → (w.flushEntry p f).disk.pages q = s.mem q) ∧
      (s.stale p = false → (w.flushEntry p f).disk.pages p = s.mem p) := by
  rcases flushEntry_cases h.inv hp with ⟨ht, hdisk⟩ | ⟨hk, hdisk, hwhy⟩
  · have hp' : (w.flushEntry p f).disk.pages p = s.mem p := by
      rw [hdisk, Function.update_self, h.data hp]
    refine ⟨h.touch ht (fun _ _ => ⟨rfl, rfl, rfl⟩) (h.pins hp) (h.data hp) (fun q hq => ?_)
      (fun _ _ => hp') h.stale, fun q hq => ?_, fun _ => hp'⟩
    · rw [hdisk, Function.update_of_ne hq]
    · by_cases hqp : q = p
      · rw [hqp, hp']
      · rw [hdisk, Function.update_of_ne hqp, hq]
  · have hclean : (w.pages f).isDirty = false := hwhy.resolve_right fun hn => hn h.reliable
    refine ⟨⟨hk.poolInv h.inv, by rw [hk.shape.faults]; exact h.reliable, ?_, ?_, ?_, ?_, ?_, ?_,
      h.stale⟩, fun q hq => by rw [hdisk, hq], fun hst => by rw [hdisk, h.clean hp hclean hst]⟩
    · intro q g hq
      rw [hk.frameOf] at hq
      exact (hk.shape.allocated q).mpr (h.allocated hq)
    all_goals simp only [hk.frameOf, hk.pages, hdisk, hk.shape.allocated]
    · exact h.pins
    · exact h.unmapped
    · exact h.data
    · exact h.onDisk
    · exact h.clean

theorem Flushed.stays (h : Flushed w w') : Stays w s w' :=
  ⟨h.poolSize, h.shape.faults, le_of_eq h.shape.numPages.symm, fun hq _ => (h.frameOf _).trans hq⟩

/-- After `FlushAllPages` the disk has the bytes of every resident page that is not stale. -/
theorem Sim.flushAllPages (h : Sim w s) :
    Sim w.flushAllPages s ∧ Flushed w w.flushAllPages ∧
      ∀ q g, w.frameOf q = some g → s.stale q = false →
        w.flushAllPages.disk.pages q = s.mem q := by
  have hfl := flushAllPages_flushed h.inv
  -- the entries already visited are up to date, and stay so
  have hloop : ∀ (es : List ((_ : PageId) × FrameId)) (v : BufferPoolManager), Sim v s →
      Flushed w v → (∀ e ∈ es, w.frameOf e.1 = some e.2) →
      let v' := es.foldl (fun v e => v.flushEntry e.1 e.2) v
      Sim v' s ∧ (∀ q, v.disk.pages q = s.mem q → v'.disk.pages q = s.mem q) ∧
        ∀ e ∈ es, s.stale e.1 = false → v'.disk.pages e.1 = s.mem e.1 := by
    intro es
    induction es with
    | nil => exact fun v hv _ _ => ⟨hv, fun _ hq => hq, nofun⟩
    | cons e es ih =>
      intro v hv hvf hes
      have hmap : v.frameOf e.1 = some e.2 := (hvf.frameOf _).trans (hes e List.mem_cons_self)
      obtain ⟨h1, h2, h3⟩ := hv.flushEntry hmap
      obtain ⟨i1, i2, i3⟩ := ih _ h1 (hvf.trans (flushEntry_flushed hv.inv hmap))
        fun e' he' => hes e' (List.mem_cons_of_mem _ he')
      refine ⟨i1, fun q hq => i2 q (h2 q hq), fun e' he' hst => ?_⟩
      rcases List.mem_cons.mp he' with rfl | he'
      · exact i2 _ (h3 hst)
      · exact i3 e' he' hst
  obtain ⟨h1, -, h3⟩ := hloop w.pageTable.entries w h
    ⟨h.inv, fun _ => rfl, fun _ => rfl, fun _ => rfl, rfl, .refl _⟩ fun e he => mem_entries he
  refine ⟨h1, hfl, fun q g hq hst => ?_⟩
  exact h3 ⟨q, g⟩ (AList.mem_lookup_iff.mp hq) hst

/-- `FlushPage` of a resident page succeeds. -/
theorem Sim.flushPage_fst (h : Sim w s) (hp : w.frameOf p = some f) : (w.flushPage p).1 = true := by
  have hr := h.inv.resident hp
  unfold BufferPoolManager.flushPage
  rw [hp]
  dsimp only
  split
  · rw [DiskManager.writePage_reliable h.reliable hr.1 hr.2]
  · rfl

theorem Sim.flushPage (h : Sim w s) (p : PageId) : Sim (w.flushPage p).2 s := by
  rw [flushPage_snd]
  cases hp : w.frameOf p with
  | none => exact h
  | some f => exact (h.flushEntry hp).1

/-! ## Loading a page -/

/-- A page that enters the pool, or has just been allocated, comes with its bytes. -/
theorem Sim.load {s' : ClientView} {data : PageData} {d : DiskManager} (h : Sim w s)
    (hl : Loads w f p data w') (hs : Saves w f d) (hp : w.frameOf p = none) (hinv : w'.PoolInv)
    (hfaults : w'.disk.faults = w.disk.faults)
    (halloc : ∀ x, w'.disk.Allocated x ↔ x = p ∨ w.disk.Allocated x)
    (hdisk : ∀ q, q ≠ p → w'.disk.pages q = d.pages q) (hpage : w'.disk.pages p = data)
    (hother : ∀ q, q ≠ p → s'.mem q = s.mem q ∧ s'.pins q = s.pins q ∧ s'.stale q = s.stale q)
    (hmem : s'.mem p = data) (hpins : s'.pins p = 1) (hstale : s'.stale p = false) :
    Sim w' s' := by
  have hmapped : ∀ {q g}, w'.frameOf q = some g →
      (q = p ∧ g = f) ∨ (q ≠ p ∧ g ≠ f ∧ w.frameOf q = some g) := by
    intro q g hq
    rw [hl.frameOf] at hq
    split at hq
    · rename_i hqp
      exact .inl ⟨hqp, (Option.some.inj hq).symm⟩
    · rename_i hqp
      split at hq
      · cases hq
      · rename_i hqf
        exact .inr ⟨hqp, fun he => hqf (he ▸ hq), hq⟩
  have hunmapped : ∀ {q}, w'.frameOf q = none →
      q ≠ p ∧ (w.frameOf q = none ∨ w.frameOf q = some f) := by
    intro q hq
    rw [hl.frameOf] at hq
    split at hq
    · cases hq
    · rename_i hqp
      split at hq
      · rename_i hqf
        exact ⟨hqp, .inr hqf⟩
      · exact ⟨hqp, .inl hq⟩
  -- the page that leaves the frame is unpinned, so it is not stale
  have hvictim : ∀ {q}, w.frameOf q = some f → s.pins q = 0 ∧ s.stale q = false := by
    intro q hq
    have hpin : s.pins q = 0 := (h.pins hq).symm.trans hl.unpinned
    refine ⟨hpin, ?_⟩
    by_contra hst
    have := h.stale ((Bool.not_eq_false _).mp hst)
    omega
  refine ⟨hinv, by rw [hfaults]; exact h.reliable, fun {q g} hq => ?_, fun {q g} hq => ?_,
    fun {q} hq => ?_, fun {q g} hq => ?_, fun {q} ha hq => ?_, fun {q g} hq hcl hst => ?_,
    fun {q} hq => ?_⟩
  · rw [halloc]
    rcases hmapped hq with ⟨hqp, -⟩ | ⟨-, -, hq⟩
    · exact .inl hqp
    · exact .inr (h.allocated hq)
  · rw [hl.pages]
    rcases hmapped hq with ⟨rfl, rfl⟩ | ⟨hqp, hgf, hq⟩
    · rw [Function.update_self, hpins]
    · rw [Function.update_of_ne hgf, h.pins hq, (hother q hqp).2.1]
  · obtain ⟨hqp, hq | hq⟩ := hunmapped hq
    · rw [(hother q hqp).2.1, h.unmapped hq]
    · rw [(hother q hqp).2.1, (hvictim hq).1]
  · rw [hl.pages]
    rcases hmapped hq with ⟨rfl, rfl⟩ | ⟨hqp, hgf, hq⟩
    · rw [Function.update_self, hmem]
    · rw [Function.update_of_ne hgf, h.data hq, (hother q hqp).1]
  · obtain ⟨hqp, hq⟩ := hunmapped hq
    have ha' := ((halloc q).mp ha).resolve_left hqp
    rw [hdisk q hqp, hs.pages, (hother q hqp).1]
    rcases hq with hq | hq
    · rw [if_neg (by rw [hq]; exact fun hc => nomatch hc.1), h.onDisk ha' hq]
    · split
      · exact h.data hq
      · rename_i hclean
        have hd : (w.pages f).isDirty = false := by simpa [hq] using hclean
        exact h.clean hq hd (hvictim hq).2
  · rcases hmapped hq with ⟨rfl, rfl⟩ | ⟨hqp, hgf, hq⟩
    · rw [hpage, hmem]
    · rw [hl.pages, Function.update_of_ne hgf] at hcl
      rw [(hother q hqp).2.2] at hst
      rw [hdisk q hqp, hs.pages, if_neg, (hother q hqp).1]
      · exact h.clean hq hcl hst
      · rintro ⟨hqf, -⟩
        exact hgf (Option.some.inj (hq.symm.trans hqf))
  · by_cases hqp : q = p
    · rw [hqp, hstale] at hq
      cases hq
    · rw [(hother q hqp).2.2] at hq
      rw [(hother q hqp).2.1]
      exact h.stale hq

theorem Sim.kept (h : Sim w s) (hk : Kept w w') : Sim w' s ∧ Stays w s w' := by
  have hdata : ∀ {p}, w.disk.pages p = s.mem p → w'.disk.pages p = s.mem p := by
    intro p hp
    rcases hk.disk p with he | ⟨f, hf, -, he⟩
    · rw [he, hp]
    · rw [he, h.data hf]
  refine ⟨⟨hk.poolInv h.inv, by rw [hk.shape.faults]; exact h.reliable, ?_, ?_, ?_, ?_, ?_, ?_,
    h.stale⟩, hk.poolSize, hk.shape.faults, le_of_eq hk.shape.numPages.symm,
    fun hq _ => (hk.frameOf _).trans hq⟩
  all_goals simp only [hk.frameOf, hk.pages, hk.shape.allocated]
  · exact h.allocated
  · exact h.pins
  · exact h.unmapped
  · exact h.data
  · exact fun ha hp => hdata (h.onDisk ha hp)
  · exact fun hp hcl hst => hdata (h.clean hp hcl hst)

/-- The frames of pinned pages survive a load, which takes an unpinned frame. -/
theorem Loads.frames {data : PageData} (h : Sim w s) (hl : Loads w f p data w')
    (hp : w.frameOf p = none) {q : PageId} {g : FrameId} (hq : w.frameOf q = some g)
    (hpin : 0 < s.pins q) : w'.frameOf q = some g :=
  (hl.keepsPinned (fun g hg => by rw [hp] at hg; cases hg) .newPage q g hq
    (by rw [h.pins hq]; exact hpin)).1

/-- `FetchPage` of an allocated page returns a frame with its bytes, unless no frame is left. -/
theorem Sim.fetchPage (h : Sim w s) (ha : w.disk.Allocated p) :
    ∃ r w', w.fetchPage p = (r, w') ∧ Stays w s w' ∧
      (∀ x, w'.disk.Allocated x ↔ w.disk.Allocated x) ∧
      match r with
      | some f => w'.frameOf p = some f ∧ (w'.pages f).data = s.mem p ∧ Sim w' (s.pin p)
      | none => Sim w' s ∧ w.NoFrame := by
  have hother : ∀ q, q ≠ p → (s.pin p).mem q = s.mem q ∧ (s.pin p).pins q = s.pins q ∧
      (s.pin p).stale q = s.stale q := fun q hq => by simp [ClientView.pin, hq]
  rcases fetchPage_cases h.inv p with ⟨f, hp, he⟩ | ⟨f, w', he, hp, h0, hlt, hl, hs⟩ |
    ⟨w', he, -, hk, hwhy⟩
  · obtain ⟨w', he', hd, ht⟩ := fetchHit_touches h.inv hp
    have hsim : Sim w' (s.pin p) := by
      refine h.touch ht hother ?_ (h.data hp) (fun _ _ => by rw [hd]) (fun hcl hst => ?_)
        fun _ => ?_
      · simp [ClientView.pin, h.pins hp]
      · rw [hd]
        exact h.clean hp hcl hst
      · simp [ClientView.pin]
    have hf : w'.frameOf p = some f := (ht.frameOf p).trans hp
    refine ⟨some f, w', by rw [he, he'], .of_same ht.poolSize hd ht.pageTable,
      fun x => by rw [hd], hf, hsim.data hf, hsim⟩
  · have hinv : w'.PoolInv := hl.poolInv h.inv (fun g hg => by rw [hp] at hg; cases hg) h0
      (by rw [hs.shape.numPages]; exact hlt) (le_of_eq hs.shape.numPages.symm)
    have hdata : w'.disk.pages p = w.disk.pages p := by
      rw [hs.pages, if_neg (by rw [hp]; exact fun hc => nomatch hc.1)]
    have hmem : (s.pin p).mem p = w.disk.pages p := (h.onDisk ha hp).symm
    have hsim : Sim w' (s.pin p) := by
      refine h.load hl hs hp hinv hs.shape.faults (fun x => ?_) (fun _ _ => rfl) hdata hother hmem
        ?_ ?_
      · rw [hs.shape.allocated]
        exact ⟨.inr, fun hx => hx.elim (fun hx => hx ▸ ha) id⟩
      · simp [ClientView.pin, h.unmapped hp]
      · by_contra hst
        have := h.stale ((Bool.not_eq_false _).mp hst)
        rw [h.unmapped hp] at this
        omega
    have hf : w'.frameOf p = some f := by rw [hl.frameOf, if_pos rfl]
    exact ⟨some f, w', he, ⟨hl.poolSize, hs.shape.faults, le_of_eq hs.shape.numPages.symm,
      fun hq hpin => hl.frames h hp hq hpin⟩, hs.shape.allocated, hf, hsim.data hf, hsim⟩
  · obtain ⟨hsim, hst⟩ := h.kept hk
    refine ⟨none, w', he, hst, hk.shape.allocated, hsim, ?_⟩
    rcases hwhy with hr | hno | hrel
    · exact absurd ⟨ha.1, ha.2.1⟩ hr
    · exact hno
    · exact absurd h.reliable hrel

/-- `NewPage` returns a frame of zeros for a page that was not allocated. -/
theorem Sim.newPage (h : Sim w s) :
    ∃ r w', w.newPage = (r, w') ∧ Stays w s w' ∧
      match r with
      | some (p, f) => ¬ w.disk.Allocated p ∧ 0 < p.toInt ∧ s.pins p = 0 ∧
          (∀ x, w'.disk.Allocated x ↔ x = p ∨ w.disk.Allocated x) ∧
          w'.frameOf p = some f ∧ (w'.pages f).data = Image.zero ∧ Sim w' (s.create p)
      | none => (∀ x, w'.disk.Allocated x ↔ w.disk.Allocated x) ∧ Sim w' s ∧
          (w.NoFrame ∨ w.disk.CannotAllocate) := by
  rcases newPage_cases h.inv with ⟨p, f, d, w', he, hl, hs, ha, -⟩ | ⟨w', he, hk, hwhy⟩
  · have hfresh : ¬ w.disk.Allocated p := fun hp => ha.fresh ((hs.shape.allocated p).mpr hp)
    have hp : w.frameOf p = none := by
      cases hp : w.frameOf p with
      | none => rfl
      | some g => exact absurd (h.allocated hp) hfresh
    have halloc : ∀ x, w'.disk.Allocated x ↔ x = p ∨ w.disk.Allocated x := fun x => by
      rw [ha.allocated, hs.shape.allocated]
    have hin := (halloc p).mpr (.inl rfl)
    have hmono : w.disk.numPages ≤ w'.disk.numPages := hs.shape.numPages ▸ ha.numPages_le
    have hinv : w'.PoolInv := hl.poolInv h.inv (fun g hg => by rw [hp] at hg; cases hg) hin.1
      hin.2.1 hmono
    have hfaults := ha.faults.trans hs.shape.faults
    have hsim : Sim w' (s.create p) := by
      refine h.load hl hs hp hinv hfaults halloc (fun q hq => ?_) ?_ (fun q hq => ?_) ?_ ?_ ?_
      · rw [ha.pages, Function.update_of_ne hq]
      · rw [ha.pages, Function.update_self]
      · simp [ClientView.create, hq]
      · simp [ClientView.create]
      · simp [ClientView.create]
      · by_contra hst
        have := h.stale ((Bool.not_eq_false _).mp hst)
        rw [h.unmapped hp] at this
        omega
    have hf : w'.frameOf p = some f := by rw [hl.frameOf, if_pos rfl]
    have hzero : (w'.pages f).data = Image.zero := by
      rw [hl.pages, Function.update_self]
    exact ⟨some (p, f), w', he,
      ⟨hl.poolSize, hfaults, hmono, fun hq hpin => hl.frames h hp hq hpin⟩,
      hfresh, ha.pos, h.unmapped hp, halloc, hf, hzero, hsim⟩
  · obtain ⟨hsim, hst⟩ := h.kept hk
    refine ⟨none, w', he, hst, hk.shape.allocated, hsim, ?_⟩
    rcases hwhy with hno | hrel | hcan
    · exact .inl hno
    · exact absurd h.reliable hrel
    · exact .inr hcan

/-- `DeletePage` of an unpinned page deallocates it. -/
theorem Sim.deletePage (h : Sim w s) (hpin : s.pins p = 0) :
    ∃ b w', w.deletePage p = (b, w') ∧ Sim w' s ∧ Stays w s w' ∧ (0 < p.toInt → b = true) ∧
      ∀ x, w'.disk.Allocated x ↔ ¬ (x = p ∧ 0 < p.toInt) ∧ w.disk.Allocated x := by
  have hst : s.stale p = false := by
    by_contra hst
    have := h.stale ((Bool.not_eq_false _).mp hst)
    omega
  rcases deletePage_cases h.inv p with ⟨f, w', he, h0, hd⟩ | ⟨he, h0, hp⟩ | ⟨he, hwhy⟩
  · have hda := DiskManager.deallocatePage_allocated h.reliable h0 (h.allocated hd.mapped)
    rw [← hd.disk] at hda
    have hne : ∀ {q g}, w'.frameOf q = some g → q ≠ p ∧ g ≠ f ∧ w.frameOf q = some g := by
      intro q g hq
      rw [hd.frameOf] at hq
      split at hq
      · cases hq
      · rename_i hqp
        exact ⟨hqp, fun hg => hqp (h.inv.frame_inj hq (hg ▸ hd.mapped)), hq⟩
    refine ⟨true, w', he, ⟨hd.poolInv h.inv, by rw [hda.faults]; exact h.reliable,
      fun {q g} hq => ?_, fun {q g} hq => ?_, fun {q} hq => ?_, fun {q g} hq => ?_,
      fun {q} ha hq => ?_, fun {q g} hq => ?_, h.stale⟩,
      ⟨hd.poolSize, hda.faults, le_of_eq hda.numPages.symm, fun {q g} hq hpos => ?_⟩, fun _ => rfl,
      fun x => ?_⟩
    · obtain ⟨hqp, -, hq⟩ := hne hq
      exact (hda.allocated q).mpr ⟨hqp, h.allocated hq⟩
    · obtain ⟨-, hg, hq⟩ := hne hq
      rw [hd.pages, Function.update_of_ne hg, h.pins hq]
    · rw [hd.frameOf] at hq
      split at hq
      · rename_i hqp
        rw [hqp, hpin]
      · exact h.unmapped hq
    · obtain ⟨-, hg, hq⟩ := hne hq
      rw [hd.pages, Function.update_of_ne hg, h.data hq]
    · obtain ⟨hqp, ha⟩ := (hda.allocated q).mp ha
      rw [hd.frameOf, if_neg hqp] at hq
      rw [hda.pages, Function.update_of_ne hqp, h.onDisk ha hq]
    · obtain ⟨hqp, hg, hq⟩ := hne hq
      rw [hd.pages, Function.update_of_ne hg, hda.pages, Function.update_of_ne hqp]
      exact h.clean hq
    · have hqp : q ≠ p := by
        rintro rfl
        omega
      rw [hd.frameOf, if_neg hqp, hq]
    · rw [hda.allocated]
      simp [h0]
  · have hsame : ∀ d : DiskManager, d.faults = w.disk.faults →
        (∀ x, d.Allocated x ↔ x ≠ p ∧ w.disk.Allocated x) → d.numPages = w.disk.numPages →
        (∀ q, q ≠ p → d.pages q = w.disk.pages q) → Sim { w with disk := d } s := by
      intro d hf ha hn hpg
      have hq' : ∀ {q g}, w.frameOf q = some g → q ≠ p := by
        rintro q g hq rfl
        rw [hp] at hq
        cases hq
      refine ⟨⟨h.inv.table, h.inv.freeNodup, h.inv.free, h.inv.covered, h.inv.replacer,
        h.inv.evictable, fun hq => ?_⟩, ?_, fun hq => (ha _).mpr ⟨hq' hq, h.allocated hq⟩, h.pins,
        h.unmapped, h.data, fun {q} haq hq => ?_, fun hq hcl hst' => ?_, h.stale⟩
      · show _ ∧ _ < (d.numPages : Int)
        rw [hn]
        exact h.inv.resident hq
      · show d.faults.Reliable
        rw [hf]
        exact h.reliable
      · obtain ⟨hqp, haq⟩ := (ha q).mp haq
        exact (hpg q hqp).trans (h.onDisk haq hq)
      · exact (hpg _ (hq' hq)).trans (h.clean hq hcl hst')
    by_cases ha : w.disk.Allocated p
    · have hda := DiskManager.deallocatePage_allocated h.reliable h0 ha
      refine ⟨true, _, he, hsame _ hda.faults hda.allocated hda.numPages fun q hq => ?_,
        ⟨rfl, hda.faults, le_of_eq hda.numPages.symm, fun hq _ => hq⟩, fun _ => rfl, fun x => ?_⟩
      · rw [hda.pages, Function.update_of_ne hq]
      · show (w.disk.deallocatePage p).Allocated x ↔ _
        rw [hda.allocated]
        simp [h0]
    · have hda := DiskManager.deallocatePage_of_not (d := w.disk) fun hc => ha hc.2
      rw [hda] at he
      refine ⟨true, w, he, h, .of_same rfl rfl rfl, fun _ => rfl, fun x => ?_⟩
      exact ⟨fun hx => ⟨fun hc => ha (hc.1 ▸ hx), hx⟩, fun hx => hx.2⟩
  · refine ⟨false, w, he, h, .of_same rfl rfl rfl, fun h0 => ?_, fun x => ?_⟩
    · rcases hwhy with hle | ⟨f, hf, hpos⟩
      · omega
      · have := h.pins hf
        omega
    · rcases hwhy with hle | ⟨f, hf, hpos⟩
      · exact ⟨fun hx => ⟨fun hc => by omega, hx⟩, fun hx => hx.2⟩
      · have := h.pins hf
        omega

end BufferPoolManager

end MiniDbms
