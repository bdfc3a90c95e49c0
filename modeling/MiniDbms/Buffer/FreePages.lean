import MiniDbms.Buffer.DiskShape
import MiniDbms.Buffer.Programs
import MiniDbms.Storage.PageAllocator

/-!
# Free pages stay blank

The constructor of `DiskManager` takes every page of zeros for free. While a program runs, the free
pages are pages of zeros (`FreeBlank`): no call of the pool writes to a page that is not allocated
(`Sim.freeBlank_call`, `freeBlank_of_runs`). So the file that a pool leaves behind is opened with
the same pages if no page in use is one of zeros (`Holds.reopen`).
-/

namespace MiniDbms

open Lib PagedProgram Program BufferPoolManager

namespace DiskManager

/-- The free pages are pages of zeros. -/
def FreeBlank (d : DiskManager) : Prop := ∀ p ∈ d.freePages, d.pages p = Image.zero

variable {d d' : DiskManager} {p : PageId}

theorem FreeBlank.of_eq (h : d.FreeBlank) (hpages : d'.pages = d.pages)
    (hfree : d'.freePages = d.freePages) : d'.FreeBlank := by
  intro p hp
  rw [hfree] at hp
  rw [hpages, h p hp]

/-- Only pages that are not free have changed. -/
theorem FreeBlank.of_used (h : d.FreeBlank) (hshape : SameShape d d')
    (hpages : ∀ p, d'.pages p = d.pages p ∨ d.Allocated p) : d'.FreeBlank := by
  intro p hp
  rw [hshape.freePages] at hp
  rcases hpages p with he | ha
  · rw [he, h p hp]
  · exact absurd hp ha.2.2

/-- Free pages have been zeroed, and no page has become free. -/
theorem FreeBlank.of_zeroed (h : d.FreeBlank) (hfree : d'.freePages ⊆ d.freePages)
    (hpages : d'.pages = Function.update d.pages p Image.zero) : d'.FreeBlank := by
  intro q hq
  rw [hpages, Function.update_apply]
  split
  · rfl
  · exact h q (hfree hq)

theorem FreeBlank.deallocate (h : d.FreeBlank) (p : PageId) : (d.deallocatePage p).FreeBlank := by
  unfold deallocatePage
  split
  · split
    · split
      · exact h
      · split
        · exact h.of_eq rfl rfl
        · intro q hq
          show Function.update d.pages p Image.zero q = Image.zero
          by_cases hqp : q = p
          · rw [hqp, Function.update_self]
          · rw [Function.update_of_ne hqp]
            exact h q ((mem_insertPageId.mp hq).resolve_left hqp)
    · exact h
  · exact h

@[simp] theorem freePages_writePage (d : DiskManager) (p : PageId) (data : PageData) :
    (d.writePage p data).2.freePages = d.freePages := by
  unfold writePage
  repeat' split
  all_goals rfl

theorem FreeBlank.newFile (faults : DiskFaults) : (newFile faults).FreeBlank :=
  List.forall_mem_nil _

/-- The constructor takes pages of zeros only for free. -/
theorem FreeBlank.open {file : PageId → PageData} {n : Nat} {hn : n ≤ maxPages}
    {faults : DiskFaults} (h : openFile file n hn faults = some d) : d.FreeBlank := by
  unfold openFile at h
  split at h
  · split at h
    · cases h
    · cases h
      exact fun p hp => absurd hp List.not_mem_nil
  · split at h
    · cases h
    · cases h
      intro p hp
      exact isZeroPage_iff.mp (List.mem_filter.mp hp).2

/-- A file is opened with the pages that were in use, if no free page has other bytes than zeros and
no page in use is one of zeros. -/
theorem FreeBlank.reopen (h : d.FreeBlank)
    (hused : ∀ p, 0 < p.toInt → d.Allocated p → d.pages p ≠ Image.zero) {faults : DiskFaults}
    (hfaults : faults.Reliable) :
    ∃ d', openFile d.pages d.numPages d.numPages_le faults = some d' ∧ Reopens d d' ∧
      d'.faults = faults := by
  unfold openFile
  have hpos := d.numPages_pos
  have hread : ¬ (List.range (d.numPages - 1)).any faults.read = true := by
    simp [hfaults.read]
  rw [dif_neg (by omega), if_neg hread]
  have hfree : ∀ p, p ∈ (dataPageIds d.numPages).filter (fun p => isZeroPage (d.pages p)) ↔
      p ∈ d.freePages := by
    intro p
    rw [List.mem_filter, mem_dataPageIds d.numPages_le, isZeroPage_iff]
    constructor
    · intro hp
      by_contra hin
      exact hused p hp.1.1 ⟨by omega, hp.1.2, hin⟩ hp.2
    · intro hp
      exact ⟨d.free_range p hp, h p hp⟩
  refine ⟨_, rfl, ⟨rfl, rfl, hfree, fun p => ?_⟩, rfl⟩
  simp only [Allocated, hfree]

end DiskManager

namespace BufferPoolManager

variable {w v : BufferPoolManager} {s : ClientView}

/-! ## One call -/

theorem freePages_writeBack (w : BufferPoolManager) (f : FrameId) (b : Bool) :
    (w.writeBack f b).2.disk.freePages = w.disk.freePages := by
  unfold BufferPoolManager.writeBack
  split
  · have hwrite := DiskManager.freePages_writePage w.disk (w.pages f).pageId (w.pages f).data
    rcases hd : w.disk.writePage (w.pages f).pageId (w.pages f).data with ⟨_ | _, d⟩
    all_goals
      rw [hd] at hwrite
      exact hwrite
  · rfl

/-- `NewPage` makes no page free. -/
theorem freePages_newPage (w : BufferPoolManager) :
    w.newPage.2.disk.freePages ⊆ w.disk.freePages := by
  unfold newPage
  have htake := disk_takeFrame w
  rcases ht : w.takeFrame with ⟨_ | ⟨f, b⟩, v⟩
  · rw [ht] at htake
    rw [← htake]
    exact fun _ hp => hp
  · rw [ht] at htake
    have hback := freePages_writeBack v f b
    dsimp only
    rcases hw : v.writeBack f b with ⟨_ | _, v'⟩
    · rw [hw] at hback
      dsimp only at hback ⊢
      rw [disk_giveBack, hback, ← htake]
      exact fun _ hp => hp
    · rw [hw] at hback
      dsimp only at hback ⊢
      have hsub := DiskManager.freePages_allocatePage v'.disk
      rw [hback, htake] at hsub
      rcases ha : v'.disk.allocatePage with ⟨_ | p, d⟩
      · rw [ha] at hsub
        dsimp only
        rw [disk_giveBack]
        exact hsub
      · rw [ha] at hsub
        show (unmap { v' with disk := d, diskWrites := v'.diskWrites + 1 } f b).disk.freePages ⊆ _
        rw [disk_unmap]
        exact hsub

/-- No call of the pool writes to a free page, other than zeros. -/
theorem Sim.freeBlank_call (h : Sim w s) (hb : w.disk.FreeBlank) (c : PoolCall) :
    (w.call c).disk.FreeBlank := by
  have hkept : ∀ {w'}, Kept w w' → w'.disk.FreeBlank := fun {w'} hk =>
    hb.of_used hk.shape fun p => (hk.disk p).imp id fun ⟨f, hf, _⟩ => h.allocated hf
  have hsaved : ∀ {f d}, Saves w f d → d.FreeBlank := by
    intro f d hs
    refine hb.of_used hs.shape fun p => ?_
    rw [hs.pages]
    split
    · rename_i hf
      exact .inr (h.allocated hf.1)
    · exact .inl rfl
  have hflush : ∀ {v : BufferPoolManager} {p f}, Flushed w v → v.disk.FreeBlank →
      w.frameOf p = some f → (v.flushEntry p f).disk.FreeBlank := by
    intro v p f hv hvb hp
    have hp' : v.frameOf p = some f := (hv.frameOf p).trans hp
    have ha : v.disk.Allocated p := (hv.shape.allocated p).mpr (h.allocated hp)
    rcases flushEntry_cases hv.inv hp' with ⟨ht, hdisk⟩ | ⟨hk, hdisk, -⟩
    · refine hvb.of_used ht.shape fun q => ?_
      rw [hdisk]
      by_cases hq : q = p
      · exact .inr (hq ▸ ha)
      · exact .inl (Function.update_of_ne hq _ _)
    · exact hvb.of_eq hdisk hk.shape.freePages
  have hrefl : Flushed w w := ⟨h.inv, fun _ => rfl, fun _ => rfl, fun _ => rfl, rfl, .refl _⟩
  cases c with
  | fetchPage p =>
    show (w.fetchPage p).2.disk.FreeBlank
    rcases fetchPage_cases h.inv p with
      ⟨f, hp, he⟩ | ⟨f, w', he, -, -, -, -, hs⟩ | ⟨w', he, -, hk, -⟩
    · obtain ⟨w', he', hd, -⟩ := fetchHit_touches h.inv hp
      rw [he, he', hd]
      exact hb
    · rw [he]
      exact hsaved hs
    · rw [he]
      exact hkept hk
  | newPage =>
    show w.newPage.2.disk.FreeBlank
    have hsub := freePages_newPage w
    rcases newPage_cases h.inv with ⟨p, f, d, w', he, -, hs, ha, -⟩ | ⟨w', he, hk, -⟩
    · rw [he] at hsub ⊢
      refine (hsaved hs).of_zeroed ?_ ha.pages
      rw [hs.shape.freePages]
      exact hsub
    · rw [he]
      exact hkept hk
  | unpinPage p dirty =>
    show (w.unpinPage p dirty).2.disk.FreeBlank
    rcases unpinPage_cases h.inv p dirty with ⟨f, w', he, hd, -⟩ | ⟨he, -⟩
    · rw [he, hd]
      exact hb
    · rw [he]
      exact hb
  | deletePage p =>
    show (w.deletePage p).2.disk.FreeBlank
    rcases deletePage_cases h.inv p with ⟨f, w', he, -, hd⟩ | ⟨he, -⟩ | ⟨he, -⟩
    · rw [he, hd.disk]
      exact hb.deallocate p
    · rw [he]
      exact hb.deallocate p
    · rw [he]
      exact hb
  | flushPage p =>
    show (w.flushPage p).2.disk.FreeBlank
    rw [flushPage_snd]
    cases hp : w.frameOf p with
    | none => exact hb
    | some f => exact hflush hrefl hb hp
  | flushAllPages =>
    refine (flushAllPages_induction (fun v => Flushed w v ∧ v.disk.FreeBlank) ⟨hrefl, hb⟩
      fun v hv p f hp => ?_).2
    exact ⟨hv.1.trans (flushEntry_flushed hv.1.inv ((hv.1.frameOf p).trans hp)),
      hflush hv.1 hv.2 hp⟩

end BufferPoolManager

/-! ## Programs -/

section

variable {ext : PageId → Nat} {w : BufferPoolManager} {h : Pages} {α β : Type}
  {s : Store PageId FrameId PageData} {Q : α → Store PageId FrameId PageData → Prop}

/-- The first part of a program, and what is known before the rest. -/
theorem first_of_wp {x : Program β} {k : β → Program α} (hr : Rep ext w s)
    (hx : (x >>= k).wp (poolContext ext) Q s) : ∃ b v s', x.run w = some (b, v) ∧
      (k b).wp (poolContext ext) Q s' ∧ Rep ext v s' ∧ (x >>= k).run w = (k b).run v := by
  obtain ⟨b, v, s', hrun, hk, hv, -⟩ := run_of_wp hr (wp_bind.mp hx)
  refine ⟨b, v, s', hrun, hk, hv, ?_⟩
  rw [run_bind, hrun]
  rfl

theorem pool_of_fetchPage {p : PageId} {r : Option (FrameId × PageData)} {v : BufferPoolManager}
    (hrun : Program.run (PagedProgram.fetchPage p) w = some (r, v)) :
    v = w.call (.fetchPage p) := by
  show v = (w.fetchPage p).2
  rw [PagedProgram.fetchPage, Program.run] at hrun
  rcases he : w.fetchPage p with ⟨_ | f, v'⟩
  all_goals
    rw [he] at hrun
    cases hrun
    rfl

theorem pool_of_newPage {r : Option (PageId × FrameId × PageData)} {v : BufferPoolManager}
    (hrun : Program.run PagedProgram.newPage w = some (r, v)) : v = w.call .newPage := by
  show v = w.newPage.2
  rw [PagedProgram.newPage, Program.run] at hrun
  rcases he : w.newPage with ⟨_ | ⟨p, f⟩, v'⟩
  all_goals
    rw [he] at hrun
    cases hrun
    rfl

/-- Every call that the program can make has the property. -/
def Calls (P : PoolCall → Prop) : Program α → Prop
  | .ret _ => True
  | .diverge => True
  | .fetch p k => P (.fetchPage p) ∧ ∀ r, Calls P (k r)
  | .put _ _ _ k => Calls P k
  | .unpin p dirty k => P (.unpinPage p dirty) ∧ ∀ b, Calls P (k b)
  | .alloc k => P .newPage ∧ ∀ r, Calls P (k r)
  | .free p k => P (.deletePage p) ∧ ∀ b, Calls P (k b)
  | .flush p k => P (.flushPage p) ∧ ∀ b, Calls P (k b)
  | .flushAll k => P .flushAllPages ∧ Calls P k

theorem calls_of_forall {P : PoolCall → Prop} (hP : ∀ c, P c) : ∀ x : Program α, Calls P x := by
  intro x
  induction x with
  | ret a => exact trivial
  | diverge => exact trivial
  | put f d mark k ih => exact ih
  | _ => rename_i ih; exact ⟨hP _, ih⟩

/-- A quiet program allocates no page. -/
theorem calls_of_quiet {x : Program α} (hx : x.Quiet) : Calls (· ≠ .newPage) x := by
  induction x with
  | ret a => exact trivial
  | diverge => exact trivial
  | fetch p k ih => exact ⟨(fun he => by cases he), fun r => ih r (hx r)⟩
  | put f d mark k => exact hx.elim
  | unpin p dirty k ih => exact ⟨(fun he => by cases he), fun b => ih b (hx b)⟩
  | alloc k => exact hx.elim
  | free p k ih => exact ⟨(fun he => by cases he), fun b => ih b (hx b)⟩
  | flush p k ih => exact ⟨(fun he => by cases he), fun b => ih b (hx b)⟩
  | flushAll k ih => exact ⟨(fun he => by cases he), ih hx⟩

/-- What its calls keep of the disk is kept by a program. -/
theorem disk_of_wp {I : DiskManager → Prop} {P : PoolCall → Prop}
    (hcall : ∀ {w s} (c : PoolCall), P c → Sim w s → I w.disk → I (w.call c).disk) {x : Program α}
    (hr : Rep ext w s) (hx : x.wp (poolContext ext) Q s) (hcalls : Calls P x)
    (hi : I w.disk) {a : α}
    {w' : BufferPoolManager} (hrun : x.run w = some (a, w')) : I w'.disk := by
  induction x generalizing w s with
  | ret b =>
    cases hrun
    exact hi
  | diverge => cases hrun
  | fetch p k ih =>
    obtain ⟨b, v, s', hfirst, hk, hv, he⟩ :=
      first_of_wp (x := PagedProgram.fetchPage p) (k := k) hr hx
    have hv' := hcall (.fetchPage p) hcalls.1 hr.sim hi
    rw [← pool_of_fetchPage hfirst] at hv'
    exact ih b hv hk (hcalls.2 b) hv' (he.symm.trans hrun)
  | put f d mark k ih =>
    obtain ⟨b, v, s', hfirst, hk, hv, he⟩ :=
      first_of_wp (x := PagedProgram.putPage f d mark) (k := fun _ => k) hr hx
    have hv' : I v.disk := by
      cases hfirst
      cases mark <;> exact hi
    exact ih hv hk hcalls hv' (he.symm.trans hrun)
  | unpin p dirty k ih =>
    obtain ⟨b, v, s', hfirst, hk, hv, he⟩ :=
      first_of_wp (x := PagedProgram.unpinPage p dirty) (k := k) hr hx
    have hv' := hcall (.unpinPage p dirty) hcalls.1 hr.sim hi
    cases hfirst
    exact ih _ hv hk (hcalls.2 _) hv' (he.symm.trans hrun)
  | alloc k ih =>
    obtain ⟨b, v, s', hfirst, hk, hv, he⟩ := first_of_wp (x := PagedProgram.newPage) (k := k) hr hx
    have hv' := hcall .newPage hcalls.1 hr.sim hi
    rw [← pool_of_newPage hfirst] at hv'
    exact ih b hv hk (hcalls.2 b) hv' (he.symm.trans hrun)
  | free p k ih =>
    obtain ⟨b, v, s', hfirst, hk, hv, he⟩ :=
      first_of_wp (x := PagedProgram.deletePage p) (k := k) hr hx
    have hv' := hcall (.deletePage p) hcalls.1 hr.sim hi
    cases hfirst
    exact ih _ hv hk (hcalls.2 _) hv' (he.symm.trans hrun)
  | flush p k ih =>
    obtain ⟨b, v, s', hfirst, hk, hv, he⟩ :=
      first_of_wp (x := PagedProgram.flushPage p) (k := k) hr hx
    have hv' := hcall (.flushPage p) hcalls.1 hr.sim hi
    cases hfirst
    exact ih _ hv hk (hcalls.2 _) hv' (he.symm.trans hrun)
  | flushAll k ih =>
    obtain ⟨b, v, s', hfirst, hk, hv, he⟩ :=
      first_of_wp (x := PagedProgram.flushAllPages) (k := fun _ => k) hr hx
    have hv' := hcall .flushAllPages hcalls.1 hr.sim hi
    cases hfirst
    exact ih hv hk hcalls.2 hv' (he.symm.trans hrun)

/-- An operation that is correct for `Runs` keeps the free pages blank. -/
theorem freeBlank_of_runs {x : Program α} {Q : α → Pages → Prop} (hw : Holds ext w h)
    (hx : Runs (poolContext ext) x Q h) (hb : w.disk.FreeBlank) {a : α} {w' : BufferPoolManager}
    (hrun : x.run w = some (a, w')) : w'.disk.FreeBlank := by
  obtain ⟨r, hr⟩ := hw
  exact disk_of_wp (fun c _ hs hb => hs.freeBlank_call hb c) hr (hx r)
    (calls_of_forall (P := fun _ => True) (fun _ => trivial) x) hb hrun

/-- A quiet operation that is correct for `Runs` keeps the number of pages. -/
theorem numPages_of_quiet {x : Program α} {Q : α → Pages → Prop} (hw : Holds ext w h)
    (hx : Runs (poolContext ext) x Q h) (hquiet : x.Quiet) {a : α} {w' : BufferPoolManager}
    (hrun : x.run w = some (a, w')) : w'.disk.numPages = w.disk.numPages := by
  obtain ⟨r, hr⟩ := hw
  exact disk_of_wp (I := fun d => d.numPages = w.disk.numPages)
    (fun c hc hs hn => (numPages_call hs.inv hc).trans hn) hr (hx r)
    (calls_of_quiet hquiet) rfl hrun

/-! ## Closing and opening again -/

/-- No page in use after page 0 is a page of zeros. -/
def NoneBlank (h : Pages) : Prop := ∀ p d, 0 < p.toInt → h.page p = some d → d ≠ Image.zero

/-- What the destructor of the pool writes: every page in use is in the file. -/
theorem Holds.flushed (hw : Holds ext w h) {p : PageId} {d : PageData} (hp : h.page p = some d) :
    w.flushAllPages.disk.Allocated p ∧ w.flushAllPages.disk.pages p = d := by
  obtain ⟨r, hr⟩ := hw
  obtain ⟨hsim, hflushed, hdisk⟩ := hr.sim.flushAllPages
  have hmem : (viewOf ext ⟨h, none, r⟩).mem p = d := congrArg (Option.getD · Image.zero) hp
  have ha : w.disk.Allocated p := (hr.domain p).mp (by rw [hp]; exact Option.some_ne_none d)
  have ha' := (hflushed.shape.allocated p).mpr ha
  refine ⟨ha', ?_⟩
  rw [← hmem]
  cases hf : w.frameOf p with
  | some f => exact hdisk p f hf rfl
  | none => exact hsim.onDisk ha' ((hflushed.frameOf p).trans hf)

/-- The file of a pool that was closed is opened with the same pages. -/
theorem Holds.reopen (hw : Holds ext w h) (hb : w.disk.FreeBlank) (hnone : NoneBlank h)
    {faults : DiskFaults} (hfaults : faults.Reliable) :
    ∃ d, DiskManager.openFile w.flushAllPages.disk.pages w.flushAllPages.disk.numPages
        w.flushAllPages.disk.numPages_le faults = some d ∧
      d.faults = faults ∧ d.FreeBlank ∧ d.numPages = w.disk.numPages ∧
      (pagesOf d).page = h.page := by
  obtain ⟨r, hr⟩ := id hw
  have hb' : w.flushAllPages.disk.FreeBlank := hr.sim.freeBlank_call hb .flushAllPages
  have hshape := (flushAllPages_flushed hr.sim.inv).shape
  have hallocated : ∀ p, w.flushAllPages.disk.Allocated p ↔ h.page p ≠ none := fun p => by
    rw [hshape.allocated, hr.domain]
  have hused : ∀ p, 0 < p.toInt → w.flushAllPages.disk.Allocated p →
      w.flushAllPages.disk.pages p ≠ Image.zero := by
    intro p hpos ha
    obtain ⟨data, hp⟩ := Option.ne_none_iff_exists'.mp ((hallocated p).mp ha)
    rw [(hw.flushed hp).2]
    exact hnone p data hpos hp
  obtain ⟨d, hopen, hre, hd⟩ := hb'.reopen hused hfaults
  refine ⟨d, hopen, hd, .open hopen, hre.numPages.trans hshape.numPages, funext fun p => ?_⟩
  show (if d.Allocated p then some (d.pages p) else none) = _
  rw [hre.pages]
  cases hp : h.page p with
  | none =>
    rw [if_neg]
    rw [hre.allocated, hallocated, hp]
    exact fun hc => hc rfl
  | some data =>
    obtain ⟨ha, hdata⟩ := hw.flushed hp
    rw [if_pos ((hre.allocated p).mpr ha), hdata]

end

end MiniDbms
