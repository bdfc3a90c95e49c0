import MiniDbms.Buffer.Transparency
import MiniDbms.Lib.PagedProgram
import Mathlib.Data.Finset.Card

/-!
# Programs over the pool

The code above the pool is written as a `PagedProgram`; `run` executes it on a pool, where
a handle is the frame that a `Page*` points to. `Rep` relates a pool to the store of the
weakest precondition: the pages that exist are the allocated ones, with the bytes that the
frames and the disk hold, while other clients may keep pins of their own as long as one
frame is left. `run_of_wp` is the soundness of `wp` for `run`, `run_of_runs` the same for
whole operations.
-/

namespace MiniDbms

open Lib PagedProgram BufferPoolManager

/-- The code above the pool. -/
abbrev Program := PagedProgram PageId FrameId PageData

/-- The pages of a database and their bytes. -/
abbrev Pages := Heap PageId PageData

/-- A page as seen through its `Page*`: `isDirty` says whether `SetDirty` was called on it. -/
def Page.view (p : PageId) (d : PageData) : Page := { data := d, pageId := p }

@[simp] theorem Page.data_view (p : PageId) (d : PageData) : (Page.view p d).data = d := rfl
@[simp] theorem Page.pageId_view (p : PageId) (d : PageData) : (Page.view p d).pageId = p := rfl

namespace Program

/-- The bytes of a page that was changed in memory. -/
def writePage (f : FrameId) (page : Page) : Program Unit := putPage f page.data page.isDirty

/-- Runs a program on a pool; `none` if it does not end. -/
def run {α : Type} : Program α → BufferPoolManager → Option (α × BufferPoolManager)
  | .ret a, w => some (a, w)
  | .diverge, _ => none
  | .fetch p k, w =>
    match w.fetchPage p with
    | (some f, w) => run (k (some (f, (w.pages f).data))) w
    | (none, w) => run (k none) w
  | .put f d mark k, w =>
    run k (if mark then (w.writeBytes f d).setDirty f else w.writeBytes f d)
  | .unpin p dirty k, w =>
    match w.unpinPage p dirty with
    | (b, w) => run (k b) w
  | .alloc k, w =>
    match w.newPage with
    | (some (p, f), w) => run (k (some (p, f, (w.pages f).data))) w
    | (none, w) => run (k none) w
  | .free p k, w =>
    match w.deletePage p with
    | (b, w) => run (k b) w
  | .flush p k, w =>
    match w.flushPage p with
    | (b, w) => run (k b) w
  | .flushAll k, w => run k w.flushAllPages

/-- A sequence of two programs. -/
theorem run_bind {α β : Type} (x : Program α) (g : α → Program β) (w : BufferPoolManager) :
    run (x >>= g) w = (run x w).bind fun r => run (g r.1) r.2 := by
  show run (x.bind g) w = _
  induction x generalizing w with
  | ret a => rfl
  | diverge => rfl
  | fetch p k ih =>
    rw [PagedProgram.bind, run, run]
    rcases w.fetchPage p with ⟨_ | f, v⟩ <;> exact ih _ _
  | put f d mark k ih => exact ih _
  | unpin p dirty k ih => exact ih _ _
  | alloc k ih =>
    rw [PagedProgram.bind, run, run]
    rcases w.newPage with ⟨_ | ⟨p, f⟩, v⟩ <;> exact ih _ _
  | free p k ih => exact ih _ _
  | flush p k ih => exact ih _ _
  | flushAll k ih => exact ih _

section

variable {α : Type} (w : BufferPoolManager) {v : BufferPoolManager} {p : PageId} {f : FrameId}

theorem run_fetchPage_none (g : Option (FrameId × PageData) → Program α)
    (h : w.fetchPage p = (none, v)) : run (PagedProgram.fetchPage p >>= g) w = run (g none) v := by
  show run (.fetch p fun r => (PagedProgram.ret r).bind g) w = _
  rw [run, h]
  rfl

theorem run_fetchPage_some (g : Option (FrameId × PageData) → Program α)
    (h : w.fetchPage p = (some f, v)) :
    run (PagedProgram.fetchPage p >>= g) w = run (g (some (f, (v.pages f).data))) v := by
  show run (.fetch p fun r => (PagedProgram.ret r).bind g) w = _
  rw [run, h]
  rfl

theorem run_newPage_none (g : Option (PageId × FrameId × PageData) → Program α)
    (h : w.newPage = (none, v)) : run (PagedProgram.newPage >>= g) w = run (g none) v := by
  show run (.alloc fun r => (PagedProgram.ret r).bind g) w = _
  rw [run, h]
  rfl

theorem run_newPage_some (g : Option (PageId × FrameId × PageData) → Program α)
    (h : w.newPage = (some (p, f), v)) :
    run (PagedProgram.newPage >>= g) w = run (g (some (p, f, (v.pages f).data))) v := by
  show run (.alloc fun r => (PagedProgram.ret r).bind g) w = _
  rw [run, h]
  rfl

theorem run_putPage (f : FrameId) (d : PageData) (mark : Bool) (g : Unit → Program α) :
    run (putPage f d mark >>= g) w =
      run (g ()) (if mark then (w.writeBytes f d).setDirty f else w.writeBytes f d) := rfl

theorem run_unpinPage (p : PageId) (dirty : Bool) (g : Bool → Program α) :
    run (PagedProgram.unpinPage p dirty >>= g) w =
      run (g (w.unpinPage p dirty).1) (w.unpinPage p dirty).2 := rfl

end

/-- What a program answers on a pool. -/
theorem run_always {α : Type} {P : α → Prop} {x : Program α} (hx : x.Always P)
    {w w' : BufferPoolManager} {a : α} (hrun : run x w = some (a, w')) : P a := by
  induction x generalizing w with
  | ret b =>
    cases hrun
    exact hx
  | diverge => cases hrun
  | fetch p k ih =>
    rw [run] at hrun
    rcases he : w.fetchPage p with ⟨_ | f, v⟩
    · rw [he] at hrun
      exact ih _ (hx _) hrun
    · rw [he] at hrun
      exact ih _ (hx _) hrun
  | put f d mark k ih => exact ih hx hrun
  | unpin p dirty k ih => exact ih _ (hx _) hrun
  | alloc k ih =>
    rw [run] at hrun
    rcases he : w.newPage with ⟨_ | ⟨p, f⟩, v⟩
    · rw [he] at hrun
      exact ih _ (hx _) hrun
    · rw [he] at hrun
      exact ih _ (hx _) hrun
  | free p k ih => exact ih _ (hx _) hrun
  | flush p k ih => exact ih _ (hx _) hrun
  | flushAll k ih => exact ih hx hrun

/-- A program that ends whatever its calls answer ends on every pool. -/
theorem run_of_ends {α : Type} {P : α → Prop} {x : Program α} {seen : List PageId} {grown : Bool}
    (hx : x.Ends (fun _ _ a => P a) seen grown) (w : BufferPoolManager) :
    ∃ a w', run x w = some (a, w') ∧ P a := by
  induction x generalizing w seen grown with
  | ret a => exact ⟨a, w, rfl, hx⟩
  | diverge => exact hx.elim
  | fetch p k ih =>
    rw [run]
    rcases w.fetchPage p with ⟨_ | f, v⟩
    · exact ih _ hx.1 v
    · exact ih _ (hx.2 f _) v
  | put f d mark k ih => exact ih hx _
  | unpin p dirty k ih => exact ih _ (hx _) _
  | alloc k ih =>
    rw [run]
    rcases w.newPage with ⟨_ | ⟨p, f⟩, v⟩
    · exact ih _ (hx none) v
    · exact ih _ (hx _) v
  | free p k ih => exact ih _ (hx _) _
  | flush p k ih => exact ih _ (hx _) _
  | flushAll k ih => exact ih hx _

end Program

/-- What programs rely on when other clients hold the pins `ext`. -/
def poolContext (ext : PageId → Nat) : Context PageId PageData where
  blank := Image.zero
  good p := 0 < p.toInt
  shared p := 0 < ext p

/-- What the clients of the pool know: the other clients and the program. -/
def viewOf (ext : PageId → Nat) (s : Store PageId FrameId PageData) : ClientView where
  mem p := (s.heap.page p).getD Image.zero
  pins p :=
    match s.held with
    | some (q, _, _) => if p = q then ext p + 1 else ext p
    | none => ext p
  stale p :=
    match s.held with
    | some (q, _, u) => decide (p = q) && u
    | none => false

/-- The pool holds the pages of the store, and leaves a frame to the program. -/
structure Rep (ext : PageId → Nat) (w : BufferPoolManager) (s : Store PageId FrameId PageData) :
    Prop where
  sim : Sim w (viewOf ext s)
  domain : ∀ p, s.heap.page p ≠ none ↔ w.disk.Allocated p
  handle : ∀ {p f u}, s.held = some (p, f, u) → w.frameOf p = some f
  recent : ∀ {p}, s.recent = some p → ∃ f, w.frameOf p = some f
  failed : s.heap.failed = true →
    (∃ n, w.disk.faults.allocate n = true) ∨ w.disk.numPages = maxPages
  room : ∃ pinned : Finset PageId, (∀ p, 0 < ext p → p ∈ pinned) ∧ pinned.card < w.poolSize

variable {ext : PageId → Nat} {w w' : BufferPoolManager} {h : Pages} {p : PageId} {f : FrameId}
  {u : Bool} {r : Option PageId} {d : PageData} {α : Type}

/-- With one frame left by the others, some frame is free or evictable. -/
theorem Rep.hasFrame (hr : Rep ext w ⟨h, none, r⟩) : ¬ w.NoFrame := by
  rintro ⟨hfree, hhas⟩
  obtain ⟨pinned, hpinned, hcard⟩ := hr.room
  have hinv := hr.sim.inv
  have hpage : ∀ f ∈ Finset.range w.poolSize, (w.pages f).pageId ∈ pinned := by
    intro f hf
    obtain ⟨p, hp⟩ := (hinv.covered f (Finset.mem_range.mp hf)).resolve_left (by rw [hfree]; simp)
    rw [(hinv.table hp).2]
    apply hpinned
    have hpos : (w.pages f).pinCount ≠ 0 := fun h0 => by
      have := (hinv.evictable f).mpr ⟨⟨p, hp⟩, h0⟩
      rw [hhas] at this
      cases this
    rw [hr.sim.pins hp] at hpos
    exact Nat.pos_of_ne_zero hpos
  have hinj : Set.InjOn (fun f => (w.pages f).pageId) (Finset.range w.poolSize) := by
    intro f hf g hg he
    have hf' := Finset.mem_range.mp (Finset.mem_coe.mp hf)
    have hg' := Finset.mem_range.mp (Finset.mem_coe.mp hg)
    obtain ⟨p, hp⟩ := (hinv.covered f hf').resolve_left (by rw [hfree]; simp)
    obtain ⟨q, hq⟩ := (hinv.covered g hg').resolve_left (by rw [hfree]; simp)
    simp only [(hinv.table hp).2, (hinv.table hq).2] at he
    subst he
    exact Option.some.inj (hp.symm.trans hq)
  have := Finset.card_le_card_of_injOn _ hpage hinj
  rw [Finset.card_range] at this
  omega

/-- What a call never changes keeps the parts of `Rep` that are about the pool alone. -/
theorem Rep.step {s s' : Store PageId FrameId PageData} (hr : Rep ext w s)
    (hst : Stays w (viewOf ext s) w') (hsim : Sim w' (viewOf ext s'))
    (hdomain : ∀ p, s'.heap.page p ≠ none ↔ w'.disk.Allocated p)
    (hhandle : ∀ {p f u}, s'.held = some (p, f, u) → w'.frameOf p = some f)
    (hrecent : ∀ {p}, s'.recent = some p → ∃ f, w'.frameOf p = some f)
    (hfailed : s'.heap.failed = s.heap.failed) : Rep ext w' s' where
  sim := hsim
  domain := hdomain
  handle := hhandle
  recent := hrecent
  failed hf := by
    rw [hst.faults]
    rcases hr.failed (hfailed ▸ hf) with ha | hn
    · exact .inl ha
    · have := hst.numPages
      have := w'.disk.numPages_le
      exact .inr (by omega)
  room := by
    obtain ⟨pinned, hp, hc⟩ := hr.room
    exact ⟨pinned, hp, by rw [hst.poolSize]; exact hc⟩

theorem viewOf_fetch (ext : PageId → Nat) (h : Pages) (p : PageId) (f : FrameId)
    (r r' : Option PageId) :
    viewOf ext ⟨h, some (p, f, false), r⟩ = (viewOf ext ⟨h, none, r'⟩).pin p := by
  simp only [viewOf, ClientView.pin, ClientView.mk.injEq, Bool.and_false, true_and, and_true]
  funext q
  by_cases hq : q = p
  · subst hq
    simp
  · simp [hq]

theorem viewOf_unpin (ext : PageId → Nat) (h : Pages) (p : PageId) (f : FrameId) {u dirty : Bool}
    (r r' : Option PageId) (hd : dirty = true ∨ u = false) :
    viewOf ext ⟨h, none, r'⟩ = (viewOf ext ⟨h, some (p, f, u), r⟩).unpin p dirty := by
  simp only [viewOf, ClientView.unpin, ClientView.mk.injEq, true_and, if_true]
  constructor
  · funext q
    by_cases hq : q = p
    · subst hq
      simp
    · simp [hq]
  · funext q
    by_cases hq : q = p
    · subst hq
      rcases hd with rfl | rfl
      · simp
      · cases dirty <;> simp
    · cases dirty <;> simp [hq]

theorem viewOf_create {ext : PageId → Nat} (h : Pages) {p : PageId} (f : FrameId)
    (r r' : Option PageId) (hp : ext p = 0) :
    viewOf ext ⟨h.set p Image.zero, some (p, f, false), r⟩ =
      (viewOf ext ⟨h, none, r'⟩).create p := by
  simp only [viewOf, ClientView.create, ClientView.mk.injEq, Bool.and_false, and_true]
  constructor
  · funext q
    by_cases hq : q = p
    · subst hq
      simp
    · simp [Heap.page_set_of_ne _ hq, hq]
  · funext q
    by_cases hq : q = p
    · subst hq
      simp [hp]
    · simp [hq]

/-- The view after a write; `b` says whether the bytes are still unmarked. -/
theorem viewOf_put (ext : PageId → Nat) (h : Pages) (p : PageId) (f : FrameId) (u b : Bool)
    (d : PageData) (r r' : Option PageId) :
    viewOf ext ⟨h.set p d, some (p, f, b), r⟩ =
      let s := viewOf ext ⟨h, some (p, f, u), r'⟩
      { mem := Function.update s.mem p d
        pins := s.pins
        stale := Function.update s.stale p b } := by
  simp only [viewOf, ClientView.mk.injEq, true_and]
  constructor
  · funext q
    by_cases hq : q = p
    · subst hq
      simp
    · simp [Heap.page_set_of_ne _ hq, hq]
  · funext q
    by_cases hq : q = p
    · subst hq
      simp
    · simp [hq]

/-- Writing through the handle, with or without a dirty mark. -/
theorem Rep.put {u' mark : Bool} (hr : Rep ext w ⟨h, some (p, f, u), r⟩)
    (hm : u' = !mark ∨ (u' = false ∧ u = false ∧ h.page p = some d)) :
    Rep ext (if mark then (w.writeBytes f d).setDirty f else w.writeBytes f d)
      ⟨h.set p d, some (p, f, u'), none⟩ := by
  have hf := hr.handle rfl
  have hpin : 0 < (viewOf ext ⟨h, some (p, f, u), r⟩).pins p := by simp [viewOf]
  have hwrite := hr.sim.write hf hpin d
  have hmarked : Sim ((w.writeBytes f d).setDirty f)
      (viewOf ext ⟨h.set p d, some (p, f, false), none⟩) := by
    rw [viewOf_put ext h p f u false d none r]
    have := hwrite.setDirty (f := f) (p := p) hf
    simpa [ClientView.mark, ClientView.write] using this
  have hsim : Sim (if mark then (w.writeBytes f d).setDirty f else w.writeBytes f d)
      (viewOf ext ⟨h.set p d, some (p, f, u'), none⟩) := by
    rcases hm with rfl | ⟨rfl, rfl, hd⟩
    · cases mark with
      | true => exact hmarked
      | false =>
        show Sim (w.writeBytes f d) (viewOf ext ⟨h.set p d, some (p, f, true), none⟩)
        rw [viewOf_put ext h p f u true d none r]
        exact hwrite
    · cases mark with
      | true => exact hmarked
      | false =>
        have hdata : (w.pages f).data = d := by
          have := hr.sim.data hf
          simpa [viewOf, hd] using this
        have hsame : w.writeBytes f d = w := by
          show { w with pages := Function.update w.pages f { w.pages f with data := d } } = w
          rw [← hdata, Function.update_eq_self]
        show Sim (w.writeBytes f d) _
        rw [hsame, Heap.set_self _ hd]
        exact hr.sim
  have hdomain : ∀ q, (h.set p d).page q ≠ none ↔ w.disk.Allocated q := by
    intro q
    rw [Heap.page_set]
    split
    · rename_i hq
      subst hq
      exact ⟨fun _ => hr.sim.allocated hf, fun _ => Option.some_ne_none _⟩
    · exact hr.domain q
  have hkeep : ∀ {w'}, w'.poolSize = w.poolSize → w'.disk = w.disk → w'.pageTable = w.pageTable →
      Sim w' (viewOf ext ⟨h.set p d, some (p, f, u'), none⟩) →
      Rep ext w' ⟨h.set p d, some (p, f, u'), none⟩ := by
    intro w' h1 h2 h3 hs
    refine hr.step (.of_same h1 h2 h3) hs (by rw [h2]; exact hdomain) (fun he => ?_)
      (fun he => by cases he) rfl
    cases he
    rwa [frameOf, h3]
  cases mark <;> exact hkeep rfl rfl rfl hsim

/-- What a run never changes or only lets grow. -/
structure Extends (w w' : BufferPoolManager) : Prop where
  poolSize : w'.poolSize = w.poolSize
  faults : w'.disk.faults = w.disk.faults
  numPages : w.disk.numPages ≤ w'.disk.numPages

theorem Extends.refl (w : BufferPoolManager) : Extends w w := ⟨rfl, rfl, le_refl _⟩

theorem Extends.trans {w v w' : BufferPoolManager} (h : Extends w v) (h' : Extends v w') :
    Extends w w' :=
  ⟨h'.poolSize.trans h.poolSize, h'.faults.trans h.faults, h.numPages.trans h'.numPages⟩

theorem extends_of_flushed (h : Flushed w w') : Extends w w' :=
  ⟨h.poolSize, h.shape.faults, le_of_eq h.shape.numPages.symm⟩

theorem extends_of_stays {s : ClientView} (h : Stays w s w') : Extends w w' :=
  ⟨h.poolSize, h.faults, h.numPages⟩

/-- The weakest precondition is sound: the program ends on the pool as it says. -/
theorem run_of_wp {x : Program α} {s : Store PageId FrameId PageData}
    {Q : α → Store PageId FrameId PageData → Prop} (hr : Rep ext w s)
    (hx : x.wp (poolContext ext) Q s) :
    ∃ a w' s', Program.run x w = some (a, w') ∧ Q a s' ∧ Rep ext w' s' ∧ Extends w w' := by
  induction x generalizing w s with
  | ret a => exact ⟨a, w, s, rfl, hx, hr, .refl w⟩
  | diverge => exact hx.elim
  | fetch p k ih =>
    obtain ⟨h, held, r⟩ := s
    obtain ⟨rfl, d, hd, hk⟩ := hx
    have ha : w.disk.Allocated p := (hr.domain p).mp (by rw [hd]; nofun)
    obtain ⟨o, v, he, hst, halloc, ho⟩ := hr.sim.fetchPage ha
    cases o with
    | none => exact absurd ho.2 hr.hasFrame
    | some f =>
      obtain ⟨hf, hdata, hsim⟩ := ho
      have hmem : (v.pages f).data = d := hdata.trans (congrArg (Option.getD · Image.zero) hd)
      have hv : Rep ext v ⟨h, some (p, f, false), none⟩ := by
        refine hr.step hst (by rw [viewOf_fetch ext h p f none r]; exact hsim)
          (fun q => by rw [halloc]; exact hr.domain q) (fun he => ?_) nofun rfl
        cases he
        exact hf
      obtain ⟨a, w', s', hrun, hQ, hrep, hext⟩ := ih _ hv (hk f)
      refine ⟨a, w', s', ?_, hQ, hrep, (extends_of_stays hst).trans hext⟩
      rw [Program.run, he]
      dsimp only
      rw [hmem, hrun]
  | put f d mark k ih =>
    obtain ⟨h, held, r⟩ := s
    obtain ⟨p, u, u', rfl, hm, hk⟩ := hx
    obtain ⟨a, w', s', hrun, hQ, hrep, hext⟩ := ih (hr.put hm) hk
    refine ⟨a, w', s', hrun, hQ, hrep, Extends.trans ?_ hext⟩
    cases mark <;> exact ⟨rfl, rfl, le_refl _⟩
  | unpin p dirty k ih =>
    obtain ⟨h, held, r⟩ := s
    obtain ⟨f, u, rfl, hd, hk⟩ := hx
    have hpin : 0 < (viewOf ext ⟨h, some (p, f, u), r⟩).pins p := by simp [viewOf]
    obtain ⟨v, he, hsim, hst, halloc⟩ := hr.sim.unpinPage hpin dirty
      fun _ => by simpa [viewOf] using hd
    have hv : Rep ext v ⟨h, none, some p⟩ := by
      refine hr.step hst (by rw [viewOf_unpin ext h p f r (some p) hd]; exact hsim)
        (fun q => by rw [halloc]; exact hr.domain q) nofun (fun he => ?_) rfl
      cases he
      exact ⟨f, hst.frames (hr.handle rfl) hpin⟩
    obtain ⟨a, w', s', hrun, hQ, hrep, hext⟩ := ih _ hv hk
    refine ⟨a, w', s', ?_, hQ, hrep, (extends_of_stays hst).trans hext⟩
    rw [Program.run, he]
    exact hrun
  | alloc k ih =>
    obtain ⟨h, held, r⟩ := s
    obtain ⟨rfl, hnone, hsome⟩ := hx
    obtain ⟨o, v, he, hst, ho⟩ := hr.sim.newPage
    rcases o with _ | ⟨p, f⟩
    · obtain ⟨halloc, hsim, hwhy⟩ := ho
      have hv : Rep ext v ⟨h.fail, none, none⟩ := by
        refine ⟨hsim, fun q => by rw [halloc]; exact hr.domain q, nofun, nofun, fun _ => ?_, ?_⟩
        · rw [hst.faults]
          rcases hwhy.resolve_left hr.hasFrame with ha | ⟨-, hn⟩
          · exact .inl ha
          · have := hst.numPages
            have := v.disk.numPages_le
            exact .inr (by omega)
        · obtain ⟨pinned, hp, hc⟩ := hr.room
          exact ⟨pinned, hp, by rw [hst.poolSize]; exact hc⟩
      obtain ⟨a, w', s', hrun, hQ, hrep, hext⟩ := ih _ hv hnone
      refine ⟨a, w', s', ?_, hQ, hrep, (extends_of_stays hst).trans hext⟩
      rw [Program.run, he]
      exact hrun
    · obtain ⟨hfresh, hpos, hpin, halloc, hf, hzero, hsim⟩ := ho
      have hpage : h.page p = none := by
        by_contra hne
        exact hfresh ((hr.domain p).mp hne)
      have hext0 : ext p = 0 := hpin
      have hv : Rep ext v ⟨h.set p Image.zero, some (p, f, false), none⟩ := by
        refine hr.step hst (by rw [viewOf_create h f none r hext0]; exact hsim) (fun q => ?_)
          (fun he => ?_) nofun rfl
        · rw [halloc, Heap.page_set]
          split
          · rename_i hq
            exact ⟨fun _ => .inl hq, nofun⟩
          · rename_i hq
            rw [hr.domain q]
            exact ⟨.inr, fun ha => ha.resolve_left hq⟩
        · cases he
          exact hf
      obtain ⟨a, w', s', hrun, hQ, hrep, hext⟩ := ih _ hv
        (hsome p f hpage hpos (by show ¬ 0 < ext p; omega))
      refine ⟨a, w', s', ?_, hQ, hrep, (extends_of_stays hst).trans hext⟩
      rw [Program.run, he]
      dsimp only
      rw [hzero]
      exact hrun
  | free p k ih =>
    obtain ⟨h, held, r⟩ := s
    obtain ⟨rfl, hp, hpos, hshared, hk⟩ := hx
    have hpos : 0 < p.toInt := hpos
    have hext0 : ext p = 0 := Nat.eq_zero_of_not_pos hshared
    obtain ⟨b, v, he, hsim, hst, hb, halloc⟩ := hr.sim.deletePage (p := p) hext0
    cases hb hpos
    have hv : Rep ext v ⟨h.drop p, none, none⟩ := by
      refine hr.step hst ?_ (fun q => ?_) nofun nofun rfl
      · refine hsim.congr_allocated rfl rfl fun q hq => ?_
        have hqp : q ≠ p := fun hqp => ((halloc q).mp hq).1 ⟨hqp, hpos⟩
        show ((h.drop p).page q).getD _ = _
        rw [Heap.page_drop, if_neg hqp]
        rfl
      · rw [halloc, Heap.page_drop]
        split
        · rename_i hq
          simp [hq, hpos]
        · rename_i hq
          rw [hr.domain q]
          exact ⟨fun ha => ⟨fun hc => hq hc.1, ha⟩, fun ha => ha.2⟩
    obtain ⟨a, w', s', hrun, hQ, hrep, hext⟩ := ih _ hv hk
    refine ⟨a, w', s', ?_, hQ, hrep, (extends_of_stays hst).trans hext⟩
    rw [Program.run, he]
    exact hrun
  | flush p k ih =>
    obtain ⟨h, held, r⟩ := s
    obtain ⟨rfl, rfl, hk⟩ := hx
    obtain ⟨f, hf⟩ := hr.recent rfl
    have hfl := flushPage_flushed hr.sim.inv p
    have hv : Rep ext (w.flushPage p).2 ⟨h, none, some p⟩ :=
      hr.step hfl.stays (hr.sim.flushPage p)
        (fun q => by rw [hfl.shape.allocated]; exact hr.domain q)
        nofun (fun he => by cases he; exact ⟨f, (hfl.frameOf p).trans hf⟩) rfl
    obtain ⟨a, w', s', hrun, hQ, hrep, hext⟩ := ih _ hv hk
    refine ⟨a, w', s', ?_, hQ, hrep, (extends_of_flushed hfl).trans hext⟩
    rw [← hr.sim.flushPage_fst hf] at hrun
    rw [Program.run]
    exact hrun
  | flushAll k ih =>
    obtain ⟨h, held, r⟩ := s
    obtain ⟨rfl, hk⟩ := hx
    have hfl := flushAllPages_flushed hr.sim.inv
    have hv : Rep ext w.flushAllPages ⟨h, none, r⟩ :=
      hr.step hfl.stays hr.sim.flushAllPages.1
        (fun q => by rw [hfl.shape.allocated]; exact hr.domain q) nofun (fun he => by
          obtain ⟨f, hf⟩ := hr.recent he
          exact ⟨f, (hfl.frameOf _).trans hf⟩) rfl
    obtain ⟨a, w', s', hrun, hQ, hrep, hext⟩ := ih hv hk
    exact ⟨a, w', s', hrun, hQ, hrep, (extends_of_flushed hfl).trans hext⟩

section

variable {c : Context PageId PageData} {Q : α → Pages → Prop} {g : Unit → Program α} {page : Page}

/-- Writing a page that was changed and marked dirty. -/
theorem holding_writePage (hd : page.isDirty = true)
    (hg : Holding c (g ()) Q (h.set p page.data) p f false) :
    Holding c (Program.writePage f page >>= g) Q h p f u := by
  unfold Program.writePage
  rw [hd]
  exact holding_putPage hg

/-- Writing a page that was not changed. -/
theorem holding_writePage_same (hp : h.page p = some page.data)
    (hg : Holding c (g ()) Q h p f false) :
    Holding c (Program.writePage f page >>= g) Q h p f false :=
  holding_putPage_same hp hg

end

/-! ## Whole operations -/

/-- The pool holds the pages `h`, and no page is in the hands of the program. -/
def Holds (ext : PageId → Nat) (w : BufferPoolManager) (h : Pages) : Prop :=
  ∃ r, Rep ext w ⟨h, none, r⟩

/-- An operation that is correct for `Runs` is correct on the pool. -/
theorem run_of_runs {x : Program α} {Q : α → Pages → Prop} (hw : Holds ext w h)
    (hx : Runs (poolContext ext) x Q h) :
    ∃ a w' h', Program.run x w = some (a, w') ∧ Q a h' ∧ Holds ext w' h' ∧ Extends w w' := by
  obtain ⟨r, hr⟩ := hw
  obtain ⟨a, w', s, hrun, ⟨hheld, hQ⟩, hrep, hext⟩ := run_of_wp hr (hx r)
  obtain ⟨h', held, r'⟩ := s
  subst hheld
  exact ⟨a, w', h', hrun, hQ, ⟨r', hrep⟩, hext⟩

/-! ## Loops over chains of pages -/

/-- More rounds than a loop that keeps the set of visited pages can take. -/
def chainFuel : Nat := 4294967298

/-- A chain of distinct pages is shorter than the fuel of the loops. -/
theorem length_lt_chainFuel {l : List PageId} (hn : l.Nodup) (hpos : ∀ q ∈ l, 0 < q.toInt) :
    l.length < chainFuel := by
  have hinj : Set.InjOn (fun q : PageId => q.toInt.toNat) l.toFinset := by
    intro a ha b hb hab
    have ha' := hpos a (List.mem_toFinset.mp (Finset.mem_coe.mp ha))
    have hb' := hpos b (List.mem_toFinset.mp (Finset.mem_coe.mp hb))
    apply Int32.toInt_inj.mp
    have : a.toInt.toNat = b.toInt.toNat := hab
    omega
  have hmem : ∀ q ∈ l.toFinset, q.toInt.toNat ∈ Finset.range 2147483648 := by
    intro q _
    have := q.toInt_lt
    rw [Finset.mem_range]
    omega
  have hcard := Finset.card_le_card_of_injOn _ hmem hinj
  rw [Finset.card_range, List.toFinset_card_of_nodup hn] at hcard
  unfold chainFuel
  omega

/-! ## A fresh pool -/

/-- The pages of a fresh pool are those of the file that are allocated. -/
def pagesOf (d : DiskManager) : Pages where
  page p := if d.Allocated p then some (d.pages p) else none
  failed := false

theorem page_pagesOf {d : DiskManager} {p : PageId} (ha : d.Allocated p) :
    (pagesOf d).page p = some (d.pages p) := if_pos ha

theorem holds_new {n : Nat} (hn : 0 < n) {d : DiskManager} (hd : d.faults.Reliable) :
    Holds (fun _ => 0) (BufferPoolManager.new n d) (pagesOf d) := by
  refine ⟨none, ⟨new_poolInv hn d, hd, ?_, ?_, fun _ => rfl, ?_, fun {p} ha _ => ?_, ?_, nofun⟩,
    fun p => ?_, nofun, nofun, nofun, ⟨∅, fun p hp => absurd hp (Nat.lt_irrefl 0), hn⟩⟩
  case refine_4 =>
    have ha : d.Allocated p := ha
    simp [viewOf, pagesOf, ha, BufferPoolManager.new]
  case refine_6 =>
    show (if d.Allocated p then some (d.pages p) else none) ≠ none ↔ d.Allocated p
    by_cases ha : d.Allocated p <;> simp [ha]
  all_goals
    intro p f hp
    simp [BufferPoolManager.new, frameOf] at hp

end MiniDbms
