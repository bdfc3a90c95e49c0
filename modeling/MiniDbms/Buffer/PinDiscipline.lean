import MiniDbms.Buffer.PoolImages
import MiniDbms.Lib.PinDiscipline

/-!
# The pins of disciplined programs

`Program.trace` lists the calls that a program makes, with the pool in which each is made. Whatever
the bytes of the pages are and whichever accesses fail, a disciplined program leaves every pin count
as it was, adds at most one pin meanwhile, and finds a frame whenever no other page is pinned
(`Disciplined.steady`, `Steady.hasFrame`); and clean pages agree with the disk between its calls.
The one condition is that of `PoolInv`: no `NewPage` hands out the id of a page that stays in
another frame.
-/

namespace MiniDbms

open Lib PagedProgram BufferPoolManager

namespace Program

/-- The calls of a run, each with the pool in which it is made. -/
def trace {α : Type} : Program α → BufferPoolManager → List (PoolCall × BufferPoolManager)
  | .ret _, _ => []
  | .diverge, _ => []
  | .fetch p k, w => (.fetchPage p, w) ::
    match w.fetchPage p with
    | (some f, w) => trace (k (some (f, (w.pages f).data))) w
    | (none, w) => trace (k none) w
  | .put f d mark k, w =>
    trace k (if mark then (w.writeBytes f d).setDirty f else w.writeBytes f d)
  | .unpin p dirty k, w => (.unpinPage p dirty, w) ::
    match w.unpinPage p dirty with
    | (b, w) => trace (k b) w
  | .alloc k, w => (.newPage, w) ::
    match w.newPage with
    | (some (p, f), w) => trace (k (some (p, f, (w.pages f).data))) w
    | (none, w) => trace (k none) w
  | .free p k, w => (.deletePage p, w) ::
    match w.deletePage p with
    | (b, w) => trace (k b) w
  | .flush p k, w => (.flushPage p, w) ::
    match w.flushPage p with
    | (b, w) => trace (k b) w
  | .flushAll k, w => (.flushAllPages, w) :: trace k w.flushAllPages

/-- No `NewPage` of the run hands out the id of a page that stays in another frame. -/
def Safe {α : Type} (x : Program α) (w : BufferPoolManager) : Prop :=
  ∀ v, (.newPage, v) ∈ x.trace w → ¬ v.ReallocatesResident

/-- A run is safe when each `NewPage` hands out an id that is in no frame. -/
theorem safe_of_fresh {α : Type} {x : Program α} {w : BufferPoolManager}
    (h : ∀ c ∈ x.trace w, c.1 = .newPage → c.2.frameOf c.2.disk.nextPageId = none) : x.Safe w := by
  rintro v hv ⟨g, f, b, v', hg, -⟩
  rw [h _ hv rfl] at hg
  cases hg

/-- The calls of a sequence of two programs. -/
theorem trace_bind {α β : Type} (x : Program α) (g : α → Program β) (w : BufferPoolManager) :
    trace (x >>= g) w = trace x w ++
      match run x w with
      | some (a, w') => trace (g a) w'
      | none => [] := by
  show trace (x.bind g) w = _
  induction x generalizing w with
  | ret a => rfl
  | diverge => rfl
  | fetch p k ih =>
    rw [PagedProgram.bind, trace, trace, run, List.cons_append]
    rcases w.fetchPage p with ⟨_ | f, v⟩ <;> exact congrArg _ (ih _ _)
  | put f d mark k ih => exact ih _
  | unpin p dirty k ih => exact congrArg _ (ih _ _)
  | alloc k ih =>
    rw [PagedProgram.bind, trace, trace, run, List.cons_append]
    rcases w.newPage with ⟨_ | ⟨p, f⟩, v⟩ <;> exact congrArg _ (ih _ _)
  | free p k ih => exact congrArg _ (ih _ _)
  | flush p k ih => exact congrArg _ (ih _ _)
  | flushAll k ih => exact congrArg _ (ih _)

section

variable {α : Type} (p : PageId) (w : BufferPoolManager)

theorem trace_fetchPage (g : Option (FrameId × PageData) → Program α) :
    trace (PagedProgram.fetchPage p >>= g) w = (.fetchPage p, w) ::
      match w.fetchPage p with
      | (some f, w) => trace (g (some (f, (w.pages f).data))) w
      | (none, w) => trace (g none) w := by
  show trace (.fetch p fun r => (PagedProgram.ret r).bind g) w = _
  rw [trace]
  rcases w.fetchPage p with ⟨_ | f, v⟩ <;> rfl

theorem trace_putPage (f : FrameId) (d : PageData) (mark : Bool) (g : Unit → Program α) :
    trace (PagedProgram.putPage f d mark >>= g) w =
      trace (g ()) (if mark then (w.writeBytes f d).setDirty f else w.writeBytes f d) := rfl

theorem trace_unpinPage (dirty : Bool) (g : Bool → Program α) :
    trace (PagedProgram.unpinPage p dirty >>= g) w = (.unpinPage p dirty, w) ::
      trace (g (w.unpinPage p dirty).1) (w.unpinPage p dirty).2 := rfl

theorem trace_newPage (g : Option (PageId × FrameId × PageData) → Program α) :
    trace (PagedProgram.newPage >>= g) w = (.newPage, w) ::
      match w.newPage with
      | (some (p, f), w) => trace (g (some (p, f, (w.pages f).data))) w
      | (none, w) => trace (g none) w := by
  show trace (.alloc fun r => (PagedProgram.ret r).bind g) w = _
  rw [trace]
  rcases w.newPage with ⟨_ | ⟨p, f⟩, v⟩ <;> rfl

theorem trace_flushPage (g : Bool → Program α) :
    trace (PagedProgram.flushPage p >>= g) w = (.flushPage p, w) ::
      trace (g (w.flushPage p).1) (w.flushPage p).2 := rfl

theorem trace_flushAllPages (g : Unit → Program α) :
    trace (PagedProgram.flushAllPages >>= g) w = (.flushAllPages, w) ::
      trace (g ()) w.flushAllPages := rfl

/-- A program that does not flush calls neither `FlushPage` nor `FlushAllPages`. -/
theorem not_mem_trace_of_flushFree {x : Program α} (hx : x.FlushFree) (w v : BufferPoolManager) :
    (∀ p, (.flushPage p, v) ∉ x.trace w) ∧ (.flushAllPages, v) ∉ x.trace w := by
  induction x generalizing w with
  | ret a => exact ⟨nofun, nofun⟩
  | diverge => exact ⟨nofun, nofun⟩
  | fetch p k ih =>
    rw [trace]
    rcases w.fetchPage p with ⟨_ | f, w'⟩
    · exact ⟨fun q hq => (ih _ (hx _) w').1 q ((List.mem_cons.mp hq).resolve_left nofun),
        fun hq => (ih _ (hx _) w').2 ((List.mem_cons.mp hq).resolve_left nofun)⟩
    · exact ⟨fun q hq => (ih _ (hx _) w').1 q ((List.mem_cons.mp hq).resolve_left nofun),
        fun hq => (ih _ (hx _) w').2 ((List.mem_cons.mp hq).resolve_left nofun)⟩
  | put f d mark k ih => exact ih hx _
  | unpin p dirty k ih =>
    exact ⟨fun q hq => (ih _ (hx _) _).1 q ((List.mem_cons.mp hq).resolve_left nofun),
      fun hq => (ih _ (hx _) _).2 ((List.mem_cons.mp hq).resolve_left nofun)⟩
  | alloc k ih =>
    rw [trace]
    rcases w.newPage with ⟨_ | ⟨p, f⟩, w'⟩
    · exact ⟨fun q hq => (ih _ (hx _) w').1 q ((List.mem_cons.mp hq).resolve_left nofun),
        fun hq => (ih _ (hx _) w').2 ((List.mem_cons.mp hq).resolve_left nofun)⟩
    · exact ⟨fun q hq => (ih _ (hx _) w').1 q ((List.mem_cons.mp hq).resolve_left nofun),
        fun hq => (ih _ (hx _) w').2 ((List.mem_cons.mp hq).resolve_left nofun)⟩
  | free p k ih =>
    exact ⟨fun q hq => (ih _ (hx _) _).1 q ((List.mem_cons.mp hq).resolve_left nofun),
      fun hq => (ih _ (hx _) _).2 ((List.mem_cons.mp hq).resolve_left nofun)⟩
  | flush p k => exact hx.elim
  | flushAll k => exact hx.elim

/-- What follows a program does not flush. -/
theorem mem_trace_of_flushFree {β : Type} {x : Program α} {g : α → Program β}
    (hg : ∀ a, (g a).FlushFree) {w v : BufferPoolManager} {p : PageId}
    (hv : (.flushPage p, v) ∈ trace (x >>= g) w) : (.flushPage p, v) ∈ trace x w := by
  rw [trace_bind] at hv
  refine (List.mem_append.mp hv).resolve_right fun hv => ?_
  rcases hrun : Program.run x w with _ | ⟨a, w'⟩
  · rw [hrun] at hv
    cases hv
  · rw [hrun] at hv
    exact (not_mem_trace_of_flushFree (hg a) w' v).1 p hv

end

end Program

namespace BufferPoolManager

variable {w₀ w w' : BufferPoolManager} {p q : PageId} {f : FrameId}

/-- The number of pins on a page; none if it is not in the pool. -/
def pins (w : BufferPoolManager) (p : PageId) : Nat :=
  match w.frameOf p with
  | some f => (w.pages f).pinCount
  | none => 0

theorem pins_of_frameOf (hp : w.frameOf p = some f) : w.pins p = (w.pages f).pinCount := by
  rw [pins, hp]

theorem pins_of_none (hp : w.frameOf p = none) : w.pins p = 0 := by
  rw [pins, hp]

/-! ## The outcomes of the calls -/

theorem pins_congr (hframe : ∀ x, w'.frameOf x = w.frameOf x)
    (hpin : ∀ g, (w'.pages g).pinCount = (w.pages g).pinCount) (x : PageId) :
    w'.pins x = w.pins x := by
  rw [pins, pins, hframe]
  cases w.frameOf x with
  | none => rfl
  | some g => exact hpin g

theorem Kept.pins (hk : Kept w w') (x : PageId) : w'.pins x = w.pins x :=
  pins_congr hk.frameOf (fun g => by rw [hk.pages]) x

theorem Touches.pins {page : Page} (ht : Touches w p f page w') (hw : w.PoolInv) (x : PageId) :
    w'.pins x = if x = p then page.pinCount else w.pins x := by
  split
  · rename_i hx
    rw [pins_of_frameOf ((ht.frameOf x).trans (hx ▸ ht.mapped)), ht.pages, Function.update_self]
  · rename_i hx
    cases hg : w.frameOf x with
    | none => rw [pins_of_none ((ht.frameOf x).trans hg), pins_of_none hg]
    | some g =>
      have hne : g ≠ f := fun he => hx (hw.frame_inj hg (he ▸ ht.mapped))
      rw [pins_of_frameOf ((ht.frameOf x).trans hg), pins_of_frameOf hg, ht.pages,
        Function.update_of_ne hne]

theorem Loads.pins {data : PageData} (hl : Loads w f p data w') (x : PageId) :
    w'.pins x = if x = p then 1 else w.pins x := by
  split
  · rename_i hx
    have hp : w'.frameOf x = some f := by rw [hl.frameOf, if_pos hx]
    rw [pins_of_frameOf hp, hl.pages, Function.update_self]
  · rename_i hx
    have hframe := hl.frameOf x
    rw [if_neg hx] at hframe
    split at hframe
    · rename_i hf
      rw [pins_of_none hframe, pins_of_frameOf hf, hl.unpinned]
    · rename_i hf
      cases hg : w.frameOf x with
      | none => rw [pins_of_none (hframe.trans hg), pins_of_none hg]
      | some g =>
        have hne : g ≠ f := fun he => hf (he ▸ hg)
        rw [pins_of_frameOf (hframe.trans hg), pins_of_frameOf hg, hl.pages,
          Function.update_of_ne hne]

theorem Drops.pins (hd : Drops w p f w') (hw : w.PoolInv) (x : PageId) : w'.pins x = w.pins x := by
  have hframe := hd.frameOf x
  split at hframe
  · rename_i hx
    rw [pins_of_none hframe, hx, pins_of_frameOf hd.mapped, hd.unpinned]
  · rename_i hx
    cases hg : w.frameOf x with
    | none => rw [pins_of_none (hframe.trans hg), pins_of_none hg]
    | some g =>
      have hne : g ≠ f := fun he => hx (hw.frame_inj hg (he ▸ hd.mapped))
      rw [pins_of_frameOf (hframe.trans hg), pins_of_frameOf hg, hd.pages,
        Function.update_of_ne hne]

/-- A new page is clean, and the other pages agree with the disk as before. -/
theorem Coherent.newPage (hw : w.Coherent) (hsafe : ¬ w.ReallocatesResident) :
    w.newPage.2.Coherent := by
  have hinv : w.newPage.2.PoolInv := (step_poolInv hw.inv (c := .newPage) fun _ => hsafe).1
  refine ⟨hinv, fun {x g} hx hclean => ?_⟩
  rcases newPage_cases hw.inv with ⟨p, f, d, w', he, hl, hs, ha, b, v, ht⟩ | ⟨w', he, hk, -⟩
  · rw [he] at hx hclean ⊢
    rw [hl.frameOf] at hx
    rw [hl.pages] at hclean ⊢
    rw [ha.pages]
    split at hx
    · rename_i hxp
      cases hx
      rw [Function.update_self, hxp, Function.update_self]
    · rename_i hxp
      split at hx
      · cases hx
      · rename_i hxf
        have hg : g ≠ f := fun he => hxf (he ▸ hx)
        rw [Function.update_of_ne hg] at hclean ⊢
        rw [Function.update_of_ne hxp, hs.pages, if_neg fun hc => hxf hc.1]
        exact hw.clean hx hclean
  · rw [he] at hx hclean ⊢
    exact (hk.keeps hw x).coherent.clean hx hclean

/-! ## Pools in the middle of a disciplined program -/

/-- The pin of the page in hand. -/
def handPins (hand : Option (Hand PageId FrameId PageData)) (p : PageId) : Nat :=
  match hand with
  | some x => if p = x.page then 1 else 0
  | none => 0

/-- The pool `w` in the middle of a program that began with the pool `w₀`. -/
structure Steady (w₀ w : BufferPoolManager) (hand : Option (Hand PageId FrameId PageData)) :
    Prop where
  inv : w.PoolInv
  poolSize : w.poolSize = w₀.poolSize
  pins : ∀ p, w.pins p = w₀.pins p + handPins hand p
  held : ∀ {x}, hand = some x → w.frameOf x.page = some x.handle ∧
    (w.pages x.handle).data = x.contents
  clean : w₀.Coherent → ∀ {p f}, w.frameOf p = some f → (w.pages f).isDirty = false →
    (∀ x, hand = some x → x.page = p → x.unmarked = false) → (w.pages f).data = w.disk.pages p

variable {hand : Option (Hand PageId FrameId PageData)} {f' : FrameId} {d d' : PageData}
  {u u' mark dirty : Bool}

theorem Steady.start (hw : w₀.PoolInv) : Steady w₀ w₀ none where
  inv := hw
  poolSize := rfl
  pins _ := rfl
  held := nofun
  clean h _ _ hp hclean _ := h.clean hp hclean

theorem Steady.coherent (hs : Steady w₀ w none) (h : w₀.Coherent) : w.Coherent :=
  ⟨hs.inv, fun hp hclean => hs.clean h hp hclean nofun⟩

/-- With no page in hand, a call that keeps the pins and the coherence. -/
theorem Steady.of_call (hs : Steady w₀ w none) (hinv : w'.PoolInv)
    (hsize : w'.poolSize = w.poolSize)
    (hpins : ∀ p, w'.pins p = w.pins p) (hclean : w.Coherent → w'.Coherent) :
    Steady w₀ w' none where
  inv := hinv
  poolSize := hsize.trans hs.poolSize
  pins p := (hpins p).trans (hs.pins p)
  held := nofun
  clean h _ _ hp hd _ := (hclean (hs.coherent h)).clean hp hd

/-- With no page in hand, a call that pins a page. -/
theorem Steady.of_pin (hs : Steady w₀ w none) (hinv : w'.PoolInv) (hsize : w'.poolSize = w.poolSize)
    (hpins : ∀ x, w'.pins x = w.pins x + if x = p then 1 else 0) (hf : w'.frameOf p = some f)
    (hclean : w.Coherent → w'.Coherent) (f' : FrameId) :
    Steady w₀ w' (some ⟨p, f, f', (w'.pages f).data, false⟩) where
  inv := hinv
  poolSize := hsize.trans hs.poolSize
  pins x := by
    rw [hpins, hs.pins]
    rfl
  held he := by
    cases he
    exact ⟨hf, rfl⟩
  clean h _ _ hp hd _ := (hclean (hs.coherent h)).clean hp hd

/-- `FetchPage` puts a page in hand, or nothing happens. -/
theorem Steady.fetchPage (hs : Steady w₀ w none) (p : PageId) :
    ((w.fetchPage p).1 = none → Steady w₀ (w.fetchPage p).2 none) ∧
      ∀ f f', (w.fetchPage p).1 = some f →
        Steady w₀ (w.fetchPage p).2 (some ⟨p, f, f', ((w.fetchPage p).2.pages f).data, false⟩) := by
  have hclean : w.Coherent → (w.fetchPage p).2.Coherent := fun h => (h.fetchPage p p).1.coherent
  have hinv : (w.fetchPage p).2.PoolInv := (step_poolInv hs.inv (c := .fetchPage p) nofun).1
  rcases fetchPage_cases hs.inv p with
    ⟨f, hf, he⟩ | ⟨f, w', he, hp, -, -, hl, -⟩ | ⟨w', he, -, hk, -⟩
  · obtain ⟨w', he', -, ht⟩ := fetchHit_touches hs.inv hf
    rw [he'] at he
    rw [he] at hclean hinv ⊢
    refine ⟨nofun, fun g f' hg => ?_⟩
    cases hg
    refine hs.of_pin hinv ht.poolSize (fun x => ?_) ((ht.frameOf p).trans hf) hclean f'
    rw [ht.pins hs.inv]
    split
    · rename_i hx
      rw [hx, pins_of_frameOf hf]
    · rfl
  · rw [he] at hclean hinv ⊢
    refine ⟨nofun, fun g f' hg => ?_⟩
    cases hg
    refine hs.of_pin hinv hl.poolSize (fun x => ?_) (by rw [hl.frameOf, if_pos rfl]) hclean f'
    rw [hl.pins]
    split
    · rename_i hx
      rw [hx, pins_of_none hp]
    · rfl
  · rw [he] at hclean hinv ⊢
    exact ⟨fun _ => hs.of_call hinv hk.poolSize hk.pins hclean, nofun⟩

/-- `NewPage` puts a page in hand, or nothing happens. -/
theorem Steady.newPage (hs : Steady w₀ w none) (hsafe : ¬ w.ReallocatesResident) :
    (w.newPage.1 = none → Steady w₀ w.newPage.2 none) ∧
      ∀ p f f', w.newPage.1 = some (p, f) →
        Steady w₀ w.newPage.2 (some ⟨p, f, f', (w.newPage.2.pages f).data, false⟩) := by
  have hclean : w.Coherent → w.newPage.2.Coherent := fun h => h.newPage hsafe
  have hinv : w.newPage.2.PoolInv := (step_poolInv hs.inv (c := .newPage) fun _ => hsafe).1
  rcases newPage_cases hs.inv with ⟨p, f, d, w', he, hl, hsaves, ha, b, v, ht⟩ | ⟨w', he, hk, -⟩
  · rw [he] at hclean hinv ⊢
    refine ⟨nofun, fun q g f' hg => ?_⟩
    cases hg
    refine hs.of_pin hinv hl.poolSize (fun x => ?_) (by rw [hl.frameOf, if_pos rfl]) hclean f'
    rw [hl.pins]
    split
    · rename_i hx
      -- the id is not in the pool, or in the frame that is taken, which is not pinned
      have hzero : w.pins p = 0 := by
        cases hg : w.frameOf p with
        | none => exact pins_of_none hg
        | some g =>
          have hgf : g = f := by
            by_contra hne
            refine hsafe ⟨g, f, b, v, ?_, ht, hne⟩
            rw [← nextPageId_congr hsaves.shape, ← ha.id, hg]
          rw [pins_of_frameOf hg, hgf, hl.unpinned]
      rw [hx, hzero]
    · rfl
  · rw [he] at hclean hinv ⊢
    exact ⟨fun _ => hs.of_call hinv hk.poolSize hk.pins hclean, nofun⟩

theorem Steady.deletePage (hs : Steady w₀ w none) (p : PageId) :
    Steady w₀ (w.deletePage p).2 none := by
  have hclean : w.Coherent → (w.deletePage p).2.Coherent := fun h =>
    (h.deletePage p headerPageId (by decide)).coherent
  have hinv : (w.deletePage p).2.PoolInv := (step_poolInv hs.inv (c := .deletePage p) nofun).1
  rcases deletePage_cases hs.inv p with ⟨f, w', he, -, hd⟩ | ⟨he, -⟩ | ⟨he, -⟩
  · rw [he] at hclean hinv ⊢
    exact hs.of_call hinv hd.poolSize (hd.pins hs.inv) hclean
  · rw [he] at hclean hinv ⊢
    exact hs.of_call hinv rfl (fun _ => rfl) hclean
  · rw [he]
    exact hs

theorem Steady.flushPage (hs : Steady w₀ w none) (p : PageId) :
    Steady w₀ (w.flushPage p).2 none := by
  have hf := flushPage_flushed hs.inv p
  exact hs.of_call hf.inv hf.poolSize (pins_congr hf.frameOf hf.pinCount) fun h =>
    (h.flushPage p p).coherent

theorem Steady.flushAllPages (hs : Steady w₀ w none) : Steady w₀ w.flushAllPages none := by
  have hf := flushAllPages_flushed hs.inv
  exact hs.of_call hf.inv hf.poolSize (pins_congr hf.frameOf hf.pinCount) fun h =>
    (h.flushAllPages headerPageId).coherent

/-- The page in hand is in its frame. -/
theorem Steady.inHand (hs : Steady w₀ w (some ⟨p, f, f', d, u⟩)) :
    w.frameOf p = some f ∧ (w.pages f).data = d :=
  hs.held rfl

/-- The page in hand is pinned. -/
theorem Steady.pinned (hs : Steady w₀ w (some ⟨p, f, f', d, u⟩)) : 0 < (w.pages f).pinCount := by
  have hp : w.pins p = w₀.pins p + if p = p then 1 else 0 := hs.pins p
  rw [pins_of_frameOf hs.inHand.1, if_pos rfl] at hp
  omega

/-- `UnpinPage` gives the page in hand back. -/
theorem Steady.unpinPage (hs : Steady w₀ w (some ⟨p, f, f', d, u⟩))
    (hm : dirty = true ∨ u = false) :
    ∃ w', w.unpinPage p dirty = (true, w') ∧ Steady w₀ w' none := by
  obtain ⟨hf, -⟩ := hs.inHand
  rcases unpinPage_cases hs.inv p dirty with ⟨g, w', he, hdisk, hpos, ht⟩ | ⟨-, hzero⟩
  · obtain rfl : g = f := Option.some.inj (ht.mapped.symm.trans hf)
    refine ⟨w', he, ht.poolInv hs.inv, ht.poolSize.trans hs.poolSize, fun x => ?_, nofun, ?_⟩
    · have hx := hs.pins x
      rw [ht.pins hs.inv]
      simp only [handPins] at hx ⊢
      split
      · rename_i hxp
        subst hxp
        rw [pins_of_frameOf hf, if_pos rfl] at hx
        omega
      · rename_i hxp
        rwa [if_neg hxp] at hx
    · intro h x y hx hclean _
      rw [ht.frameOf] at hx
      rw [hdisk]
      by_cases hy : y = g
      · subst hy
        rw [ht.pages, Function.update_self] at hclean ⊢
        obtain ⟨hclean, hdirty⟩ := Bool.or_eq_false_iff.mp hclean
        refine hs.clean h hx hclean fun z hz _ => ?_
        cases hz
        exact hm.resolve_left (by rw [hdirty]; nofun)
      · rw [ht.pages, Function.update_of_ne hy] at hclean ⊢
        refine hs.clean h hx hclean fun z hz hzx => ?_
        cases hz
        cases hzx
        exact absurd (Option.some.inj (hx.symm.trans hf)) hy
  · have := hzero f hf
    have := hs.pinned
    omega

/-- A write to the page in hand. -/
theorem Steady.put (hs : Steady w₀ w (some ⟨p, f, f', d, u⟩))
    (hm : u' = !mark ∨ (u' = false ∧ u = false ∧ d' = d)) :
    Steady w₀ (if mark then (w.writeBytes f d').setDirty f else w.writeBytes f d')
      (some ⟨p, f, f', d', u'⟩) := by
  obtain ⟨hf, hdata⟩ := hs.inHand
  obtain ⟨dirty', hpage, hpages, hrest⟩ : ∃ dirty', (mark = true → dirty' = true) ∧
      ((if mark then (w.writeBytes f d').setDirty f else w.writeBytes f d') =
        w.setFrame f { w.pages f with data := d', isDirty := dirty' }) ∧
      (mark = false → dirty' = (w.pages f).isDirty) := by
    cases mark with
    | false => exact ⟨_, nofun, rfl, fun _ => rfl⟩
    | true =>
      refine ⟨true, fun _ => rfl, ?_, nofun⟩
      simp [writeBytes, setDirty, setFrame]
  rw [hpages]
  have ht := touches_setFrame hs.inv hf { w.pages f with data := d', isDirty := dirty' }
    rfl rfl
  refine ⟨ht.poolInv hs.inv, hs.poolSize, fun x => ?_, fun he => ?_, fun h x g hx hclean hno => ?_⟩
  · rw [ht.pins hs.inv]
    have hx := hs.pins x
    simp only [handPins] at hx ⊢
    split
    · rename_i hxp
      subst hxp
      rwa [pins_of_frameOf hf, if_pos rfl] at hx
    · rename_i hxp
      rwa [if_neg hxp] at hx
  · cases he
    exact ⟨(ht.frameOf p).trans hf, by rw [ht.pages, Function.update_self]⟩
  · rw [ht.frameOf] at hx
    show _ = w.disk.pages x
    by_cases hg : g = f
    · subst hg
      obtain rfl := hs.inv.frame_inj hx hf
      rw [ht.pages, Function.update_self] at hclean ⊢
      have hu' : u' = false := hno _ rfl rfl
      rcases hm with hmark | ⟨-, hu, rfl⟩
      · rw [hu'] at hmark
        rw [hpage (by simpa using hmark.symm)] at hclean
        cases hclean
      · cases mark with
        | true =>
          rw [hpage rfl] at hclean
          cases hclean
        | false =>
          rw [hrest rfl] at hclean
          rw [show (_ : Page).data = (w.pages g).data from hdata.symm]
          refine hs.clean h hx hclean fun z hz _ => ?_
          cases hz
          exact hu
    · rw [ht.pages, Function.update_of_ne hg] at hclean ⊢
      refine hs.clean h hx hclean fun z hz hzx => ?_
      cases hz
      cases hzx
      exact absurd (Option.some.inj (hx.symm.trans hf)) hg

/-- With no pins at all, a frame is free or can be evicted. -/
theorem Steady.hasFrame (hs : Steady w₀ w none) (hsize : 0 < w₀.poolSize)
    (hzero : ∀ p, w₀.pins p = 0) : ¬ w.NoFrame := by
  rintro ⟨hfree, hhas⟩
  rcases hs.inv.covered 0 (by rw [hs.poolSize]; exact hsize) with hin | ⟨p, hp⟩
  · rw [hfree] at hin
    cases hin
  · have hpins : w.pins p = w₀.pins p + 0 := hs.pins p
    rw [pins_of_frameOf hp, hzero] at hpins
    have hevict := (hs.inv.evictable 0).mpr ⟨⟨p, hp⟩, hpins⟩
    rw [hhas] at hevict
    cases hevict

end BufferPoolManager

/-! ## Whole programs -/

/-- The call takes a frame. -/
def BufferPoolManager.PoolCall.TakesFrame : PoolCall → Prop
  | .fetchPage _ => True
  | .newPage => True
  | _ => False

/-- At each of the calls the pool is steady, and a call that takes a frame is made with no page in
hand. -/
def SteadyAt (w₀ : BufferPoolManager) (calls : List (PoolCall × BufferPoolManager)) : Prop :=
  ∀ c v, (c, v) ∈ calls → ∃ hand, Steady w₀ v hand ∧ (c.TakesFrame → hand = none)

theorem SteadyAt.cons {w₀ w : BufferPoolManager} {calls : List (PoolCall × BufferPoolManager)}
    {c : PoolCall} {hand : Option (Hand PageId FrameId PageData)} (hs : Steady w₀ w hand)
    (hc : c.TakesFrame → hand = none) (h : SteadyAt w₀ calls) : SteadyAt w₀ ((c, w) :: calls) := by
  intro c' v hin
  rcases List.mem_cons.mp hin with he | hin
  · cases he
    exact ⟨hand, hs, hc⟩
  · exact h c' v hin

/-- A disciplined program keeps the pool steady, at each of its calls and at its end. -/
theorem Disciplined.steady {α : Type} {hand : Option (Hand PageId FrameId PageData)}
    {x y : Program α} (hx : Disciplined hand x y) {w₀ w : BufferPoolManager}
    (hs : Steady w₀ w hand) (hsafe : x.Safe w) :
    SteadyAt w₀ (x.trace w) ∧ ∀ a w', x.run w = some (a, w') → Steady w₀ w' none := by
  induction hx generalizing w with
  | ret a =>
    refine ⟨nofun, fun b w' hrun => ?_⟩
    cases hrun
    exact hs
  | diverge => exact ⟨nofun, nofun⟩
  | @fetch p k k' _ _ ihn ihs =>
    obtain ⟨hnone, hsome⟩ := hs.fetchPage p
    unfold Program.Safe at hsafe
    rw [Program.trace] at hsafe ⊢
    rw [Program.run]
    rcases he : w.fetchPage p with ⟨_ | f, v⟩
    · rw [he] at hnone hsafe
      obtain ⟨htrace, hend⟩ := ihn (hnone rfl) fun v' hv => hsafe v' (List.mem_cons_of_mem _ hv)
      exact ⟨htrace.cons hs fun _ => rfl, hend⟩
    · rw [he] at hsome hsafe
      obtain ⟨htrace, hend⟩ := ihs f f (v.pages f).data (hsome f f rfl) fun v' hv =>
        hsafe v' (List.mem_cons_of_mem _ hv)
      exact ⟨htrace.cons hs fun _ => rfl, hend⟩
  | put hm _ ih => exact ih (hs.put hm) hsafe
  | @unpin p f f' d u dirty k k' hm _ ih =>
    obtain ⟨v, he, hv⟩ := hs.unpinPage hm
    unfold Program.Safe at hsafe
    rw [Program.trace, he] at hsafe ⊢
    rw [Program.run, he]
    obtain ⟨htrace, hend⟩ := ih hv fun v' hv => hsafe v' (List.mem_cons_of_mem _ hv)
    exact ⟨htrace.cons hs False.elim, hend⟩
  | @alloc k k' _ _ ihn ihs =>
    unfold Program.Safe at hsafe
    rw [Program.trace] at hsafe ⊢
    rw [Program.run]
    obtain ⟨hnone, hsome⟩ := hs.newPage (hsafe w List.mem_cons_self)
    rcases he : w.newPage with ⟨_ | ⟨p, f⟩, v⟩
    · rw [he] at hnone hsafe
      obtain ⟨htrace, hend⟩ := ihn (hnone rfl) fun v' hv => hsafe v' (List.mem_cons_of_mem _ hv)
      exact ⟨htrace.cons hs fun _ => rfl, hend⟩
    · rw [he] at hsome hsafe
      obtain ⟨htrace, hend⟩ := ihs p f f (v.pages f).data (hsome p f f rfl) fun v' hv =>
        hsafe v' (List.mem_cons_of_mem _ hv)
      exact ⟨htrace.cons hs fun _ => rfl, hend⟩
  | @free p k k' _ ih =>
    unfold Program.Safe at hsafe
    rw [Program.trace] at hsafe ⊢
    obtain ⟨htrace, hend⟩ := ih (w.deletePage p).1 (hs.deletePage p) fun v' hv =>
      hsafe v' (List.mem_cons_of_mem _ hv)
    exact ⟨htrace.cons hs fun _ => rfl, hend⟩
  | @flush p k k' _ ih =>
    unfold Program.Safe at hsafe
    rw [Program.trace] at hsafe ⊢
    obtain ⟨htrace, hend⟩ := ih (w.flushPage p).1 (hs.flushPage p) fun v' hv =>
      hsafe v' (List.mem_cons_of_mem _ hv)
    exact ⟨htrace.cons hs fun _ => rfl, hend⟩
  | flushAll _ ih =>
    unfold Program.Safe at hsafe
    rw [Program.trace] at hsafe ⊢
    obtain ⟨htrace, hend⟩ := ih hs.flushAllPages fun v' hv =>
      hsafe v' (List.mem_cons_of_mem _ hv)
    exact ⟨htrace.cons hs fun _ => rfl, hend⟩

/-! ## Changes of a page in hand -/

/-- A changed page is marked dirty. -/
def Page.Marks (page page' : Page) : Prop := page'.isDirty = true ∨ page' = page

namespace Page

theorem Marks.refl (page : Page) : page.Marks page := .inr rfl

theorem Marks.ite {α : Type} {c : Prop} [Decidable c] {page : Page} {x y : α × Page}
    (hx : page.Marks x.2) (hy : page.Marks y.2) : page.Marks (if c then x else y).2 := by
  split
  · exact hx
  · exact hy

theorem Marks.trans {page page' page'' : Page} (h : page.Marks page') (h' : page'.Marks page'') :
    page.Marks page'' := by
  rcases h' with h' | rfl
  · exact .inl h'
  · exact h

end Page

section

variable {α : Type} {p : PageId} {f f' : FrameId} {d : PageData} {page page' : Page}
  {g g' : Unit → Program α}

/-- The bytes of a page in hand are written back after another change. -/
theorem disciplined_rewritePage (hm : (Page.view p d).Marks page) (hm' : page.Marks page')
    (hg : Disciplined (some ⟨p, f, f', page'.data, false⟩) (g ()) (g' ())) :
    Disciplined (some ⟨p, f, f', page.data, false⟩) (Program.writePage f page' >>= g)
      (Program.writePage f' page' >>= g') := by
  rcases hm.trans hm' with hdirty | rfl
  · unfold Program.writePage
    rw [hdirty]
    exact disciplined_putPage hg
  · rcases hm' with hdirty | rfl
    · cases hdirty
    · exact disciplined_putPage_same hg

/-- The bytes of a page in hand are written back after a change. -/
theorem disciplined_writePage (hm : (Page.view p d).Marks page)
    (hg : Disciplined (some ⟨p, f, f', page.data, false⟩) (g ()) (g' ())) :
    Disciplined (some ⟨p, f, f', d, false⟩) (Program.writePage f page >>= g)
      (Program.writePage f' page >>= g') :=
  disciplined_rewritePage (.refl (Page.view p d)) hm hg

end

end MiniDbms
