import MiniDbms.Buffer.FreePages
import MiniDbms.Lib.PinDiscipline

/-!
# Two pools in lockstep

`Twins ext h r hand w v`: two pools, which may have different sizes and different replacers in
different states, hold the same pages, their disks have the same shape, and a page in hand is the
same in both, though not in the same frame. Programs that make the same calls up to the handles of
pages (`Disciplined`) keep that and end with the same result (`lockstep`). What both pools leave
behind when they are flushed is the same file (`TwinPools.flushed`).
-/

namespace MiniDbms

open Lib PagedProgram Program BufferPoolManager

/-- A page in hand of two programs. -/
abbrev PageHand := Hand PageId FrameId PageData

/-- What the first of two programs has in hand. -/
def PageHand.left (x : PageHand) : PageId × FrameId × Bool := (x.page, x.handle, x.unmarked)

/-- What the second of two programs has in hand. -/
def PageHand.right (x : PageHand) : PageId × FrameId × Bool := (x.page, x.handle', x.unmarked)

/-- Two pools with the same pages, and disks of the same shape on which no access fails. -/
structure Twins (ext : PageId → Nat) (h : Pages) (r : Option PageId) (hand : Option PageHand)
    (w v : BufferPoolManager) : Prop where
  left : Rep ext w ⟨h, hand.map PageHand.left, r⟩
  right : Rep ext v ⟨h, hand.map PageHand.right, r⟩
  contents : ∀ x, hand = some x → h.page x.page = some x.contents
  shape : DiskManager.SameShape w.disk v.disk
  perfect : w.disk.faults.Perfect

section

variable {α β : Type} {ext : PageId → Nat} {h : Pages} {r : Option PageId} {hand : Option PageHand}
  {w w' v v' : BufferPoolManager} {p : PageId} {d : PageData} {f f' : FrameId}
  {u u' mark dirty : Bool}

theorem run_first {x : Program β} {k : β → Program α} {b : β} (hrun : x.run w = some (b, v)) :
    (x >>= k).run w = (k b).run v := by
  rw [run_bind, hrun]
  rfl

/-! ## Single calls on one pool -/

theorem Rep.fetched (hr : Rep ext w ⟨h, none, r⟩) (hp : h.page p = some d) :
    ∃ f w', Program.run (PagedProgram.fetchPage p) w = some (some (f, d), w') ∧
      Rep ext w' ⟨h, some (p, f, false), none⟩ ∧ DiskManager.SameShape w.disk w'.disk := by
  have hwp : (PagedProgram.fetchPage p : Program _).wp (poolContext ext)
      (fun a s => ∃ f, a = some (f, d) ∧ s = ⟨h, some (p, f, false), none⟩) ⟨h, none, r⟩ :=
    ⟨rfl, d, hp, fun f => ⟨f, rfl, rfl⟩⟩
  obtain ⟨_, w', _, hrun, ⟨f, rfl, rfl⟩, hrep, -⟩ := run_of_wp hr hwp
  refine ⟨f, w', hrun, hrep, ?_⟩
  rw [pool_of_fetchPage hrun]
  exact sameShape_fetchPage hr.sim.inv p

theorem Rep.unpinned (hr : Rep ext w ⟨h, some (p, f, u), r⟩) (hd : dirty = true ∨ u = false) :
    ∃ w', Program.run (PagedProgram.unpinPage p dirty) w = some (true, w') ∧
      Rep ext w' ⟨h, none, some p⟩ ∧ w'.disk = w.disk := by
  have hwp : (PagedProgram.unpinPage p dirty : Program _).wp (poolContext ext)
      (fun a s => a = true ∧ s = ⟨h, none, some p⟩) ⟨h, some (p, f, u), r⟩ :=
    ⟨f, u, rfl, hd, rfl, rfl⟩
  obtain ⟨_, w', _, hrun, ⟨rfl, rfl⟩, hrep, -⟩ := run_of_wp hr hwp
  refine ⟨w', hrun, hrep, ?_⟩
  have hpool : w.unpinPage p dirty = (true, w') := Option.some.inj hrun
  have hdisk := disk_unpinPage hr.sim.inv p dirty
  rw [hpool] at hdisk
  exact hdisk

/-- What an allocation answers: a page that did not exist, or nothing. -/
theorem Rep.allocated (hr : Rep ext w ⟨h, none, r⟩) :
    ∃ w', w' = w.newPage.2 ∧ w'.disk.faults = w.disk.faults ∧
      ((w.newPage.1.map Prod.fst = none ∧ Program.run PagedProgram.newPage w = some (none, w') ∧
        Rep ext w' ⟨h.fail, none, none⟩) ∨
      ∃ p f, w.newPage.1.map Prod.fst = some p ∧
        Program.run PagedProgram.newPage w = some (some (p, f, Image.zero), w') ∧
        h.page p = none ∧ 0 < p.toInt ∧ ¬ 0 < ext p ∧
        Rep ext w' ⟨h.set p Image.zero, some (p, f, false), none⟩) := by
  have hwp : (PagedProgram.newPage : Program _).wp (poolContext ext) (fun a s =>
      (a = none ∧ s = ⟨h.fail, none, none⟩) ∨ ∃ p f, a = some (p, f, Image.zero) ∧
        h.page p = none ∧ 0 < p.toInt ∧ ¬ 0 < ext p ∧
        s = ⟨h.set p Image.zero, some (p, f, false), none⟩) ⟨h, none, r⟩ :=
    ⟨rfl, .inl ⟨rfl, rfl⟩, fun p f hp hpos hext => .inr ⟨p, f, rfl, hp, hpos, hext, rfl⟩⟩
  obtain ⟨a, w', s, hrun, hs, hrep, hext⟩ := run_of_wp hr hwp
  have hpool : w' = w.newPage.2 := pool_of_newPage hrun
  have hanswer : w.newPage.1.map Prod.fst = a.map Prod.fst := by
    have hrun' := hrun
    rw [PagedProgram.newPage, Program.run] at hrun'
    rcases he : w.newPage with ⟨_ | ⟨p, f⟩, w₁⟩
    all_goals
      rw [he] at hrun'
      cases hrun'
      rfl
  refine ⟨w', hpool, hext.faults, ?_⟩
  rcases hs with ⟨rfl, rfl⟩ | ⟨p, f, rfl, hp, hpos, hext, rfl⟩
  · exact .inl ⟨hanswer, hrun, hrep⟩
  · exact .inr ⟨p, f, hanswer, hrun, hp, hpos, hext, hrep⟩

theorem Rep.freed (hr : Rep ext w ⟨h, none, r⟩) (hp : h.page p ≠ none) (hpos : 0 < p.toInt)
    (hext : ¬ 0 < ext p) :
    ∃ w', Program.run (PagedProgram.deletePage p) w = some (true, w') ∧
      Rep ext w' ⟨h.drop p, none, none⟩ ∧ w'.disk = w.disk.deallocatePage p := by
  have hwp : (PagedProgram.deletePage p : Program _).wp (poolContext ext)
      (fun a s => a = true ∧ s = ⟨h.drop p, none, none⟩) ⟨h, none, r⟩ :=
    ⟨rfl, hp, hpos, hext, rfl, rfl⟩
  obtain ⟨_, w', _, hrun, ⟨rfl, rfl⟩, hrep, -⟩ := run_of_wp hr hwp
  refine ⟨w', hrun, hrep, ?_⟩
  have hpool : w.deletePage p = (true, w') := Option.some.inj hrun
  have hdisk := disk_deletePage (congrArg Prod.fst hpool)
  rw [hpool] at hdisk
  exact hdisk

theorem Rep.flushed (hr : Rep ext w ⟨h, none, some p⟩) :
    ∃ w', Program.run (PagedProgram.flushPage p) w = some (true, w') ∧
      Rep ext w' ⟨h, none, some p⟩ ∧ DiskManager.SameShape w.disk w'.disk := by
  have hwp : (PagedProgram.flushPage p : Program _).wp (poolContext ext)
      (fun a s => a = true ∧ s = ⟨h, none, some p⟩) ⟨h, none, some p⟩ := ⟨rfl, rfl, rfl, rfl⟩
  obtain ⟨_, w', _, hrun, ⟨rfl, rfl⟩, hrep, -⟩ := run_of_wp hr hwp
  refine ⟨w', hrun, hrep, ?_⟩
  have hpool : w.flushPage p = (true, w') := Option.some.inj hrun
  have hflushed := (flushPage_flushed hr.sim.inv p).shape
  rw [hpool] at hflushed
  exact hflushed

theorem Rep.flushedAll (hr : Rep ext w ⟨h, none, r⟩) :
    Program.run PagedProgram.flushAllPages w = some ((), w.flushAllPages) ∧
      Rep ext w.flushAllPages ⟨h, none, r⟩ ∧
      DiskManager.SameShape w.disk w.flushAllPages.disk := by
  have hwp : (PagedProgram.flushAllPages : Program _).wp (poolContext ext)
      (fun _ s => s = ⟨h, none, r⟩)
      ⟨h, none, r⟩ := ⟨rfl, rfl⟩
  obtain ⟨_, w', _, hrun, rfl, hrep, -⟩ := run_of_wp hr hwp
  cases hrun
  exact ⟨rfl, hrep, (flushAllPages_flushed hr.sim.inv).shape⟩

/-! ## Single calls on two pools -/

/-- Calls that keep the shape of the disk. -/
theorem Twins.of_shape {h' : Pages} {r' : Option PageId} {hand' : Option PageHand}
    (ht : Twins ext h r hand w v) (hw : Rep ext w' ⟨h', hand'.map PageHand.left, r'⟩)
    (hv : Rep ext v' ⟨h', hand'.map PageHand.right, r'⟩)
    (hcontents : ∀ x, hand' = some x → h'.page x.page = some x.contents)
    (hws : DiskManager.SameShape w.disk w'.disk) (hvs : DiskManager.SameShape v.disk v'.disk) :
    Twins ext h' r' hand' w' v' where
  left := hw
  right := hv
  contents := hcontents
  shape := hws.symm.trans (ht.shape.trans hvs)
  perfect := by
    rw [hws.faults]
    exact ht.perfect

theorem contents_none {h : Pages} : ∀ x : PageHand, (none : Option PageHand) = some x →
    h.page x.page = some x.contents := fun _ he => by cases he

theorem contents_some {x : PageHand} (hx : h.page x.page = some x.contents) :
    ∀ y, some x = some y → h.page y.page = some y.contents := by
  intro y he
  cases he
  exact hx

theorem Twins.fetch (ht : Twins ext h r none w v) (hp : h.page p = some d) :
    ∃ f f' w' v', Program.run (PagedProgram.fetchPage p) w = some (some (f, d), w') ∧
      Program.run (PagedProgram.fetchPage p) v = some (some (f', d), v') ∧
      Twins ext h none (some ⟨p, f, f', d, false⟩) w' v' := by
  obtain ⟨f, w', hrun, hw, hws⟩ := ht.left.fetched hp
  obtain ⟨f', v', hrun', hv, hvs⟩ := ht.right.fetched hp
  exact ⟨f, f', w', v', hrun, hrun', ht.of_shape hw hv (contents_some hp) hws hvs⟩

theorem Twins.put {d' : PageData} (ht : Twins ext h r (some ⟨p, f, f', d, u⟩) w v)
    (hm : u' = !mark ∨ (u' = false ∧ u = false ∧ d' = d)) :
    ∃ w' v', Program.run (putPage f d' mark) w = some ((), w') ∧
      Program.run (putPage f' d' mark) v = some ((), v') ∧
      Twins ext (h.set p d') none (some ⟨p, f, f', d', u'⟩) w' v' := by
  have hm' : u' = !mark ∨ (u' = false ∧ u = false ∧ h.page p = some d') := by
    refine hm.imp id fun hm => ⟨hm.1, hm.2.1, ?_⟩
    rw [hm.2.2]
    exact ht.contents _ rfl
  refine ⟨_, _, rfl, rfl, ht.of_shape (ht.left.put hm') (ht.right.put hm')
    (contents_some (Heap.page_set_self _ _ _)) ?_ ?_⟩
  · cases mark <;> exact .refl _
  · cases mark <;> exact .refl _

theorem Twins.unpin (ht : Twins ext h r (some ⟨p, f, f', d, u⟩) w v)
    (hd : dirty = true ∨ u = false) :
    ∃ w' v', Program.run (PagedProgram.unpinPage p dirty) w = some (true, w') ∧
      Program.run (PagedProgram.unpinPage p dirty) v = some (true, v') ∧
      Twins ext h (some p) none w' v' := by
  obtain ⟨w', hrun, hw, hws⟩ := Rep.unpinned ht.left hd
  obtain ⟨v', hrun', hv, hvs⟩ := Rep.unpinned ht.right hd
  refine ⟨w', v', hrun, hrun', ht.of_shape hw hv contents_none ?_ ?_⟩
  · rw [hws]
    exact .refl _
  · rw [hvs]
    exact .refl _

/-- Both pools get the same new page, or none of them gets one. -/
theorem Twins.alloc (ht : Twins ext h r none w v) :
    (∃ w' v', Program.run PagedProgram.newPage w = some (none, w') ∧
      Program.run PagedProgram.newPage v = some (none, v') ∧ Twins ext h.fail none none w' v') ∨
    ∃ p f f' w' v', Program.run PagedProgram.newPage w = some (some (p, f, Image.zero), w') ∧
      Program.run PagedProgram.newPage v = some (some (p, f', Image.zero), v') ∧
      h.page p = none ∧ 0 < p.toInt ∧ ¬ 0 < ext p ∧
      Twins ext (h.set p Image.zero) none (some ⟨p, f, f', Image.zero, false⟩) w' v' := by
  obtain ⟨w', rfl, hfaults, hw⟩ := Rep.allocated ht.left
  obtain ⟨v', rfl, -, hv⟩ := Rep.allocated ht.right
  obtain ⟨hid, hshape⟩ := sameShape_newPage ht.left.sim.inv ht.right.sim.inv
    (Rep.hasFrame ht.left) (Rep.hasFrame ht.right) ht.shape ht.perfect
  have hperfect : w.newPage.2.disk.faults.Perfect := by
    rw [hfaults]
    exact ht.perfect
  rcases hw with ⟨hnone, hrun, hw⟩ | ⟨p, f, hsome, hrun, hp, hpos, hext, hw⟩
  · rcases hv with ⟨-, hrun', hv⟩ | ⟨p', f', hsome', -⟩
    · exact .inl ⟨_, _, hrun, hrun', hw, hv, contents_none, hshape, hperfect⟩
    · rw [hid, hnone] at hsome'
      cases hsome'
  · rcases hv with ⟨hnone', -⟩ | ⟨p', f', hsome', hrun', -, -, -, hv⟩
    · rw [hid, hsome] at hnone'
      cases hnone'
    · rw [hid, hsome] at hsome'
      cases hsome'
      exact .inr ⟨p, f, f', _, _, hrun, hrun', hp, hpos, hext, hw, hv,
        contents_some (Heap.page_set_self _ _ _), hshape, hperfect⟩

theorem Twins.free (ht : Twins ext h r none w v) (hp : h.page p ≠ none) (hpos : 0 < p.toInt)
    (hext : ¬ 0 < ext p) :
    ∃ w' v', Program.run (PagedProgram.deletePage p) w = some (true, w') ∧
      Program.run (PagedProgram.deletePage p) v = some (true, v') ∧
      Twins ext (h.drop p) none none w' v' := by
  obtain ⟨w', hrun, hw, hdisk⟩ := Rep.freed ht.left hp hpos hext
  obtain ⟨v', hrun', hv, hdisk'⟩ := Rep.freed ht.right hp hpos hext
  refine ⟨w', v', hrun, hrun', hw, hv, contents_none, ?_, ?_⟩
  · rw [hdisk, hdisk']
    exact ht.shape.deallocatePage ht.perfect.toReliable p
  · rw [hdisk, DiskManager.deallocatePage_faults]
    exact ht.perfect

theorem Twins.flush (ht : Twins ext h (some p) none w v) :
    ∃ w' v', Program.run (PagedProgram.flushPage p) w = some (true, w') ∧
      Program.run (PagedProgram.flushPage p) v = some (true, v') ∧
      Twins ext h (some p) none w' v' := by
  obtain ⟨w', hrun, hw, hws⟩ := Rep.flushed ht.left
  obtain ⟨v', hrun', hv, hvs⟩ := Rep.flushed ht.right
  exact ⟨w', v', hrun, hrun', ht.of_shape hw hv contents_none hws hvs⟩

theorem Twins.flushAll (ht : Twins ext h r none w v) :
    Twins ext h r none w.flushAllPages v.flushAllPages :=
  ht.of_shape (Rep.flushedAll ht.left).2.1 (Rep.flushedAll ht.right).2.1 contents_none
    (Rep.flushedAll ht.left).2.2 (Rep.flushedAll ht.right).2.2

/-! ## Programs -/

/-- Programs that make the same calls end with the same result on two such pools. -/
theorem lockstep {x x' : Program α} {Q : α → Store PageId FrameId PageData → Prop}
    {held : Option (PageId × FrameId × Bool)} (hx : Disciplined hand x x')
    (ht : Twins ext h r hand w v)
    (hheld : held.map (fun x => (x.1, x.2.1)) = hand.map fun x => (x.page, x.handle))
    (hwp : x.wp (poolContext ext) Q ⟨h, held, r⟩) :
    ∃ a w' v' h' r', Program.run x w = some (a, w') ∧ Program.run x' v = some (a, v') ∧
      Q a ⟨h', none, r'⟩ ∧ Twins ext h' r' none w' v' := by
  induction hx generalizing w v h r held with
  | ret a =>
    cases Option.map_eq_none_iff.mp hheld
    exact ⟨a, w, v, h, r, rfl, rfl, hwp, ht⟩
  | diverge => exact hwp.elim
  | @fetch p k k' _ _ _ ih =>
    obtain ⟨-, d, hp, hk⟩ := hwp
    obtain ⟨f, f', w₁, v₁, hrun, hrun', ht₁⟩ := ht.fetch hp
    obtain ⟨a, w', v', h', r', hw, hv, hdone⟩ := ih f f' d ht₁ rfl (hk f)
    exact ⟨a, w', v', h', r', (run_first hrun).trans hw, (run_first hrun').trans hv, hdone⟩
  | @put p f f' d d' u u' mark k k' hm _ ih =>
    -- The two sides may disagree on the mark of a write that changes nothing.
    obtain ⟨p₀, u₀, u₀', rfl, -, hk⟩ := hwp
    cases hheld
    obtain ⟨w₁, v₁, hrun, hrun', ht₁⟩ := ht.put hm
    obtain ⟨a, w', v', h', r', hw, hv, hdone⟩ := ih ht₁ rfl hk
    exact ⟨a, w', v', h', r', (run_first (k := fun _ => k) hrun).trans hw,
      (run_first (k := fun _ => k') hrun').trans hv, hdone⟩
  | @unpin p f f' d u dirty k k' hd _ ih =>
    obtain ⟨_, _, -, -, hk⟩ := hwp
    obtain ⟨w₁, v₁, hrun, hrun', ht₁⟩ := ht.unpin hd
    obtain ⟨a, w', v', h', r', hw, hv, hdone⟩ := ih ht₁ rfl hk
    exact ⟨a, w', v', h', r', (run_first hrun).trans hw, (run_first hrun').trans hv, hdone⟩
  | @alloc k k' _ _ ihn ihs =>
    obtain ⟨-, hnone, hsome⟩ := hwp
    rcases ht.alloc with
      ⟨w₁, v₁, hrun, hrun', ht₁⟩ | ⟨p, f, f', w₁, v₁, hrun, hrun', hp, hpos, hext, ht₁⟩
    · obtain ⟨a, w', v', h', r', hw, hv, hdone⟩ := ihn ht₁ rfl hnone
      exact ⟨a, w', v', h', r', (run_first hrun).trans hw, (run_first hrun').trans hv, hdone⟩
    · obtain ⟨a, w', v', h', r', hw, hv, hdone⟩ := ihs p f f' _ ht₁ rfl (hsome p f hp hpos hext)
      exact ⟨a, w', v', h', r', (run_first hrun).trans hw, (run_first hrun').trans hv, hdone⟩
  | @free p k k' _ ih =>
    obtain ⟨-, hp, hpos, hext, hk⟩ := hwp
    obtain ⟨w₁, v₁, hrun, hrun', ht₁⟩ := ht.free hp hpos hext
    obtain ⟨a, w', v', h', r', hw, hv, hdone⟩ := ih true ht₁ rfl hk
    exact ⟨a, w', v', h', r', (run_first hrun).trans hw, (run_first hrun').trans hv, hdone⟩
  | @flush p k k' _ ih =>
    obtain ⟨hnone, hrecent, hk⟩ := hwp
    cases hrecent
    obtain ⟨w₁, v₁, hrun, hrun', ht₁⟩ := ht.flush
    obtain ⟨a, w', v', h', r', hw, hv, hdone⟩ := ih true ht₁ hheld hk
    exact ⟨a, w', v', h', r', (run_first hrun).trans hw, (run_first hrun').trans hv, hdone⟩
  | flushAll _ ih => exact ih ht.flushAll hheld hwp.2

/-! ## Whole operations -/

/-- Two pools with the same pages, none of them in hand, on which no access fails. -/
structure TwinPools (ext : PageId → Nat) (h : Pages) (w v : BufferPoolManager) : Prop where
  left : Holds ext w h
  right : Holds ext v h
  shape : DiskManager.SameShape w.disk v.disk
  perfect : w.disk.faults.Perfect

theorem Rep.forget (hr : Rep ext w ⟨h, none, r⟩) : Rep ext w ⟨h, none, none⟩ :=
  ⟨hr.sim, hr.domain, (fun he => by cases he), (fun he => by cases he), hr.failed, hr.room⟩

/-- An operation that is correct for `Runs` has the same result on both pools. -/
theorem lockstep_of_runs {x : Program α} {Q : α → Pages → Prop} (ht : TwinPools ext h w v)
    (hdisciplined : Disciplined none x x) (hx : Runs (poolContext ext) x Q h) :
    ∃ a w' v' h', Program.run x w = some (a, w') ∧ Program.run x v = some (a, v') ∧ Q a h' ∧
      TwinPools ext h' w' v' := by
  obtain ⟨⟨r, hw⟩, ⟨r', hv⟩, hshape, hperfect⟩ := ht
  have htwins : Twins ext h none none w v :=
    ⟨hw.forget, hv.forget, contents_none, hshape, hperfect⟩
  obtain ⟨a, w', v', h', r'', hrun, hrun', ⟨-, hQ⟩, ht'⟩ :=
    lockstep hdisciplined htwins rfl (hx none)
  exact ⟨a, w', v', h', hrun, hrun', hQ, ⟨r'', ht'.left⟩, ⟨r'', ht'.right⟩, ht'.shape, ht'.perfect⟩

/-- The pages of the two files are the same, up to the last one. -/
structure SameFile (d d' : DiskManager) : Prop where
  numPages : d'.numPages = d.numPages
  freePages : d'.freePages = d.freePages
  pages : ∀ p : PageId, 0 ≤ p.toInt → p.toInt < d.numPages → d'.pages p = d.pages p

/-- What the destructors of the two pools leave behind. -/
theorem TwinPools.flushed (ht : TwinPools ext h w v) (hw : w.disk.FreeBlank)
    (hv : v.disk.FreeBlank) :
    SameFile w.flushAllPages.disk v.flushAllPages.disk := by
  obtain ⟨hleft, hright, hshape, -⟩ := ht
  obtain ⟨r, hr⟩ := id hleft
  obtain ⟨r', hr'⟩ := id hright
  have hws := (flushAllPages_flushed hr.sim.inv).shape
  have hvs := (flushAllPages_flushed hr'.sim.inv).shape
  have hwb : w.flushAllPages.disk.FreeBlank := hr.sim.freeBlank_call hw .flushAllPages
  have hvb : v.flushAllPages.disk.FreeBlank := hr'.sim.freeBlank_call hv .flushAllPages
  have hsame : DiskManager.SameShape w.flushAllPages.disk v.flushAllPages.disk :=
    hws.symm.trans (hshape.trans hvs)
  refine ⟨hsame.numPages, hsame.freePages, fun p hpos hlt => ?_⟩
  by_cases hfree : p ∈ w.flushAllPages.disk.freePages
  · rw [hwb p hfree, hvb p (by rw [hsame.freePages]; exact hfree)]
  · have ha : w.disk.Allocated p := (hws.allocated p).mp ⟨hpos, hlt, hfree⟩
    obtain ⟨d, hd⟩ := Option.ne_none_iff_exists'.mp ((hr.domain p).mpr ha)
    rw [(hleft.flushed hd).2, (hright.flushed hd).2]

end

end MiniDbms
