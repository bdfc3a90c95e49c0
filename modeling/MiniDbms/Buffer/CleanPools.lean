import MiniDbms.Buffer.PoolImages
import MiniDbms.Lib.ReadOnly

/-!
# Reading pools

A read-only program leaves what a pool shows as it was (`run_sees`), and on a pool without dirty
frames the bytes of the disk as well, whatever the disk does (`run_readOnly`).
-/

namespace MiniDbms

open Lib PagedProgram BufferPoolManager

namespace BufferPoolManager

/-- No frame is dirty, and the disk has the bytes of `d`. -/
structure CleanOn (d : DiskManager) (w : BufferPoolManager) : Prop where
  clean : ∀ f, (w.pages f).isDirty = false
  pages : w.disk.pages = d.pages
  numPages : w.disk.numPages = d.numPages

variable {d : DiskManager} {w w' : BufferPoolManager} {p : PageId} {f : FrameId}

theorem new_cleanOn (n : Nat) (d : DiskManager) : (new n d).CleanOn d := ⟨fun _ => rfl, rfl, rfl⟩

/-- A step that changes neither the frames nor the bytes of the disk. -/
theorem CleanOn.of_same (h : w.CleanOn d) (hframes : w'.pages = w.pages)
    (hpages : w'.disk.pages = w.disk.pages) (hnum : w'.disk.numPages = w.disk.numPages) :
    w'.CleanOn d :=
  ⟨fun f => by rw [hframes]; exact h.clean f, hpages.trans h.pages, hnum.trans h.numPages⟩

theorem CleanOn.setFrame (h : w.CleanOn d) (f : FrameId) {page : Page}
    (hclean : page.isDirty = false) :
    (w.setFrame f page).CleanOn d := by
  refine ⟨fun g => ?_, h.pages, h.numPages⟩
  show (Function.update w.pages f page g).isDirty = false
  by_cases hg : g = f
  · subst hg
    rw [Function.update_self]
    exact hclean
  · rw [Function.update_of_ne hg]
    exact h.clean g

theorem CleanOn.takeFrame (h : w.CleanOn d) : w.takeFrame.2.CleanOn d := by
  unfold BufferPoolManager.takeFrame
  split
  · exact h.of_same rfl rfl rfl
  · split
    · exact h.of_same rfl rfl rfl
    · exact h.of_same rfl rfl rfl

theorem CleanOn.giveBack (h : w.CleanOn d) (f : FrameId) (b : Bool) :
    (w.giveBack f b).CleanOn d := by
  cases b with
  | false => exact h.of_same rfl rfl rfl
  | true => exact h.of_same rfl rfl rfl

theorem CleanOn.writeBack (h : w.CleanOn d) (f : FrameId) (b : Bool) :
    w.writeBack f b = (.ok (), w) := by
  rw [BufferPoolManager.writeBack, if_neg]
  intro hdirty
  rw [h.clean f] at hdirty
  exact absurd hdirty.2 Bool.false_ne_true

theorem readPage_same (e : DiskManager) (p : PageId) :
    (e.readPage p).2.pages = e.pages ∧ (e.readPage p).2.numPages = e.numPages := by
  unfold DiskManager.readPage
  split
  · exact ⟨rfl, rfl⟩
  split
  · exact ⟨rfl, rfl⟩
  split
  · exact ⟨rfl, rfl⟩
  · exact ⟨rfl, rfl⟩

theorem CleanOn.fetchPage (h : w.CleanOn d) (p : PageId) : (w.fetchPage p).2.CleanOn d := by
  unfold BufferPoolManager.fetchPage
  split
  · exact h
  cases hf : w.frameOf p with
  | some f =>
    have hclean : Page.isDirty { w.pages f with pinCount := (w.pages f).pinCount + 1 } = false :=
      h.clean f
    exact (h.setFrame f hclean).of_same rfl rfl rfl
  | none =>
    have hmiss : CleanOn d { w with bufferMisses := w.bufferMisses + 1 } := h.of_same rfl rfl rfl
    have htake := hmiss.takeFrame
    unfold fetchMiss
    revert htake
    rcases BufferPoolManager.takeFrame { w with bufferMisses := w.bufferMisses + 1 } with
      ⟨_ | ⟨f, b⟩, v⟩
    · exact fun htake => htake
    intro htake
    have hread := readPage_same v.disk p
    revert hread
    dsimp only
    rcases v.disk.readPage p with ⟨e | data, d'⟩
    · intro hread
      have hread' : CleanOn d { v with disk := d' } := htake.of_same rfl hread.1 hread.2
      exact hread'.giveBack f b
    · intro hread
      have hread' : CleanOn d { v with disk := d', diskReads := v.diskReads + 1 } :=
        htake.of_same rfl hread.1 hread.2
      dsimp only
      rw [hread'.writeBack f b]
      cases b with
      | false => exact (hread'.setFrame f rfl).of_same rfl rfl rfl
      | true => exact (hread'.setFrame f rfl).of_same rfl rfl rfl

theorem CleanOn.unpinPage (h : w.CleanOn d) (p : PageId) : (w.unpinPage p false).2.CleanOn d := by
  unfold BufferPoolManager.unpinPage
  split
  · exact h
  rename_i f _
  split
  · exact h
  have hclean : Page.isDirty { w.pages f with
      pinCount := (w.pages f).pinCount - 1
      isDirty := (w.pages f).isDirty || false } = false := by
    dsimp only
    rw [h.clean f, Bool.or_false]
  dsimp only
  split
  · exact (h.setFrame f hclean).of_same rfl rfl rfl
  · exact h.setFrame f hclean

theorem CleanOn.flushAllPages (h : w.CleanOn d) : w.flushAllPages.CleanOn d := by
  unfold BufferPoolManager.flushAllPages
  generalize w.pageTable.entries = entries
  induction entries generalizing w with
  | nil => exact h
  | cons e entries ih =>
    rw [List.foldl_cons]
    refine ih ?_
    rw [flushEntry, if_neg (by rw [h.clean]; exact Bool.false_ne_true)]
    exact h

end BufferPoolManager

/-- A read-only program writes nothing to the disk, when no frame is dirty. -/
theorem run_readOnly {α : Type} {x : Program α} (hx : x.ReadOnly) {d : DiskManager}
    {w w' : BufferPoolManager} {a : α} (hw : w.CleanOn d) (hrun : Program.run x w = some (a, w')) :
    w'.CleanOn d := by
  induction x generalizing w with
  | ret b =>
    cases hrun
    exact hw
  | diverge => cases hrun
  | fetch p k ih =>
    have hfetch := hw.fetchPage p
    rw [Program.run] at hrun
    rcases he : w.fetchPage p with ⟨_ | f, v⟩
    · rw [he] at hrun hfetch
      exact ih _ (hx _) hfetch hrun
    · rw [he] at hrun hfetch
      exact ih _ (hx _) hfetch hrun
  | unpin p dirty k ih =>
    obtain ⟨rfl, hk⟩ := hx
    exact ih _ (hk _) (hw.unpinPage p) hrun
  | put f d mark k => exact hx.elim
  | alloc k => exact hx.elim
  | free p k => exact hx.elim
  | flush p k => exact hx.elim
  | flushAll k => exact hx.elim

/-- What a program has seen of a pool is true of it, and it leaves what the pool shows. -/
theorem run_sees {α : Type} {x : Program α} {img : PageId → PageData} {Q : α → Prop}
    (hx : x.Sees img Q) {w w' : BufferPoolManager} {a : α} (hw : w.Coherent) (himg : w.image = img)
    (hrun : Program.run x w = some (a, w')) : Q a ∧ w'.Coherent ∧ w'.image = img := by
  induction x generalizing w with
  | ret b =>
    cases hrun
    exact ⟨hx, hw, himg⟩
  | diverge => cases hrun
  | fetch p k ih =>
    have hcoherent := (hw.fetchPage p p).1.coherent
    have himage : (w.fetchPage p).2.image = img := by
      rw [← himg]
      exact funext fun q => (hw.fetchPage p q).1.image
    rw [Program.run] at hrun
    rcases he : w.fetchPage p with ⟨_ | f, v⟩
    · rw [he] at hrun hcoherent himage
      exact ih _ hx.1 hcoherent himage hrun
    · have hdata := (hw.fetched he).2.2.2.1
      rw [he] at hrun hcoherent himage
      dsimp only at hrun
      rw [hdata, himg] at hrun
      exact ih _ (hx.2 f) hcoherent himage hrun
  | unpin p dirty k ih =>
    have hkeeps := fun q => hw.unpinPage p dirty q
    refine ih _ (hx.2 _) (hkeeps p).coherent ?_ hrun
    rw [← himg]
    exact funext fun q => (hkeeps q).image
  | put f d mark k => exact hx.elim
  | alloc k => exact hx.elim
  | free p k => exact hx.elim
  | flush p k => exact hx.elim
  | flushAll k => exact hx.elim

end MiniDbms
