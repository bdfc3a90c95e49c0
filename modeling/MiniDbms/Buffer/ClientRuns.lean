import MiniDbms.Buffer.Transparency

/-!
# Runs of the clients of a pool

Clients fetch and create pages, write through the `Page*` they hold, mark pages dirty, give
up their pins, delete pages that nobody holds and flush. `Clients` is the pool with the
handles that are out, the bytes last written to each page and the pages written since
their last dirty mark. In a `LegalRun` only allocated pages are fetched, only held pages
are written, and the last handle of a page is not given up with unmarked bytes.

* `step_inv`: a legal step keeps the relation `Sim` between the pool and what was written;
* `fetch_sees_last_write`: every successful fetch in a legal run yields the bytes last
  written, and `FlushAllPages` brings every page without unmarked bytes to disk;
* `unmarked_bytes_not_flushed`: bytes that are not marked yet are not.
-/

namespace MiniDbms

open Lib BufferPoolManager

/-- A pool with its clients. A handle is a page id and the frame that its `Page*` points to. -/
structure Clients where
  pool : BufferPoolManager
  held : List (PageId × FrameId)
  /-- The bytes last written to a page; zeros since it was created, else those on disk. -/
  lastWritten : PageId → PageData
  /-- Bytes were written after the last dirty mark. -/
  unmarked : PageId → Bool

/-- What a client can do. -/
inductive ClientStep where
  | fetch (p : PageId)
  | create
  | write (p : PageId) (f : FrameId) (data : PageData)
  | setDirty (p : PageId) (f : FrameId)
  | unpin (p : PageId) (f : FrameId) (dirty : Bool)
  | delete (p : PageId)
  | flush (p : PageId)
  | flushAll

namespace Clients

/-- A fresh pool on a file, before any client comes. -/
def start (n : Nat) (d : DiskManager) : Clients where
  pool := BufferPoolManager.new n d
  held := []
  lastWritten := d.pages
  unmarked _ := false

/-- A page whose handles are counted. -/
def pins (c : Clients) (p : PageId) : Nat := c.held.countP fun h => h.1 = p

/-- What the clients know. -/
def view (c : Clients) : ClientView := ⟨c.lastWritten, c.pins, c.unmarked⟩

def step (c : Clients) : ClientStep → Clients
  | .fetch p =>
    match c.pool.fetchPage p with
    | (some f, w) => { c with pool := w, held := (p, f) :: c.held }
    | (none, w) => { c with pool := w }
  | .create =>
    match c.pool.newPage with
    | (some (p, f), w) =>
      { c with
        pool := w
        held := (p, f) :: c.held
        lastWritten := Function.update c.lastWritten p Image.zero }
    | (none, w) => { c with pool := w }
  | .write p f data =>
    { c with
      pool := c.pool.writeBytes f data
      lastWritten := Function.update c.lastWritten p data
      unmarked := Function.update c.unmarked p true }
  | .setDirty p f =>
    { c with pool := c.pool.setDirty f, unmarked := Function.update c.unmarked p false }
  | .unpin p f dirty =>
    { c with
      pool := (c.pool.unpinPage p dirty).2
      held := c.held.erase (p, f)
      unmarked := if dirty then Function.update c.unmarked p false else c.unmarked }
  | .delete p => { c with pool := (c.pool.deletePage p).2 }
  | .flush p => { c with pool := (c.pool.flushPage p).2 }
  | .flushAll => { c with pool := c.pool.flushAllPages }

/-- The discipline that clients keep. -/
def Legal (c : Clients) : ClientStep → Prop
  | .fetch p => c.pool.disk.Allocated p
  | .write p f _ => (p, f) ∈ c.held
  | .setDirty p f => (p, f) ∈ c.held
  | .unpin p f dirty =>
    (p, f) ∈ c.held ∧ (c.pins p = 1 → dirty = true ∨ c.unmarked p = false)
  | .delete p => c.pins p = 0
  | .create | .flush _ | .flushAll => True

instance (c : Clients) : (x : ClientStep) → Decidable (c.Legal x)
  | .fetch p => inferInstanceAs (Decidable (c.pool.disk.Allocated p))
  | .write p f _ | .setDirty p f => inferInstanceAs (Decidable ((p, f) ∈ c.held))
  | .unpin p f _ => inferInstanceAs (Decidable ((p, f) ∈ c.held ∧ (_ → _ ∨ _)))
  | .delete p => inferInstanceAs (Decidable (c.pins p = 0))
  | .create | .flush _ | .flushAll => inferInstanceAs (Decidable True)

def run (c : Clients) (steps : List ClientStep) : Clients := steps.foldl step c

def LegalRun (c : Clients) : List ClientStep → Prop
  | [] => True
  | x :: xs => c.Legal x ∧ LegalRun (c.step x) xs

/-- The pool holds what was written, and every handle points to the frame of its page. -/
structure Inv (c : Clients) : Prop where
  sim : Sim c.pool c.view
  handles : ∀ {p f}, (p, f) ∈ c.held → c.pool.frameOf p = some f

variable {c : Clients} {p q : PageId} {f : FrameId} {w : BufferPoolManager}

theorem start_inv {n : Nat} (hn : 0 < n) {d : DiskManager} (hd : d.faults.Reliable) :
    (start n d).Inv where
  sim :=
    { inv := new_poolInv hn d
      reliable := hd
      allocated := fun h => by simp [start, BufferPoolManager.new, frameOf] at h
      pins := fun h => by simp [start, BufferPoolManager.new, frameOf] at h
      unmapped := fun _ => rfl
      data := fun h => by simp [start, BufferPoolManager.new, frameOf] at h
      onDisk := fun _ _ => rfl
      clean := fun h => by simp [start, BufferPoolManager.new, frameOf] at h
      stale := fun h => by cases h }
  handles h := by cases h

theorem pins_pos (h : (p, f) ∈ c.held) : 0 < c.pins p :=
  List.countP_pos_iff.mpr ⟨(p, f), h, by simp⟩

/-- Handles keep pointing to their frames when pinned pages stay where they are. -/
theorem Inv.handles_of_stays (h : c.Inv) (hs : Stays c.pool c.view w) {p : PageId} {f : FrameId}
    (hp : (p, f) ∈ c.held) : w.frameOf p = some f :=
  hs.frames (h.handles hp) (pins_pos hp)

theorem pins_cons (c : Clients) (p : PageId) (f : FrameId) :
    (fun q => ((p, f) :: c.held).countP fun h => decide (h.1 = q)) =
      Function.update c.pins p (c.pins p + 1) := by
  funext q
  by_cases hq : q = p
  · subst hq
    simp [pins]
  · simp [pins, hq, Ne.symm hq]

theorem pins_erase (h : (p, f) ∈ c.held) :
    (fun q => (c.held.erase (p, f)).countP fun h => decide (h.1 = q)) =
      Function.update c.pins p (c.pins p - 1) := by
  have hsplit := pins_cons { c with held := c.held.erase (p, f) } p f
  funext q
  have hcount : c.pins q = ((p, f) :: c.held.erase (p, f)).countP fun h => decide (h.1 = q) :=
    (List.perm_cons_erase h).countP_eq _
  rw [congrFun hsplit q] at hcount
  by_cases hq : q = p
  · subst hq
    rw [Function.update_self] at hcount
    rw [Function.update_self, hcount]
    rfl
  · rw [Function.update_of_ne hq] at hcount
    rw [Function.update_of_ne hq, hcount]
    rfl

/-- A legal step keeps the relation between the pool and what was written. -/
theorem step_inv (h : c.Inv) {x : ClientStep} (hx : c.Legal x) : (c.step x).Inv := by
  cases x with
  | fetch p =>
    obtain ⟨r, w, he, hst, -, hr⟩ := h.sim.fetchPage hx
    simp only [step, he]
    cases r with
    | none => exact ⟨hr.1, fun hp => h.handles_of_stays hst hp⟩
    | some f =>
      obtain ⟨hf, -, hsim⟩ := hr
      refine ⟨?_, fun {q g} hq => ?_⟩
      · show Sim w ⟨_, fun q => ((p, f) :: c.held).countP _, _⟩
        rw [pins_cons]
        exact hsim
      · rcases List.mem_cons.mp hq with hq | hq
        · cases hq
          exact hf
        · exact h.handles_of_stays hst hq
  | create =>
    obtain ⟨r, w, he, hst, hr⟩ := h.sim.newPage
    simp only [step, he]
    rcases r with _ | ⟨p, f⟩
    · exact ⟨hr.2.1, fun hp => h.handles_of_stays hst hp⟩
    · obtain ⟨-, -, hpins, -, hf, -, hsim⟩ := hr
      refine ⟨?_, fun {q g} hq => ?_⟩
      · show Sim w ⟨_, fun q => ((p, f) :: c.held).countP _, _⟩
        rw [pins_cons, show c.pins p = 0 from hpins]
        exact hsim
      · rcases List.mem_cons.mp hq with hq | hq
        · cases hq
          exact hf
        · exact h.handles_of_stays hst hq
  | write p f data =>
    exact ⟨h.sim.write (h.handles hx) (pins_pos hx) data, fun hp => h.handles hp⟩
  | setDirty p f => exact ⟨h.sim.setDirty (h.handles hx), fun hp => h.handles hp⟩
  | unpin p f dirty =>
    obtain ⟨w, he, hsim, hst, -⟩ := h.sim.unpinPage (pins_pos hx.1) _ hx.2
    simp only [step, he]
    refine ⟨?_, fun hp => h.handles_of_stays hst (List.mem_of_mem_erase hp)⟩
    show Sim w ⟨_, fun q => (c.held.erase (p, f)).countP _, _⟩
    rw [pins_erase hx.1]
    exact hsim
  | delete p =>
    obtain ⟨b, w, he, hsim, hst, -⟩ := h.sim.deletePage hx
    simp only [step, he]
    exact ⟨hsim, fun hp => h.handles_of_stays hst hp⟩
  | flush p =>
    exact ⟨h.sim.flushPage p, fun hp => h.handles_of_stays (flushPage_flushed h.sim.inv p).stays hp⟩
  | flushAll =>
    exact ⟨h.sim.flushAllPages.1,
      fun hp => h.handles_of_stays (flushAllPages_flushed h.sim.inv).stays hp⟩

theorem run_inv (h : c.Inv) {steps : List ClientStep} (hl : c.LegalRun steps) :
    (c.run steps).Inv := by
  induction steps generalizing c with
  | nil => exact h
  | cons x xs ih => exact ih (step_inv h hl.1) hl.2

/-- After any legal run, a successful fetch of an allocated page yields the bytes last written
to it, and after `FlushAllPages` every resident page without unmarked bytes is on disk as it is
in its frame. -/
theorem fetch_sees_last_write {n : Nat} (hn : 0 < n) {d : DiskManager} (hd : d.faults.Reliable)
    {steps : List ClientStep} (hl : (start n d).LegalRun steps) :
    let c := (start n d).run steps
    (∀ p f w, c.pool.disk.Allocated p → c.pool.fetchPage p = (some f, w) →
        (w.pages f).data = c.lastWritten p) ∧
      ∀ p f, c.pool.flushAllPages.frameOf p = some f → c.unmarked p = false →
        c.pool.flushAllPages.disk.pages p = (c.pool.flushAllPages.pages f).data := by
  intro c
  have h : c.Inv := run_inv (start_inv hn hd) hl
  refine ⟨fun p f w ha he => ?_, fun p f hp hm => ?_⟩
  · obtain ⟨r, w', he', -, -, hr⟩ := h.sim.fetchPage ha
    cases he.symm.trans he'
    exact hr.2.1
  · obtain ⟨hsim, hfl, hdisk⟩ := h.sim.flushAllPages
    rw [hfl.frameOf] at hp
    rw [hdisk p f hp hm, hsim.data ((hfl.frameOf p).trans hp)]

/-- Two pages written in a pool of one frame: the second evicts the first. -/
def writeTwoPages : List ClientStep :=
  [.create, .write 1 0 fun _ => 1, .unpin 1 0 true, .create, .write 2 0 fun _ => 2, .unpin 2 0 true]

theorem writeTwoPages_legal :
    (start 1 (DiskManager.newFile DiskFaults.none)).LegalRun writeTwoPages :=
  ⟨trivial, by decide, by decide, trivial, by decide, by decide, trivial⟩

/-- The fetch of the evicted page evicts the other one, and a flush writes that one. -/
theorem fetch_sees_last_write_evicted :
    let c := (start 1 (DiskManager.newFile DiskFaults.none)).run writeTwoPages
    c.pool.frameOf 1 = none ∧
      (∃ w, c.pool.fetchPage 1 = (some 0, w) ∧ (w.pages 0).data = fun _ => 1) ∧
      c.pool.flushAllPages.frameOf 2 = some 0 ∧
      c.pool.flushAllPages.disk.pages 2 = (c.pool.flushAllPages.pages 0).data := by
  intro c
  obtain ⟨hfetch, hflush⟩ :=
    fetch_sees_last_write Nat.one_pos DiskFaults.none_reliable writeTwoPages_legal
  have hresult : c.pool.fetchPage 1 = (some 0, (c.pool.fetchPage 1).2) :=
    Prod.ext (show (c.pool.fetchPage 1).1 = some 0 by decide) rfl
  refine ⟨by decide, ⟨_, hresult, ?_⟩, by decide, hflush 2 0 (by decide) (by decide)⟩
  exact hfetch 1 0 _ (by decide) hresult

/-- A page that is created in a pool of one frame and written, but not marked yet. -/
def createAndWrite : List ClientStep := [.create, .write 1 0 fun _ => 1]

/-- `FlushAllPages` leaves the zeros of the allocation on disk when the bytes written since are
not marked. -/
theorem unmarked_bytes_not_flushed :
    (start 1 (DiskManager.newFile DiskFaults.none)).LegalRun createAndWrite ∧
      let w := ((start 1 (DiskManager.newFile DiskFaults.none)).run
        createAndWrite).pool.flushAllPages
      w.frameOf 1 = some 0 ∧ w.disk.pages 1 ≠ (w.pages 0).data := by
  refine ⟨⟨trivial, by decide, trivial⟩, by decide, fun h => ?_⟩
  have hbyte := congrFun h ⟨0, by decide⟩
  revert hbyte
  decide

end Clients

end MiniDbms
