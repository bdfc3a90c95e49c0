import MiniDbms.Storage.DiskManager

/-!
# The page allocator over whole runs

The set of free pages is kept in memory only, and the constructor reads it off the file
again: a page of zeros is free. `Derived` says that the two views agree as far as they
can at every moment, and it survives every call. It is an equality of the two views as
soon as no allocated page is a page of zeros, which is when the file may be closed.
-/

namespace MiniDbms

open Lib

namespace DiskManager

/-- Every page in use has a byte that is not zero. Page 0 is not looked at: it is never
handed out, and the scan of the constructor begins after it. -/
def NoneBlank (d : DiskManager) : Prop :=
  ∀ p, 0 < p.toInt → d.Allocated p → ∃ i, i < pageSize ∧ (d.pages p).get i ≠ 0

/-- The managers that any sequence of calls leads to, over any file and without a fault. -/
inductive Reached : DiskManager → Prop
  | opened {file : PageId → PageData} {n : Nat} {hn : n ≤ maxPages} {d : DiskManager} :
      openFile file n hn DiskFaults.none = some d → Reached d
  | allocate {d : DiskManager} : Reached d → Reached d.allocatePage.2
  | deallocate {d : DiskManager} (p : PageId) : Reached d → Reached (d.deallocatePage p)
  | write {d : DiskManager} {p : PageId} (data : PageData) :
      Reached d → d.Allocated p → Reached (d.writePage p data).2
  | reopen {d d' : DiskManager} : Reached d → d.NoneBlank →
      openFile d.pages d.numPages d.numPages_le DiskFaults.none = some d' → Reached d'

/-- The free set in memory holds pages of zeros only. -/
structure Derived (d : DiskManager) : Prop where
  faults : d.faults = DiskFaults.none
  blank : ∀ p ∈ d.freePages, d.pages p = Image.zero

variable {d d' : DiskManager} {p : PageId}

theorem isZeroPage_iff {data : PageData} : isZeroPage data = true ↔ data = Image.zero := by
  simp only [isZeroPage, List.all_eq_true, List.mem_range, beq_iff_eq]
  constructor
  · intro h
    apply Image.ext_get
    intro i hi
    rw [h i hi, Image.get_zero]
  · intro h i _
    rw [h, Image.get_zero]

theorem Derived.reliable (h : Derived d) : d.faults.Reliable := by
  rw [h.faults]
  exact DiskFaults.none_reliable

/-! ## One call -/

theorem Derived.open {file : PageId → PageData} {n : Nat} {hn : n ≤ maxPages}
    (h : openFile file n hn DiskFaults.none = some d) : Derived d := by
  unfold openFile at h
  split at h
  · rw [if_neg (by simp [DiskFaults.none])] at h
    cases h
    exact ⟨rfl, fun p hp => absurd hp List.not_mem_nil⟩
  · rw [if_neg (by simp [DiskFaults.none])] at h
    cases h
    refine ⟨rfl, fun p hp => ?_⟩
    exact isZeroPage_iff.mp (List.mem_filter.mp hp).2

/-- The id handed out is the least one from 1 on that is not allocated. -/
theorem Allocates.least (h : Allocates d p d') {q : PageId} (hq : 0 < q.toInt)
    (hfree : ¬ d.Allocated q) : p.toInt ≤ q.toInt := by
  rw [h.id, nextPageId]
  cases hfirst : d.freePages with
  | nil =>
    rw [toInt_ofNat_of_le d.numPages_le]
    by_contra hlt
    apply hfree
    refine ⟨by omega, by omega, ?_⟩
    rw [hfirst]
    exact List.not_mem_nil
  | cons first rest =>
    have hsorted := d.free_sorted
    rw [hfirst] at hsorted
    have hmem : first ∈ d.freePages := by rw [hfirst]; exact List.mem_cons_self
    have hrange := d.free_range first hmem
    -- an id outside the file is larger than any free one
    by_cases hin : q ∈ d.freePages
    · rw [hfirst] at hin
      rcases List.mem_cons.mp hin with rfl | hin
      · exact le_refl _
      · exact le_of_lt ((List.pairwise_cons.mp hsorted).1 q hin)
    · have hout : ¬ q.toInt < d.numPages := fun hlt => hfree ⟨by omega, hlt, hin⟩
      show first.toInt ≤ q.toInt
      omega

theorem freePages_allocatePage (d : DiskManager) :
    d.allocatePage.2.freePages ⊆ d.freePages := by
  intro q hq
  unfold allocatePage at hq
  split at hq
  · exact hq
  · split at hq
    · rename_i rest hfirst
      rw [hfirst]
      exact List.mem_cons_of_mem _ hq
    · split at hq
      · exact hq
      · exact hq

theorem Derived.allocate (h : Derived d) : Derived d.allocatePage.2 := by
  have hsub := freePages_allocatePage d
  rcases ha : d.allocatePage with ⟨r, d'⟩
  rw [ha] at hsub
  cases r with
  | none =>
    obtain ⟨rfl, -⟩ := allocatePage_none ha
    exact ⟨h.faults, h.blank⟩
  | some p =>
    have hall := allocatePage_some ha
    refine ⟨hall.faults.trans h.faults, fun q hq => ?_⟩
    show d'.pages q = Image.zero
    rw [hall.pages, Function.update_apply]
    split
    · rfl
    · exact h.blank q (hsub hq)

theorem Derived.deallocate (h : Derived d) (p : PageId) : Derived (d.deallocatePage p) := by
  by_cases hp : 0 < p.toInt ∧ d.Allocated p
  · have hdealloc := deallocatePage_allocated h.reliable hp.1 hp.2
    refine ⟨hdealloc.faults.trans h.faults, fun q hq => ?_⟩
    rw [hdealloc.pages, Function.update_apply]
    split
    · rfl
    · rename_i hne
      apply h.blank
      -- a page that has just become free is `p`
      by_contra hused
      have hrange := (d.deallocatePage p).free_range q hq
      rw [hdealloc.numPages] at hrange
      have hafter := (hdealloc.allocated q).mpr ⟨hne, by omega, hrange.2, hused⟩
      exact hafter.2.2 hq
  · rw [deallocatePage_of_not hp]
    exact h

theorem Derived.write (h : Derived d) (hp : d.Allocated p) (data : PageData) :
    Derived (d.writePage p data).2 := by
  rw [writePage_reliable h.reliable hp.1 hp.2.1]
  refine ⟨h.faults, fun q hq => ?_⟩
  have hne : q ≠ p := by
    intro he
    subst he
    exact hp.2.2 hq
  show Function.update d.pages p data q = Image.zero
  rw [Function.update_of_ne hne]
  exact h.blank q hq

theorem Reached.derived (h : Reached d) : Derived d := by
  induction h with
  | opened ho => exact Derived.open ho
  | allocate _ ih => exact ih.allocate
  | deallocate p _ ih => exact ih.deallocate p
  | write data _ hp ih => exact ih.write hp data
  | reopen _ _ ho => exact Derived.open ho

/-! ## Closing and opening again -/

/-- `d'` is `d` after the file was closed and opened again. -/
structure Reopens (d d' : DiskManager) : Prop where
  pages : d'.pages = d.pages
  numPages : d'.numPages = d.numPages
  free : ∀ p, p ∈ d'.freePages ↔ p ∈ d.freePages
  allocated : ∀ p, d'.Allocated p ↔ d.Allocated p

theorem Derived.reopens (h : Derived d) (hnone : d.NoneBlank) :
    ∃ d', openFile d.pages d.numPages d.numPages_le DiskFaults.none = some d' ∧
      Reopens d d' := by
  unfold openFile
  have hpos := d.numPages_pos
  rw [dif_neg (by omega), if_neg (by simp [DiskFaults.none])]
  have hfree : ∀ p, p ∈ (dataPageIds d.numPages).filter (fun p => isZeroPage (d.pages p)) ↔
      p ∈ d.freePages := by
    intro p
    rw [List.mem_filter, mem_dataPageIds d.numPages_le, isZeroPage_iff]
    constructor
    · intro hp
      by_contra hused
      obtain ⟨i, -, hi⟩ := hnone p hp.1.1 ⟨by omega, hp.1.2, hused⟩
      rw [hp.2, Image.get_zero] at hi
      exact hi rfl
    · intro hp
      exact ⟨d.free_range p hp, h.blank p hp⟩
  refine ⟨_, rfl, rfl, rfl, hfree, fun p => ?_⟩
  simp only [Allocated, hfree]

/-! ## Every reached manager -/

/-- What the calls of a manager do. -/
structure Allocator (d : DiskManager) : Prop where
  allocate : ∀ p d', d.allocatePage = (some p, d') →
    1 ≤ p.toInt ∧ ¬ d.Allocated p ∧ (∀ q : PageId, 1 ≤ q.toInt → ¬ d.Allocated q → p ≤ q) ∧
      (d'.readPage p).1 = .ok Image.zero ∧ (∀ q, d'.Allocated q ↔ q = p ∨ d.Allocated q) ∧
      ∀ q, d.Allocated q → d'.pages q = d.pages q
  /-- Only a file that can neither reuse a page nor grow fails an allocation. -/
  full : ∀ d', d.allocatePage = (none, d') →
    d.numPages = maxPages ∧
      (∀ q : PageId, 0 ≤ q.toInt → q.toInt < d.numPages → d.Allocated q) ∧
      d'.pages = d.pages ∧ ∀ q, d'.Allocated q ↔ d.Allocated q
  deallocate : ∀ p : PageId, 1 ≤ p.toInt → d.Allocated p →
    (∀ q, (d.deallocatePage p).Allocated q ↔ q ≠ p ∧ d.Allocated q) ∧
      ∀ q, q ≠ p → (d.deallocatePage p).pages q = d.pages q
  ignored : ∀ p : PageId, p.toInt ≤ 0 ∨ p ∈ d.freePages ∨ (d.numPages : Int) ≤ p.toInt →
    d.deallocatePage p = d
  write : ∀ (p : PageId) data, d.Allocated p → ∃ d', d.writePage p data = (.ok (), d') ∧
    (d'.readPage p).1 = .ok data ∧ (∀ q, d'.Allocated q ↔ d.Allocated q) ∧
      ∀ q, q ≠ p → d'.pages q = d.pages q
  reopen : d.NoneBlank →
    ∃ d', openFile d.pages d.numPages d.numPages_le DiskFaults.none = some d' ∧ Reopens d d'

theorem readPage_reliable (hd : d.faults.Reliable) (h0 : 0 ≤ p.toInt)
    (hlt : p.toInt < d.numPages) : d.readPage p = (.ok (d.pages p), d.tick) := by
  unfold readPage
  rw [if_neg (by omega), if_neg (by omega), hd.read]
  rfl

theorem Derived.allocator (h : Derived d) : Allocator d where
  allocate p d' ha := by
    have hall := allocatePage_some ha
    have hd' : Derived d' := by
      have := h.allocate
      rwa [ha] at this
    have hp : d'.Allocated p := (hall.allocated p).mpr (.inl rfl)
    refine ⟨hall.pos, hall.fresh, fun q hq hfree => ?_, ?_, hall.allocated, fun q hq => ?_⟩
    · exact Int32.le_iff_toInt_le.mpr (hall.least hq hfree)
    · rw [readPage_reliable hd'.reliable hp.1 hp.2.1, hall.pages, Function.update_self]
    · rw [hall.pages, Function.update_of_ne]
      intro he
      subst he
      exact hall.fresh hq
  full d' ha := by
    obtain ⟨rfl, hcannot⟩ := allocatePage_none ha
    rcases hcannot with ⟨n, hf⟩ | ⟨hnil, hfull⟩
    · rw [h.faults] at hf
      cases hf
    · refine ⟨hfull, fun p h0 hlt => ⟨h0, hlt, ?_⟩, rfl, fun q => Iff.rfl⟩
      rw [hnil]
      exact List.not_mem_nil
  deallocate p hp ha := by
    have hdealloc := deallocatePage_allocated h.reliable hp ha
    refine ⟨hdealloc.allocated, fun q hq => ?_⟩
    rw [hdealloc.pages, Function.update_of_ne hq]
  ignored p hp := by
    apply deallocatePage_of_not
    intro hnot
    rcases hp with hp | hp | hp
    · omega
    · exact hnot.2.2.2 hp
    · have := hnot.2.2.1
      omega
  write p data ha := by
    refine ⟨_, writePage_reliable h.reliable ha.1 ha.2.1 data, ?_, fun q => Iff.rfl, fun q hq => ?_⟩
    · rw [readPage_reliable (d := (d.setPage p data).tick) h.reliable ha.1 ha.2.1]
      show Except.ok (Function.update d.pages p data p) = _
      rw [Function.update_self]
    · exact Function.update_of_ne hq _ _
  reopen hnone := h.reopens hnone

/-- Every call on every manager that a run leads to does what an allocator has to do. -/
theorem page_allocator (h : Reached d) : Allocator d :=
  h.derived.allocator

/-- Page 1 is written, page 2 is given back, and the file is closed and opened again. -/
theorem page_allocator_reopened :
    let d₀ := newFile DiskFaults.none
    let d₁ := (d₀.allocatePage.2.writePage 1 ((Image.zero : PageData).writeNat 0 1 7)).2
    let d₂ := d₁.allocatePage.2.deallocatePage 2
    ∃ d', Reopens d₂ d' ∧ Allocator d' := by
  have h₀ : Reached (newFile DiskFaults.none) := .opened (openFile_empty DiskFaults.none rfl)
  have h₁ := h₀.allocate.write (p := 1) ((Image.zero : PageData).writeNat 0 1 7) (by decide)
  have h₂ := h₁.allocate.deallocate 2
  intro d₀ d₁ d₂
  have hnone : d₂.NoneBlank := by
    intro p hp ha
    have hone : p = 1 := by
      have hle : d₂.numPages = 3 := by decide +kernel
      have hfree : d₂.freePages = [2] := by decide +kernel
      have hlt := ha.2.1
      have hnot := ha.2.2
      rw [hfree, List.mem_singleton, ← Int32.toInt_inj] at hnot
      rw [← Int32.toInt_inj]
      rw [hle] at hlt
      have : (2 : PageId).toInt = 2 := by decide
      have : (1 : PageId).toInt = 1 := by decide
      omega
    subst hone
    exact ⟨0, by decide, by decide +kernel⟩
  obtain ⟨d', hopen, hre⟩ := h₂.derived.reopens hnone
  exact ⟨d', hre, page_allocator (h₂.reopen hnone hopen)⟩

end DiskManager

end MiniDbms
