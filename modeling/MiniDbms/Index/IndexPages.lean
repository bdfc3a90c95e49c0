import MiniDbms.Buffer.PinDiscipline
import MiniDbms.Buffer.PoolImages
import MiniDbms.Index.HashIndexRuns

/-!
# The pages of an index

`IndexPage w header q`: the page `q` is the header page, or the directory and the overflow links in
the pool lead to it. `Destroy` frees exactly these pages, after any calls on a new index
(`destroy_frees`).
-/

namespace MiniDbms

open Lib PagedProgram Program HashIndexBucketPage

namespace HashIndex

/-- A page that the directory or an overflow link leads to. -/
inductive BucketPage (w : BufferPoolManager) (header : PageId) : PageId → Prop
  | primary {i : Nat} {p : PageId}
      (h : HashIndexHeaderPage.getBucketPageId (Page.view header (w.image header)) i = .ok p)
      (hne : p ≠ invalidPageId) : BucketPage w header p
  | overflow {p q : PageId} (hp : BucketPage w header p)
      (h : getOverflowPageId (Page.view p (w.image p)) = q) (hne : q ≠ invalidPageId) :
      BucketPage w header q

/-- The header page and the bucket pages of an index, as its bytes tell. -/
def IndexPage (w : BufferPoolManager) (header q : PageId) : Prop :=
  q = header ∨ BucketPage w header q

section

variable {ext : PageId → Nat} {w w' : BufferPoolManager} {h : Pages} {header p q : PageId}
  {b : Buckets}

theorem mem_pages_iff (hw : Holds ext w h) (hi : IndexHolds h header b) :
    q ∈ b.pages header ↔ IndexPage w header q := by
  obtain ⟨d, directory, hd, hs, hchains⟩ := hi.directory
  have hheader : HashIndexHeaderPage.Stores (Page.view header (w.image header)).data b.count
      directory := by
    rw [hw.image hd]
    exact hs
  have hlink : ∀ {p next s} {d : PageData}, h.page p = some d → Stores d next s.length s →
      getOverflowPageId (Page.view p (w.image p)) = next := by
    intro p next s d hd hs
    rw [hw.image hd]
    have hs : Stores (Page.view p d).data next s.length s := hs
    exact hs.getOverflowPageId
  rw [Buckets.mem_pages, IndexPage]
  apply or_congr_right
  constructor
  · rintro ⟨i, hlt, hq⟩
    refine (hchains i hlt).forall_mem (by decide) (fun hne => ?_)
      (fun p d next s hp hd hs hne => ?_) q hq
    · exact .primary (hheader.getBucketPageId hlt) hne
    · exact .overflow hp (hlink hd hs) hne
  · intro hq
    induction hq with
    | @primary i p h hne =>
      by_cases hlt : i < b.count
      · rw [hheader.getBucketPageId hlt] at h
        cases h
        exact ⟨i, hlt, (hchains i hlt).first_mem hne⟩
      · rw [HashIndexHeaderPage.getBucketPageId, hheader.isInitialized, hheader.getBucketCount,
          if_neg (by decide), if_pos (Nat.le_of_not_lt hlt)] at h
        cases h
    | @overflow p q _ h hne ih =>
      obtain ⟨i, hlt, hp⟩ := ih
      obtain ⟨d, next, s, hd, hs, hin⟩ := (hchains i hlt).next_mem hp
      rw [hlink hd hs] at h
      exact ⟨i, hlt, h ▸ hin (h ▸ hne)⟩

theorem Holds.pins (hw : Holds ext w h) (p : PageId) : w.pins p = ext p := by
  obtain ⟨r, hr⟩ := hw
  cases hf : w.frameOf p with
  | some f => exact (BufferPoolManager.pins_of_frameOf hf).trans (hr.sim.pins hf)
  | none =>
    have hzero : ext p = 0 := hr.sim.unmapped hf
    rw [BufferPoolManager.pins, hf, hzero]

/-- A new index, and what calls make of it. -/
inductive Made (bucketCount : Nat) (w₀ : BufferPoolManager) (header : PageId) :
    BufferPoolManager → Prop
  | create {w : BufferPoolManager} (hrun : (create bucketCount).run w₀ = some (.ok header, w)) :
      Made bucketCount w₀ header w
  | call {w w' : BufferPoolManager} {r : IndexResult} (op : IndexOp)
      (hmade : Made bucketCount w₀ header w) (hrun : (op.exec header).run w = some (r, w')) :
      Made bucketCount w₀ header w'

theorem Made.holds {w₀ : BufferPoolManager} {bucketCount : Nat} (hw : Holds ext w₀ h)
    (hm : Made bucketCount w₀ header w) : ∃ h' b, Holds ext w h' ∧ IndexHolds h' header b := by
  induction hm with
  | create hrun =>
    by_cases hcount : bucketCount = 0 ∨ HashIndexHeaderPage.maxBucketCount < bucketCount
    · rw [HashIndex.create, if_pos hcount] at hrun
      cases hrun
    · obtain ⟨hpos, hle⟩ := not_or.mp hcount
      obtain ⟨r, w', h', hrun', hr, hw', -⟩ := run_of_runs hw
        (create_runs (Nat.pos_of_ne_zero hpos) (Nat.le_of_not_lt hle))
      rw [hrun] at hrun'
      cases hrun'
      rcases hr with ⟨n, d, hn, -, -, hi⟩ | ⟨e, he, -⟩
      · cases hn
        exact ⟨h', _, hw', hi⟩
      · cases he
  | call op _ hrun ih =>
    obtain ⟨h', b, hw', hi⟩ := ih
    obtain ⟨r, w', h'', hrun', ⟨b', -, hi'⟩, hw'', -⟩ := run_of_runs hw' (exec_runs hi op)
    rw [hrun] at hrun'
    cases hrun'
    exact ⟨h'', b', hw'', hi'⟩

/-- After any calls on a new index none of whose pages is pinned, `Destroy` frees exactly its pages,
and the bytes of all others stay. -/
theorem destroy_frees {w₀ : BufferPoolManager} {bucketCount : Nat} (hw : Holds ext w₀ h)
    (hm : Made bucketCount w₀ header w) (hpins : ∀ q, IndexPage w header q → w.pins q = 0) :
    ∃ w', (destroy header).run w = some (.ok (), w') ∧
      (∀ p, w'.disk.Allocated p ↔ w.disk.Allocated p ∧ ¬ IndexPage w header p) ∧
      ∀ p, w'.disk.Allocated p → w'.image p = w.image p := by
  obtain ⟨h', b, hw', hi⟩ := hm.holds hw
  have hext : ∀ q ∈ b.pages header, ext q = 0 := by
    intro q hq
    rw [← Holds.pins hw']
    exact hpins q ((mem_pages_iff hw' hi).mp hq)
  obtain ⟨r, w', h'', hrun, ⟨rfl, -, hpage⟩, hw'', -⟩ := run_of_runs hw' (destroy_runs hi hext)
  have halloc : ∀ p, w'.disk.Allocated p ↔ w.disk.Allocated p ∧ ¬ IndexPage w header p := by
    intro p
    rw [← hw''.allocated, hpage, ← hw'.allocated, ← mem_pages_iff hw' hi]
    split
    · rename_i hin
      exact ⟨fun hne => absurd rfl hne, fun hc => absurd hin hc.2⟩
    · rename_i hnot
      exact ⟨fun hne => ⟨hne, hnot⟩, And.left⟩
  refine ⟨w', hrun, halloc, fun p hp => ?_⟩
  obtain ⟨d, hd⟩ := Option.ne_none_iff_exists'.mp ((hw''.allocated p).mpr hp)
  have hold : h'.page p = some d := by
    rw [hpage, if_neg fun hin => ((halloc p).mp hp).2 ((mem_pages_iff hw' hi).mp hin)] at hd
    exact hd
  rw [hw''.image hd, hw'.image hold]

/-- What the directory page shows. -/
def bucketPages (w : BufferPoolManager) (header : PageId) (bucketCount : Nat) :
    List (Option PageId) :=
  (List.range bucketCount).map fun i =>
    (HashIndexHeaderPage.getBucketPageId (Page.view header (w.image header)) i).toOption

/-- `Destroy` of an index with pairs in two buckets frees the header page and the pages of both. -/
theorem destroy_frees_buckets : ∃ w w',
    Made 2 (.new 1 (.newFile DiskFaults.none)) 1 w ∧ BucketPage w 1 2 ∧ BucketPage w 1 3 ∧
      (destroy 1).run w = some (.ok (), w') ∧
      (∀ p, w'.disk.Allocated p ↔ w.disk.Allocated p ∧ ¬ IndexPage w 1 p) ∧
      ¬ w'.disk.Allocated 2 ∧ ¬ w'.disk.Allocated 3 := by
  have hnew : Holds (fun _ => 0) (.new 1 (.newFile DiskFaults.none)) _ :=
    holds_new Nat.one_pos DiskFaults.none_reliable
  have heval : ((create 2).run (.new 1 (.newFile DiskFaults.none))).bind (fun r₀ =>
      (((IndexOp.insert [97] ⟨1, 0⟩).exec 1).run r₀.2).bind fun r₁ =>
      (((IndexOp.insert [97] ⟨1, 1⟩).exec 1).run r₁.2).bind fun r₂ =>
      (((IndexOp.insert [98] ⟨1, 2⟩).exec 1).run r₂.2).map fun r₃ =>
        (r₀.1, bucketPages r₃.2 1 2)) = some (.ok 1, [some 2, some 3]) := by
    decide +kernel
  obtain ⟨⟨r₀, w₀⟩, hcreate, heval⟩ := Option.bind_eq_some_iff.mp heval
  obtain ⟨⟨r₁, w₁⟩, hfirst, heval⟩ := Option.bind_eq_some_iff.mp heval
  obtain ⟨⟨r₂, w₂⟩, hsecond, heval⟩ := Option.bind_eq_some_iff.mp heval
  obtain ⟨⟨r₃, w⟩, hthird, heval⟩ := Option.map_eq_some_iff.mp heval
  obtain ⟨hr, hpages⟩ := Prod.mk.inj heval
  have hr : r₀ = .ok 1 := hr
  subst hr
  have hmade : Made 2 (.new 1 (.newFile DiskFaults.none)) 1 w :=
    .call _ (.call _ (.call _ (.create hcreate) hfirst) hsecond) hthird
  have hbucket : ∀ p, some p ∈ bucketPages w 1 2 → p ≠ invalidPageId → BucketPage w 1 p := by
    intro p hin hne
    obtain ⟨i, -, hi⟩ := List.mem_map.mp hin
    cases hread : HashIndexHeaderPage.getBucketPageId (Page.view 1 (w.image 1)) i with
    | error e =>
      rw [hread] at hi
      cases hi
    | ok q =>
      rw [hread] at hi
      cases hi
      exact .primary hread hne
  have hpages : bucketPages w 1 2 = [some 2, some 3] := hpages
  rw [hpages] at hbucket
  have htwo : BucketPage w 1 2 := hbucket 2 (by simp) (by decide)
  have hthree : BucketPage w 1 3 := hbucket 3 (by simp) (by decide)
  obtain ⟨h, b, hw, hi⟩ := hmade.holds hnew
  obtain ⟨w', hdestroy, halloc, -⟩ := destroy_frees hnew hmade fun q _ => Holds.pins hw q
  exact ⟨w, w', hmade, htwo, hthree, hdestroy, halloc, fun ha => ((halloc 2).mp ha).2 (.inr htwo),
    fun ha => ((halloc 3).mp ha).2 (.inr hthree)⟩

end

end HashIndex

end MiniDbms
