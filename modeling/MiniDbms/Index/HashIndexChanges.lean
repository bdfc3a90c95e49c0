import MiniDbms.Index.HashIndexContents

/-!
# Hash indexes as parts of a database

An index owns its header page and its bucket pages. `Changes` says what an operation on one
bucket does to the index and to the pages. `insert_changes` and `remove_changes` describe the
operations with it; the pair that a removal has taken out of a bucket leaves room there
(`HasSpace`), so it can be put back without a new page.
-/

namespace MiniDbms

open Lib PagedProgram Program HashIndexBucketPage

namespace HashIndex

/-- Some page of the bucket of a key has room for one more entry. -/
def HasSpace (b : Buckets) (key : Bytes) : Prop :=
  ∃ x ∈ b.chain (bucketOf b.count key), x.2.length < entryCapacity

/-- An operation on the bucket `i`. -/
structure Changes (h : Pages) (header : PageId) (b : Buckets) (i : Nat) (h' : Pages)
    (b' : Buckets) : Prop where
  holds : IndexHolds h' header b'
  footprint : Footprint h (b.pages header) h' (b'.pages header)
  count : b'.count = b.count
  same : ∀ j, j ≠ i → b'.chain j = b.chain j

section

variable {h h' : Pages} {header : PageId} {b b' : Buckets} {key other : Bytes} {rid : RecordID}
  {ext : PageId → Nat}

/-- The room in the other buckets stays. -/
theorem Changes.hasSpace (hc : Changes h header b (bucketOf b.count key) h' b')
    (hne : bucketOf b.count other ≠ bucketOf b.count key) (hs : HasSpace b other) :
    HasSpace b' other := by
  unfold HasSpace
  rw [hc.count, hc.same _ hne]
  exact hs

theorem hasSpace_congr (he : bucketOf b.count other = bucketOf b.count key) (hs : HasSpace b key) :
    HasSpace b other := by
  unfold HasSpace
  rw [he]
  exact hs

theorem changes_refl (hi : IndexHolds h header b) (hpage : h'.page = h.page) (i : Nat) :
    Changes h header b i h' b where
  holds := hi.congr fun _ _ => by rw [hpage]
  footprint := .of_page_eq hpage
  count := rfl
  same _ _ := rfl

theorem changes_setChain {i : Nat} {chain : BucketChain}
    (hi : IndexHolds h' header (b.setChain i chain))
    (hf : Footprint h (b.pages header) h' ((b.setChain i chain).pages header)) :
    Changes h header b i h' (b.setChain i chain) where
  holds := hi
  footprint := hf
  count := rfl
  same j hj := by rw [Buckets.chain_setChain, if_neg hj]

/-- `Insert` adds a pair; only when the bucket has no room can it fail, and then it changes
nothing. -/
theorem insert_changes {e : Entry} (hi : IndexHolds h header b) (he : ValidPair e) :
    Runs (poolContext ext) (insert header e.1 e.2) (fun r h' =>
      (r = .ok () ∧ ∃ b', Changes h header b (bucketOf b.count e.1) h' b' ∧
        b'.pairs = Insert.insert e b.pairs) ∨
      (∃ err, r = .error err ∧ err.code = .outOfMemory ∧ h'.page = h.page ∧
        ¬ HasSpace b e.1)) h := by
  refine (insert_runs hi he).mono fun r h' hr => ?_
  cases hr with
  | present hin =>
    have hmem : e ∈ b.pairs := hin
    exact .inl ⟨rfl, b, changes_refl hi rfl _, (Set.insert_eq_of_mem hmem).symm⟩
  | done _ chain hnot hchain holds hfailed hframe =>
    exact .inl ⟨rfl, _, changes_setChain holds hframe, pairs_of_inserted hchain⟩
  | full err hnot hfull hcode =>
    refine .inr ⟨err, rfl, hcode, rfl, ?_⟩
    rintro ⟨x, hx, hlt⟩
    exact hfull x hx hlt

theorem matches_some {e : Entry} : Matches key (some rid) e ↔ e = (key, rid) := by
  unfold Matches
  constructor
  · rintro ⟨rfl, hv⟩
    exact Prod.ext rfl (hv rid rfl)
  · rintro rfl
    exact ⟨rfl, fun v hv => Option.some.inj hv⟩

/-- A page holds at most as many entries as it has room for. -/
theorem IndexHolds.length_le (hi : IndexHolds h header b) {i : Nat} (hlt : i < b.count)
    {x : PageId × List Entry} (hx : x ∈ b.chain i) : x.2.length ≤ entryCapacity := by
  obtain ⟨d, directory, -, -, hc⟩ := hi.directory
  obtain ⟨q, s⟩ := x
  obtain ⟨-, d, next, -, hs⟩ := (hc i hlt).node_of_mem hx
  exact hs.bound

/-- Where a pair has been taken out, there is room for it. -/
theorem hasSpace_of_removed {chain : BucketChain} (hi : IndexHolds h header b)
    (hin : (key, rid) ∈ b.entriesFor key)
    (hchain : BucketChain.Removed key (some rid) (b.chain (bucketOf b.count key)) chain) :
    HasSpace (b.setChain (bucketOf b.count key) chain) key := by
  obtain ⟨x, hx, he⟩ := BucketChain.mem_entries.mp hin
  have hle := hi.length_le (bucketOf_lt hi.count_pos key) hx
  obtain ⟨y, hy, hperm⟩ := hchain.exists_mem hx
  refine ⟨y, ?_, ?_⟩
  · rw [Buckets.count_setChain, Buckets.chain_setChain_self]
    exact hy
  · have hlt : (x.2.filter fun e => ¬ Matches key (some rid) e).length < x.2.length := by
      apply List.length_filter_lt_length_iff_exists.mpr
      exact ⟨(key, rid), he, by simp [matches_some]⟩
    rw [hperm.length_eq]
    omega

/-- `Remove` of a pair that is there takes it out and leaves room for it. -/
theorem remove_changes (hi : IndexHolds h header b) (hk : key.length ≤ maxKeyLength)
    (hin : (key, rid) ∈ b.pairs) :
    Runs (poolContext ext) (remove header key (some rid)) (fun r h' => r = .ok () ∧
      ∃ b', Changes h header b (bucketOf b.count key) h' b' ∧ b'.pairs = b.pairs \ {(key, rid)} ∧
        HasSpace b' key) h := by
  refine (remove_runs hi hk (some rid)).mono fun r h' hr => ?_
  cases hr with
  | done _ chain hex hchain holds hfailed hframe =>
    have hpages : ∀ q, q ∈ (b.setChain (bucketOf b.count key) chain).pages header ↔
        q ∈ b.pages header := by
      intro q
      have hlt := bucketOf_lt hi.count_pos key
      rw [Buckets.mem_pages_setChain hlt, hchain.ids, Buckets.mem_pages]
      constructor
      · rintro (hq | hq | ⟨j, hj, -, hq⟩)
        · exact .inl hq
        · exact .inr ⟨_, hlt, hq⟩
        · exact .inr ⟨j, hj, hq⟩
      · rintro (hq | ⟨j, hj, hq⟩)
        · exact .inl hq
        · by_cases hji : j = bucketOf b.count key
          · exact .inr (.inl (hji ▸ hq))
          · exact .inr (.inr ⟨j, hj, hji, hq⟩)
    have hfoot : Footprint h (b.pages header) h'
        ((b.setChain (bucketOf b.count key) chain).pages header) := by
      refine ⟨fun x hx _ => hframe x hx, fun x hx hn => ?_, fun x hx hn => ?_⟩
      · exact absurd ((hpages x).mp hx) hn
      · exact absurd ((hpages x).mpr hx) hn
    refine ⟨rfl, _, changes_setChain holds hfoot, ?_, hasSpace_of_removed hi hin hchain⟩
    rw [pairs_of_removed hchain]
    simp only [matches_some]
    rfl
  | absent err hnone hcode =>
    exact absurd (matches_some.mpr rfl) (hnone _ hin)

end

end HashIndex

end MiniDbms
