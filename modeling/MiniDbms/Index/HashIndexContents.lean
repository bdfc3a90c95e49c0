import MiniDbms.Lib.Footprint
import MiniDbms.Index.BucketChains

/-!
# What a hash index holds

An index is its `Buckets`: for each bucket the chain of its pages with their entries.
`IndexHolds h header b` says that the pages `h` contain this index: the directory of the
header page, the chains, which share no page, and in each bucket only keys that belong
there and no pair twice. Each operation is described by what it does to one bucket:
`insert_runs`, `getValue_runs`, `remove_runs`; `create_runs`, `openIndex_runs` and
`destroy_runs` are about the index as a whole.
-/

namespace MiniDbms

open Lib PagedProgram Program HashIndexBucketPage

/-- The buckets of an index and the chains of their pages. -/
structure Buckets where
  count : Nat
  chain : Nat → BucketChain

namespace Buckets

/-- The pairs of the bucket that a key belongs to. -/
def entriesFor (b : Buckets) (key : Bytes) : List Entry :=
  (b.chain (HashIndex.bucketOf b.count key)).entries

/-- All pairs, in the order of the buckets and of their chains. -/
def entries (b : Buckets) : List Entry :=
  (List.range b.count).flatMap fun i => (b.chain i).entries

/-- The set of pairs that the index stores. -/
def pairs (b : Buckets) : Set Entry := {e | e ∈ b.entriesFor e.1}

/-- The header page and the bucket pages. -/
def pages (header : PageId) (b : Buckets) : List PageId :=
  header :: (List.range b.count).flatMap fun i => chainIds (b.chain i)

def setChain (b : Buckets) (i : Nat) (chain : BucketChain) : Buckets :=
  { b with chain := Function.update b.chain i chain }

/-- The buckets of a new index. -/
def empty (count : Nat) : Buckets := ⟨count, fun _ => []⟩

variable {b : Buckets} {i j : Nat} {chain : BucketChain} {header q : PageId}

@[simp] theorem count_setChain : (b.setChain i chain).count = b.count := rfl

theorem chain_setChain : (b.setChain i chain).chain j = if j = i then chain else b.chain j := by
  simp [setChain, Function.update_apply]

@[simp] theorem chain_setChain_self : (b.setChain i chain).chain i = chain := by
  simp [chain_setChain]

theorem mem_pages : q ∈ b.pages header ↔ q = header ∨ ∃ i < b.count, q ∈ chainIds (b.chain i) := by
  simp [pages, List.mem_flatMap]

theorem mem_pages_of_chain (hi : i < b.count) (hq : q ∈ chainIds (b.chain i)) :
    q ∈ b.pages header :=
  mem_pages.mpr (.inr ⟨i, hi, hq⟩)

theorem mem_pairs {e : Entry} :
    e ∈ b.pairs ↔ e ∈ (b.chain (HashIndex.bucketOf b.count e.1)).entries :=
  Iff.rfl

theorem mem_pairs_setChain {e : Entry} :
    e ∈ (b.setChain i chain).pairs ↔
      if HashIndex.bucketOf b.count e.1 = i then e ∈ chain.entries else e ∈ b.pairs := by
  rw [mem_pairs, count_setChain, chain_setChain]
  split <;> rfl

@[simp] theorem pairs_empty (count : Nat) : (empty count).pairs = ∅ :=
  Set.eq_empty_of_forall_notMem fun _ he => by cases he

theorem mem_pages_setChain (hi : i < b.count) :
    q ∈ (b.setChain i chain).pages header ↔
      q = header ∨ q ∈ chainIds chain ∨ ∃ j < b.count, j ≠ i ∧ q ∈ chainIds (b.chain j) := by
  rw [mem_pages, count_setChain]
  refine or_congr_right ⟨?_, ?_⟩
  · rintro ⟨j, hj, hq⟩
    rw [chain_setChain] at hq
    split at hq
    · exact .inl hq
    · rename_i hji
      exact .inr ⟨j, hj, hji, hq⟩
  · rintro (hq | ⟨j, hj, hji, hq⟩)
    · exact ⟨i, hi, by rwa [chain_setChain_self]⟩
    · exact ⟨j, hj, by rwa [chain_setChain, if_neg hji]⟩

end Buckets

namespace HashIndex

theorem bucketOf_lt {count : Nat} (hc : 0 < count) (key : Bytes) : bucketOf count key < count :=
  Nat.mod_lt _ hc

/-- A pair that an index can hold. -/
def ValidPair (e : Entry) : Prop := e.1 ≠ [] ∧ e.1.length ≤ maxKeyLength ∧ 0 < e.2.pageId.toInt

/-- The pages of the buckets are distinct, and each bucket holds its own pairs once. -/
structure WellFormed (header : PageId) (b : Buckets) : Prop where
  header : ∀ i < b.count, header ∉ chainIds (b.chain i)
  nodup : ∀ i < b.count, (chainIds (b.chain i)).Nodup
  disjoint : ∀ i < b.count, ∀ j < b.count, i ≠ j → ∀ q ∈ chainIds (b.chain i),
    q ∉ chainIds (b.chain j)
  valid : ∀ i < b.count, ∀ e ∈ (b.chain i).entries, ValidPair e
  own : ∀ i < b.count, ∀ e ∈ (b.chain i).entries, bucketOf b.count e.1 = i
  distinct : ∀ i < b.count, (b.chain i).entries.Nodup

/-- The pages contain the index with the given header page. -/
structure IndexHolds (h : Pages) (header : PageId) (b : Buckets) : Prop where
  positive : 0 < header.toInt
  directory : ∃ d directory, h.page header = some d ∧
    HashIndexHeaderPage.Stores d b.count directory ∧
    ∀ i < b.count, BucketHolds h (directory i) (b.chain i)
  wellFormed : WellFormed header b

section

variable {h h' : Pages} {header : PageId} {b : Buckets} {i : Nat} {key : Bytes} {value : RecordID}
  {chain : BucketChain} {ext : PageId → Nat}

theorem IndexHolds.count_pos (hi : IndexHolds h header b) : 0 < b.count := by
  obtain ⟨d, directory, -, hs, -⟩ := hi.directory
  exact hs.pos

/-- An index depends on its own pages only. -/
theorem IndexHolds.congr (hi : IndexHolds h header b)
    (hsame : ∀ q ∈ b.pages header, h'.page q = h.page q) : IndexHolds h' header b := by
  obtain ⟨d, directory, hd, hs, hc⟩ := hi.directory
  refine ⟨hi.positive, ⟨d, directory, ?_, hs, fun i hlt => ?_⟩, hi.wellFormed⟩
  · rw [hsame header (Buckets.mem_pages.mpr (.inl rfl)), hd]
  · apply (hc i hlt).congr
    intro q hq
    exact hsame q (Buckets.mem_pages_of_chain hlt hq)

/-- The pages of an index exist and have valid ids. -/
theorem IndexHolds.page_ne_none (hi : IndexHolds h header b) {q : PageId}
    (hq : q ∈ b.pages header) :
    h.page q ≠ none ∧ 0 < q.toInt := by
  obtain ⟨d, directory, hd, hs, hc⟩ := hi.directory
  rcases Buckets.mem_pages.mp hq with rfl | ⟨i, hlt, hq⟩
  · rw [hd]
    exact ⟨nofun, hi.positive⟩
  · exact ⟨(hc i hlt).page_ne_none hq, (hc i hlt).good_of_mem hq⟩

/-- The pages of an index are distinct. -/
theorem IndexHolds.nodup_pages (hi : IndexHolds h header b) : (b.pages header).Nodup := by
  have hw := hi.wellFormed
  refine List.nodup_cons.mpr ⟨fun hin => ?_, ?_⟩
  · obtain ⟨i, hlt, hq⟩ := List.mem_flatMap.mp hin
    exact hw.header i (List.mem_range.mp hlt) hq
  · refine List.nodup_flatMap.mpr ⟨fun i hlt => hw.nodup i (List.mem_range.mp hlt), ?_⟩
    apply List.Pairwise.imp_of_mem _ List.nodup_range
    intro i j hilt hjlt hne q hq
    exact hw.disjoint i (List.mem_range.mp hilt) j (List.mem_range.mp hjlt) hne q hq

theorem WellFormed.mem_entries (hw : WellFormed header b) (hc : 0 < b.count) {e : Entry} :
    e ∈ b.entries ↔ e ∈ b.entriesFor e.1 := by
  unfold Buckets.entries Buckets.entriesFor
  rw [List.mem_flatMap]
  constructor
  · rintro ⟨i, hi, he⟩
    rw [hw.own i (List.mem_range.mp hi) e he]
    exact he
  · intro he
    exact ⟨_, List.mem_range.mpr (bucketOf_lt hc _), he⟩

/-- Every pair is stored exactly once. -/
theorem WellFormed.nodup_entries (hw : WellFormed header b) : b.entries.Nodup := by
  refine List.nodup_flatMap.mpr ⟨fun i hlt => hw.distinct i (List.mem_range.mp hlt), ?_⟩
  apply List.Pairwise.imp_of_mem _ List.nodup_range
  intro i j hilt hjlt hne e he he'
  apply hne
  rw [← hw.own i (List.mem_range.mp hilt) e he, hw.own j (List.mem_range.mp hjlt) e he']

/-! ## The bucket of a key -/

/-- A key that is too long is rejected. -/
theorem getBucketPageId_long (hk : maxKeyLength < key.length) :
    Runs (poolContext ext) (getBucketPageId header key)
      (fun r h' => h' = h ∧ ∃ e, r = .error e ∧ e.code = .invalidArgument) h := by
  rw [getBucketPageId, if_pos hk]
  exact runs_pure ⟨rfl, _, rfl, rfl⟩

/-- The bucket of a key and its first page. -/
theorem getBucketPageId_runs {d : PageData} {count : Nat} {directory : Nat → PageId}
    (hd : h.page header = some d) (hs : HashIndexHeaderPage.Stores d count directory)
    (hk : key.length ≤ maxKeyLength) :
    Runs (poolContext ext) (getBucketPageId header key) (fun r h' => h' = h ∧
      r = .ok (bucketOf count key, directory (bucketOf count key))) h := by
  have hs' : HashIndexHeaderPage.Stores (Page.view header d).data count directory := hs
  rw [getBucketPageId, if_neg (by omega)]
  refine runs_fetchPage hd fun f => ?_
  refine holding_unpinPage (.inr rfl) ?_
  dsimp only
  rw [hs'.isInitialized, hs'.getBucketCount, hs'.getBucketPageId (bucketOf_lt hs.pos key)]
  exact runs_pure ⟨rfl, rfl⟩

theorem IndexHolds.length_lt (hi : IndexHolds h header b) (hlt : i < b.count) :
    (b.chain i).length < chainFuel := by
  obtain ⟨d, directory, -, -, hc⟩ := hi.directory
  have hlen := length_lt_chainFuel (hi.wellFormed.nodup i hlt) fun q => (hc i hlt).good_of_mem
  rwa [length_chainIds] at hlen

/-! ## Changing one bucket -/

/-- A bucket gets another chain, of its own pages or new ones, with valid pairs of its own. -/
theorem WellFormed.setChain (hw : WellFormed header b) (hlt : i < b.count)
    (hids : ∀ q ∈ chainIds chain, q ∈ chainIds (b.chain i) ∨ q ∉ b.pages header)
    (hnodup : (chainIds chain).Nodup)
    (hentries : ∀ e ∈ chain.entries, e ∈ (b.chain i).entries ∨
      (ValidPair e ∧ bucketOf b.count e.1 = i))
    (hdistinct : chain.entries.Nodup) : WellFormed header (b.setChain i chain) := by
  have hnew : ∀ j < b.count, j ≠ i → ∀ q ∈ chainIds chain, q ∉ chainIds (b.chain j) := by
    intro j hj hne q hq hin
    rcases hids q hq with hq | hq
    · exact hw.disjoint j hj i hlt hne q hin hq
    · exact hq (Buckets.mem_pages_of_chain hj hin)
  refine ⟨fun j hj hin => ?_, fun j hj => ?_, fun j hj k hk hne q hq hq' => ?_, fun j hj e he => ?_,
    fun j hj e he => ?_, fun j hj => ?_⟩ <;> rw [Buckets.count_setChain] at hj <;>
    simp only [Buckets.chain_setChain] at *
  · split at hin
    · rcases hids header hin with hq | hq
      · exact hw.header i hlt hq
      · exact hq (Buckets.mem_pages.mpr (.inl rfl))
    · exact hw.header j hj hin
  · split
    · exact hnodup
    · exact hw.nodup j hj
  · rw [Buckets.count_setChain] at hk
    split at hq
    · rename_i hji
      rw [if_neg fun hki => hne (hji.trans hki.symm)] at hq'
      exact hnew k hk (fun hki => hne (hji.trans hki.symm)) q hq hq'
    · rename_i hji
      split at hq'
      · exact hnew j hj hji q hq' hq
      · exact hw.disjoint j hj k hk hne q hq hq'
  · split at he
    · rcases hentries e he with he | he
      · exact hw.valid i hlt e he
      · exact he.1
    · exact hw.valid j hj e he
  · split at he
    · rename_i hji
      rw [Buckets.count_setChain, hji]
      rcases hentries e he with he | he
      · exact hw.own i hlt e he
      · exact he.2
    · exact hw.own j hj e he
  · split
    · exact hdistinct
    · exact hw.distinct j hj

/-- The pages contain the index with one bucket changed, and the directory changed there. -/
theorem IndexHolds.setChain {d' : PageData} {directory directory' : Nat → PageId}
    (hi : IndexHolds h header b) (hlt : i < b.count)
    (hchains : ∀ j < b.count, BucketHolds h (directory j) (b.chain j))
    (hw : WellFormed header (b.setChain i chain)) (hd : h'.page header = some d')
    (hs : HashIndexHeaderPage.Stores d' b.count directory')
    (hdir : ∀ j, j ≠ i → directory' j = directory j) (hc : BucketHolds h' (directory' i) chain)
    (hsame : ∀ x, x ≠ header → x ∉ chainIds (b.chain i) → h.page x ≠ none → h'.page x = h.page x) :
    IndexHolds h' header (b.setChain i chain) := by
  refine ⟨hi.positive, ⟨d', directory', hd, hs, fun j hj => ?_⟩, hw⟩
  rw [Buckets.chain_setChain]
  split
  · rename_i hji
    rw [hji]
    exact hc
  · rename_i hji
    rw [Buckets.count_setChain] at hj
    rw [hdir j hji]
    apply (hchains j hj).congr
    intro x hx
    apply hsame
    · rintro rfl
      exact hi.wellFormed.header j hj hx
    · exact fun hin => hi.wellFormed.disjoint j hj i hlt hji x hx hin
    · exact (hchains j hj).page_ne_none hx

/-! ## Insertion -/

/-- What `Insert` of a valid pair does to the index. -/
inductive Inserts (h : Pages) (header : PageId) (b : Buckets) (e : Entry) :
    Except Status Unit → Pages → Prop where
  | present (hin : e ∈ b.entriesFor e.1) : Inserts h header b e (.ok ()) h
  | done (h' : Pages) (chain : BucketChain) (hnot : e ∉ b.entriesFor e.1)
      (hchain : BucketChain.Inserted e (b.chain (bucketOf b.count e.1)) chain)
      (holds : IndexHolds h' header (b.setChain (bucketOf b.count e.1) chain))
      (hfailed : h'.failed = h.failed)
      (hframe : Footprint h (b.pages header) h'
        ((b.setChain (bucketOf b.count e.1) chain).pages header)) :
      Inserts h header b e (.ok ()) h'
  | full (err : Status) (hnot : e ∉ b.entriesFor e.1)
      (hfull : ∀ x ∈ b.chain (bucketOf b.count e.1), ¬ x.2.length < entryCapacity)
      (hcode : err.code = .outOfMemory) : Inserts h header b e (.error err) h.fail

/-- Putting a pair into its bucket adds it to the pairs. -/
theorem pairs_of_inserted {e : Entry}
    (hchain : BucketChain.Inserted e (b.chain (bucketOf b.count e.1)) chain) :
    (b.setChain (bucketOf b.count e.1) chain).pairs = Insert.insert e b.pairs := by
  apply Set.ext
  intro x
  rw [Buckets.mem_pairs_setChain, Set.mem_insert_iff]
  split
  · rename_i hx
    rw [hchain.entries.mem_iff, List.mem_cons, Buckets.mem_pairs, hx]
  · rename_i hx
    rw [or_iff_right]
    rintro rfl
    exact hx rfl

/-- The index after a new pair was put into its bucket. -/
theorem Inserts.of_inserted (chain : BucketChain) (directory' : Nat → PageId) {e : Entry}
    {d' : PageData} {directory : Nat → PageId} (hi : IndexHolds h header b)
    (hnot : e ∉ b.entriesFor e.1) (he : ValidPair e)
    (hchains : ∀ j < b.count, BucketHolds h (directory j) (b.chain j))
    (hchain : BucketChain.Inserted e (b.chain (bucketOf b.count e.1)) chain)
    (hids : ∀ q ∈ chainIds chain, q ∈ chainIds (b.chain (bucketOf b.count e.1)) ∨ h.page q = none)
    (hnodup : (chainIds chain).Nodup) (hd : h'.page header = some d')
    (hs : HashIndexHeaderPage.Stores d' b.count directory')
    (hdir : ∀ j, j ≠ bucketOf b.count e.1 → directory' j = directory j)
    (hc : BucketHolds h' (directory' (bucketOf b.count e.1)) chain) (hfailed : h'.failed = h.failed)
    (hsame : ∀ x, x ≠ header → x ∉ chainIds chain → h'.page x = h.page x)
    (hkeep : ∀ x ∈ chainIds (b.chain (bucketOf b.count e.1)), x ∈ chainIds chain) :
    Inserts h header b e (.ok ()) h' := by
  have hlt := bucketOf_lt hi.count_pos e.1
  have hw : WellFormed header (b.setChain (bucketOf b.count e.1) chain) := by
    apply hi.wellFormed.setChain hlt _ hnodup
    · intro x hx
      rcases List.mem_cons.mp (hchain.entries.mem_iff.mp hx) with rfl | hx
      · exact .inr ⟨he, rfl⟩
      · exact .inl hx
    · rw [hchain.entries.nodup_iff, List.nodup_cons]
      exact ⟨hnot, hi.wellFormed.distinct _ hlt⟩
    · intro q hq
      rcases hids q hq with hq | hnone
      · exact .inl hq
      · exact .inr fun hin => (hi.page_ne_none hin).1 hnone
  have hold : IndexHolds h' header (b.setChain (bucketOf b.count e.1) chain) := by
    apply hi.setChain hlt hchains hw hd hs hdir hc
    intro x hne hx hp
    apply hsame x hne
    intro hin
    rcases hids x hin with hx' | hnone
    · exact hx hx'
    · exact hp hnone
  refine .done h' chain hnot hchain hold hfailed ⟨fun x hx hx' => ?_, fun x hx' hx => ?_,
    fun x hx hx' => ?_⟩
  · apply hsame x
    · rintro rfl
      exact hx (Buckets.mem_pages.mpr (.inl rfl))
    · exact fun hin => hx' ((Buckets.mem_pages_setChain hlt).mpr (.inr (.inl hin)))
  · rcases (Buckets.mem_pages_setChain hlt).mp hx' with rfl | hin | ⟨j, hj, -, hin⟩
    · exact absurd (Buckets.mem_pages.mpr (.inl rfl)) hx
    · exact (hids x hin).resolve_left fun hin' => hx (Buckets.mem_pages_of_chain hlt hin')
    · exact absurd (Buckets.mem_pages_of_chain hj hin) hx
  · refine absurd ((Buckets.mem_pages_setChain hlt).mpr ?_) hx'
    rcases Buckets.mem_pages.mp hx with rfl | ⟨j, hj, hin⟩
    · exact .inl rfl
    · by_cases hji : j = bucketOf b.count e.1
      · subst hji
        exact .inr (.inl (hkeep x hin))
      · exact .inr (.inr ⟨j, hj, hji, hin⟩)

/-- The first pair of a bucket goes into a new page that the directory is told of. -/
theorem createPrimaryBucket_runs {d : PageData} {directory : Nat → PageId} {e : Entry}
    (hi : IndexHolds h header b) (he : ValidPair e) (hd : h.page header = some d)
    (hs : HashIndexHeaderPage.Stores d b.count directory)
    (hchains : ∀ j < b.count, BucketHolds h (directory j) (b.chain j))
    (hnil : b.chain (bucketOf b.count e.1) = []) :
    Runs (poolContext ext) (createPrimaryBucket header (bucketOf b.count e.1) e.1 e.2)
      (Inserts h header b e) h := by
  have hlt := bucketOf_lt hi.count_pos e.1
  have hnot : e ∉ b.entriesFor e.1 := by
    rw [Buckets.entriesFor, hnil]
    exact List.not_mem_nil
  have hinv : directory (bucketOf b.count e.1) = invalidPageId := by
    have := hchains _ hlt
    rw [hnil] at this
    exact this
  unfold createPrimaryBucket
  refine ((newBucket_runs he.2.1 he.2.2 _ _).mono fun r h' hr => ?_).bind
  rcases hr with ⟨n, dn, rfl, hn, hpos, rfl, hst⟩ | ⟨err, rfl, hcode, rfl⟩
  · have hne : header ≠ n := by
      rintro rfl
      rw [hd] at hn
      cases hn
    have hd₁ : (h.set n dn).page header = some d := by rw [Heap.page_set_of_ne _ hne, hd]
    have hs' : HashIndexHeaderPage.Stores (Page.view header d).data b.count directory := hs
    obtain ⟨d', hset, hd'⟩ := HashIndexHeaderPage.setBucketPageId_stores hs' hlt hpos
    have hlink : linkPrimary (bucketOf b.count e.1) n (Page.view header d) =
        (.ok (), { Page.view header d with data := d', isDirty := true }) := by
      rw [linkPrimary, hs'.getBucketPageId hlt, hinv]
      exact hset
    refine (linkBucket_runs hd₁ hlink _ _).mono fun r h' hr => ?_
    · obtain ⟨rfl, rfl⟩ := hr
      have hpage : ((h.set n dn).set header d').page n = some dn := by
        rw [Heap.page_set_of_ne _ (Ne.symm hne), Heap.page_set_self]
      apply Inserts.of_inserted [(n, [e])] _ hi hnot he hchains
      · rw [hnil]
        exact .append n nofun
      · intro q hq
        rw [List.mem_singleton.mp hq]
        exact .inr hn
      · exact List.nodup_singleton _
      · exact Heap.page_set_self ..
      · exact hd'
      · intro j hj
        exact Function.update_of_ne hj _ _
      · rw [Function.update_self]
        exact ⟨rfl, hpos, dn, _, hpage, hst, rfl⟩
      · rfl
      · intro x hx hxn
        rw [Heap.page_set_of_ne _ hx, Heap.page_set_of_ne _]
        rintro rfl
        exact hxn List.mem_cons_self
      · rw [hnil]
        nofun
  · refine runs_pure (.full err hnot ?_ hcode)
    rw [hnil]
    nofun

/-- A pair for which the chain has no room goes into a new page at its end. -/
theorem appendOverflowBucket_runs {d : PageData} {directory : Nat → PageId} {e : Entry}
    {pre : BucketChain} {q : PageId} {s : List Entry}
    (hi : IndexHolds h header b) (he : ValidPair e) (hnot : e ∉ b.entriesFor e.1)
    (hd : h.page header = some d) (hs : HashIndexHeaderPage.Stores d b.count directory)
    (hchains : ∀ j < b.count, BucketHolds h (directory j) (b.chain j))
    (hsplit : b.chain (bucketOf b.count e.1) = pre ++ [(q, s)])
    (hfull : ∀ x ∈ b.chain (bucketOf b.count e.1), ¬ x.2.length < entryCapacity) :
    Runs (poolContext ext) (appendOverflowBucket q e.1 e.2) (Inserts h header b e) h := by
  have hlt := bucketOf_lt hi.count_pos e.1
  have hc := hchains _ hlt
  have hnodup := hi.wellFormed.nodup _ hlt
  have hheader := hi.wellFormed.header _ hlt
  rw [hsplit] at hc hnodup hheader
  obtain ⟨hqpos, dq, hdq, hsq⟩ := hc.node_of_last
  have hq : q ∉ chainIds pre := by
    rw [chainIds, List.map_append, List.nodup_append] at hnodup
    exact fun hin => hnodup.2.2 q hin q List.mem_cons_self rfl
  have hpages : ∀ x ∈ chainIds (pre ++ [(q, s)]), h.page x ≠ none := fun x hx => hc.page_ne_none hx
  unfold appendOverflowBucket
  refine ((newBucket_runs he.2.1 he.2.2 _ _).mono fun r h' hr => ?_).bind
  rcases hr with ⟨n, dn, rfl, hn, hpos, rfl, hst⟩ | ⟨err, rfl, hcode, rfl⟩
  · have hne : ∀ x, h.page x ≠ none → x ≠ n := by
      rintro x hx rfl
      exact hx hn
    have hqn : q ≠ n := hne q (by rw [hdq]; exact Option.some_ne_none _)
    have hhn : header ≠ n := hne header (by rw [hd]; exact Option.some_ne_none _)
    have hhq : header ≠ q := by
      rintro rfl
      exact hheader (by simp [chainIds])
    have hdq₁ : (h.set n dn).page q = some dq := by rw [Heap.page_set_of_ne _ hqn, hdq]
    have hsq' : Stores (Page.view q dq).data invalidPageId s.length s := hsq
    obtain ⟨d', hset, hd'⟩ := setOverflowPageId_stores hsq' hpos
    have hlink : linkOverflow n (Page.view q dq) =
        (.ok (), { Page.view q dq with data := d', isDirty := true }) := by
      rw [linkOverflow, hsq'.isInitialized, hsq'.getOverflowPageId]
      exact hset
    refine (linkBucket_runs hdq₁ hlink _ _).mono fun r h' hr => ?_
    · obtain ⟨rfl, rfl⟩ := hr
      have hsame : ∀ x, x ≠ q → x ≠ n → ((h.set n dn).set q d').page x = h.page x := by
        intro x hxq hxn
        rw [Heap.page_set_of_ne _ hxq, Heap.page_set_of_ne _ hxn]
      have hids : chainIds (pre ++ [(q, s), (n, [e])]) = chainIds (pre ++ [(q, s)]) ++ [n] := by
        simp [chainIds]
      apply Inserts.of_inserted (pre ++ [(q, s), (n, [e])]) directory hi hnot he hchains
      · have happend := BucketChain.Inserted.append (e := e) n hfull
        rw [hsplit, List.append_assoc] at happend
        rw [hsplit]
        exact happend
      · intro x hx
        rw [hids] at hx
        rw [hsplit]
        rcases List.mem_append.mp hx with hx | hx
        · exact .inl hx
        · rw [List.mem_singleton.mp hx]
          exact .inr hn
      · rw [hids, List.nodup_append]
        refine ⟨hnodup, List.nodup_singleton _, fun a ha c hc => ?_⟩
        rw [List.mem_singleton.mp hc]
        exact hne a (hpages a ha)
      · rw [hsame header hhq hhn, hd]
      · exact hs
      · exact fun _ _ => rfl
      · refine hc.append hq (Heap.page_set_self ..) hd' hpos ?_ hst fun x hx => ?_
        · rw [Heap.page_set_of_ne _ (Ne.symm hqn), Heap.page_set_self]
        · apply hsame x
          · rintro rfl
            exact hq hx
          · apply hne x (hpages x _)
            rw [chainIds, List.map_append]
            exact List.mem_append_left _ hx
      · rfl
      · intro x _ hx
        rw [hids] at hx
        apply hsame
        · rintro rfl
          exact hx (by simp [chainIds])
        · rintro rfl
          exact hx (by simp)
      · intro x hx
        rw [hids, ← hsplit]
        exact List.mem_append_left _ hx
  · exact runs_pure (.full err hnot hfull hcode)

/-- `Insert` adds the pair, changes nothing if it is there, or finds no page for it. -/
theorem insert_runs {e : Entry} (hi : IndexHolds h header b) (he : ValidPair e) :
    Runs (poolContext ext) (insert header e.1 e.2) (Inserts h header b e) h := by
  obtain ⟨d, directory, hd, hs, hchains⟩ := hi.directory
  have hlt := bucketOf_lt hi.count_pos e.1
  have hpos : 0 < e.2.pageId.toInt := he.2.2
  rw [insert, if_neg he.1, if_neg (by rw [toInt_headerPageId]; omega)]
  refine ((getBucketPageId_runs hd hs he.2.1).mono fun r h' hr => ?_).bind
  obtain ⟨rfl, rfl⟩ := hr
  dsimp only
  have hc := hchains _ hlt
  by_cases hnil : b.chain (bucketOf b.count e.1) = []
  · rw [hnil] at hc
    have hinv : directory (bucketOf b.count e.1) = invalidPageId := hc
    rw [if_pos hinv]
    exact createPrimaryBucket_runs hi he hd hs hchains hnil
  · have hinv : directory (bucketOf b.count e.1) ≠ invalidPageId := by
      obtain ⟨x, rest, hx⟩ := List.exists_cons_of_ne_nil hnil
      rw [hx] at hc
      obtain ⟨hq, hgood, -⟩ := hc
      rw [hq]
      exact ne_invalid_of_pos hgood
    have hgood : ∀ q ∈ chainIds (b.chain (bucketOf b.count e.1)), 0 < q.toInt := fun q =>
      hc.good_of_mem
    have hnodup := hi.wellFormed.nodup _ hlt
    rw [if_neg hinv]
    refine ((insertLoop_runs he.2.1 _ _ [] _ _ _ hc hnodup (fun _ _ => List.not_mem_nil)
      (hi.length_lt hlt)).mono fun r h' hr => ?_).bind
    obtain ⟨rfl, rfl⟩ := hr
    by_cases hin : e ∈ (b.chain (bucketOf b.count e.1)).entries
    · rw [if_pos hin]
      exact runs_pure (.present hin)
    · rw [if_neg hin, if_pos rfl]
      dsimp only
      rcases BucketChain.pageWithSpace_cases hgood with
        ⟨pre, q, s, post, hsplit, hroom, hspace, hid⟩ | ⟨hspace, hfull⟩
      · rw [hspace, if_pos hid]
        have hmem : (q, s) ∈ b.chain (bucketOf b.count e.1) := by
          rw [hsplit]
          simp
        have hnots : e ∉ s := fun hs => hin (BucketChain.mem_entries.mpr ⟨_, hmem, hs⟩)
        refine (insertIntoPage_runs hc hnodup hmem hroom he.2.1 hpos hnots).mono fun r h' hr => ?_
        obtain ⟨rfl, hfailed, hc', hsame⟩ := hr
        rw [hsplit, setNode_split (by rw [← hsplit]; exact hnodup)] at hc'
        have hids : chainIds (pre ++ (q, s ++ [e]) :: post) =
            chainIds (b.chain (bucketOf b.count e.1)) := by
          rw [hsplit]
          simp [chainIds]
        have hq : q ∈ chainIds (b.chain (bucketOf b.count e.1)) := List.mem_map_of_mem hmem
        apply Inserts.of_inserted (pre ++ (q, s ++ [e]) :: post) directory hi hin he hchains
        · exact .fit q pre post s hsplit hroom
        · intro x hx
          rw [hids] at hx
          exact .inl hx
        · rw [hids]
          exact hnodup
        · rw [hsame header fun hh => hi.wellFormed.header _ hlt (hh ▸ hq), hd]
        · exact hs
        · exact fun _ _ => rfl
        · exact hc'
        · exact hfailed
        · intro x _ hx
          rw [hids] at hx
          apply hsame
          rintro rfl
          exact hx hq
        · rw [hids]
          exact fun x hx => hx
      · obtain ⟨pre, ⟨q, s⟩, hsplit⟩ := List.eq_nil_or_concat (b.chain _) |>.resolve_left hnil
        rw [List.concat_eq_append] at hsplit
        have hqpos : 0 < q.toInt := by
          apply hgood
          rw [hsplit]
          simp [chainIds]
        rw [hspace, if_neg (not_not.mpr rfl), hsplit, BucketChain.lastPage_append,
          if_neg (ne_invalid_of_pos hqpos)]
        exact appendOverflowBucket_runs hi he hin hd hs hchains hsplit hfull

/-! ## Search and removal -/

/-- `GetValue` returns the values of the key. -/
theorem getValue_runs (hi : IndexHolds h header b) (hk : key.length ≤ maxKeyLength) :
    Runs (poolContext ext) (getValue header key) (fun r h' => h' = h ∧
      r = .ok (((b.entriesFor key).filter fun e => e.1 = key).map Prod.snd)) h := by
  obtain ⟨d, directory, hd, hs, hchains⟩ := hi.directory
  have hlt := bucketOf_lt hi.count_pos key
  unfold getValue
  refine ((getBucketPageId_runs hd hs hk).mono fun r h' hr => ?_).bind
  obtain ⟨rfl, rfl⟩ := hr
  exact getValueLoop_runs hk _ _ [] _ [] (hchains _ hlt) (hi.wellFormed.nodup _ hlt)
    (fun _ _ => List.not_mem_nil) (hi.length_lt hlt)

/-- What `Remove` of a key that is not too long does to the index. -/
inductive Removes (h : Pages) (header : PageId) (b : Buckets) (key : Bytes)
    (value : Option RecordID) : Except Status Unit → Pages → Prop where
  | done (h' : Pages) (chain : BucketChain) (hin : ∃ e ∈ b.entriesFor key, Matches key value e)
      (hchain : BucketChain.Removed key value (b.chain (bucketOf b.count key)) chain)
      (holds : IndexHolds h' header (b.setChain (bucketOf b.count key) chain))
      (hfailed : h'.failed = h.failed)
      (hframe : ∀ x, x ∉ b.pages header → h'.page x = h.page x) :
      Removes h header b key value (.ok ()) h'
  | absent (err : Status) (hnone : ∀ e ∈ b.entriesFor key, ¬ Matches key value e)
      (hcode : err.code = .notFound) : Removes h header b key value (.error err) h

/-- Removing from the bucket of a key takes the matching pairs out of the pairs. -/
theorem pairs_of_removed {value : Option RecordID}
    (hchain : BucketChain.Removed key value (b.chain (bucketOf b.count key)) chain) :
    (b.setChain (bucketOf b.count key) chain).pairs = b.pairs \ {e | Matches key value e} := by
  apply Set.ext
  intro x
  rw [Buckets.mem_pairs_setChain, Set.mem_sdiff, Set.mem_ofPred_eq]
  split
  · rename_i hx
    rw [hchain.entries.mem_iff, List.mem_filter, decide_eq_true_eq, Buckets.mem_pairs, hx]
  · rename_i hx
    rw [and_iff_left]
    rintro ⟨rfl, -⟩
    exact hx rfl

/-- `Remove` takes out exactly the matching pairs, or says `NOT_FOUND` and changes nothing. -/
theorem remove_runs (hi : IndexHolds h header b) (hk : key.length ≤ maxKeyLength)
    (value : Option RecordID) :
    Runs (poolContext ext) (remove header key value) (Removes h header b key value) h := by
  obtain ⟨d, directory, hd, hs, hchains⟩ := hi.directory
  have hlt := bucketOf_lt hi.count_pos key
  have hc := hchains _ hlt
  have hnodup := hi.wellFormed.nodup _ hlt
  have hdistinct := hi.wellFormed.distinct _ hlt
  unfold remove
  refine ((getBucketPageId_runs hd hs hk).mono fun r h' hr => ?_).bind
  obtain ⟨rfl, rfl⟩ := hr
  dsimp only
  split
  · rename_i hinv
    refine runs_pure (.absent _ ?_ rfl)
    rw [Buckets.entriesFor]
    cases hch : b.chain (bucketOf b.count key) with
    | nil => exact List.forall_mem_nil _
    | cons x rest =>
      rw [hch] at hc
      obtain ⟨hx, hgood, -⟩ := hc
      exact absurd (hx.symm.trans hinv) (ne_invalid_of_pos hgood)
  · refine ((removeLoop_runs hk value _ _ [] _ 0 _ hc hnodup hdistinct
      (fun _ _ => List.not_mem_nil) (hi.length_lt hlt) fun _ => rfl).mono fun r h₁ hr => ?_).bind
    obtain ⟨chain, k, rfl, hrem⟩ := hr
    rw [Nat.zero_add]
    dsimp only
    by_cases hk0 : k = 0
    · obtain ⟨rfl, hnone⟩ := hrem.none hk0
      rw [if_pos hk0]
      exact runs_pure (.absent _ hnone rfl)
    · rw [if_neg hk0]
      have hsame : ∀ x, x ∉ b.pages header → h₁.page x = h'.page x := fun x hx =>
        hrem.same x fun hin => hx (Buckets.mem_pages_of_chain hlt hin)
      have hperm := hrem.kept.entries
      have hw : WellFormed header (b.setChain (bucketOf b.count key) chain) := by
        apply hi.wellFormed.setChain hlt
        · intro q hq
          rw [hrem.kept.ids] at hq
          exact .inl hq
        · rw [hrem.kept.ids]
          exact hnodup
        · intro e he
          exact .inl (List.mem_filter.mp (hperm.mem_iff.mp he)).1
        · exact hperm.nodup_iff.mpr (hdistinct.filter _)
      refine runs_pure (.done h₁ chain (hrem.some hk0) hrem.kept ?_ hrem.failed hsame)
      apply hi.setChain hlt hchains hw _ hs (fun _ _ => rfl) hrem.holds
      · intro x _ hx _
        exact hrem.same x hx
      · rw [hrem.same header (hi.wellFormed.header _ hlt), hd]

/-! ## Creation and destruction -/

theorem empty_wellFormed (header : PageId) (count : Nat) : WellFormed header (.empty count) where
  header _ _ := List.not_mem_nil
  nodup _ _ := List.nodup_nil
  disjoint _ _ _ _ _ _ hq := by cases hq
  valid _ _ _ he := by cases he
  own _ _ _ he := by cases he
  distinct _ _ := List.nodup_nil

/-- `Create` makes an index without pairs, or finds no page for it. -/
theorem create_runs {count : Nat} (hpos : 0 < count) (hle : count ≤ 1020) :
    Runs (poolContext ext) (create count) (fun r h' =>
      (∃ n d, r = .ok n ∧ h.page n = none ∧ h' = h.set n d ∧ IndexHolds h' n (.empty count)) ∨
      (∃ err, r = .error err ∧ err.code = .outOfMemory ∧ h' = h.fail)) h := by
  rw [create, if_neg (by show ¬ (_ ∨ 1020 < _); omega)]
  refine runs_newPage ?_ fun n f hn hgood _ => ?_
  · exact runs_pure (.inr ⟨_, rfl, rfl, rfl⟩)
  have hnpos : 0 < n.toInt := hgood
  obtain ⟨d, hinit, hd⟩ := HashIndexHeaderPage.init_stores (Page.view n (poolContext ext).blank)
    (ne_invalid_of_pos hnpos) hpos hle
  dsimp only
  rw [show maxKeyLength = 64 from rfl, hinit]
  refine holding_writePage rfl ?_
  rw [Heap.set_set]
  refine holding_unpinPage (.inr rfl) ?_
  refine runs_pure (.inl ⟨n, d, rfl, hn, rfl, hnpos, ?_, empty_wellFormed n count⟩)
  exact ⟨d, _, Heap.page_set_self .., hd, fun _ _ => rfl⟩

/-- What `Open` checks of a header page. -/
structure ValidHeader (h : Pages) (header : PageId) : Prop where
  positive : 0 < header.toInt
  page : ∃ d, h.page header = some d ∧
    HashIndexHeaderPage.isInitialized (Page.view header d) = true ∧
    HashIndexHeaderPage.getMaxKeyLength (Page.view header d) = maxKeyLength

theorem IndexHolds.validHeader (hi : IndexHolds h header b) : ValidHeader h header := by
  obtain ⟨d, directory, hd, hs, -⟩ := hi.directory
  have hs' : HashIndexHeaderPage.Stores (Page.view header d).data b.count directory := hs
  exact ⟨hi.positive, d, hd, hs'.isInitialized, hs'.getMaxKeyLength⟩

/-- `Open` accepts a valid header and changes nothing. -/
theorem openIndex_runs (hv : ValidHeader h header) :
    Runs (poolContext ext) (openIndex header) (fun r h' => h' = h ∧ r = .ok header) h := by
  obtain ⟨d, hd, hinit, hlength⟩ := hv.page
  have hpos := hv.positive
  rw [openIndex, if_neg (by rw [toInt_headerPageId]; omega)]
  have hvalidate : Runs (poolContext ext) (validateHeader header)
      (fun r h' => h' = h ∧ ∃ count, r = .ok count) h := by
    refine runs_fetchPage hd fun f => ?_
    refine holding_unpinPage (.inr rfl) ?_
    dsimp only
    rw [hinit, hlength, if_neg (by simp)]
    exact runs_pure ⟨rfl, _, rfl⟩
  refine (hvalidate.mono fun r h' hr => ?_).bind
  obtain ⟨rfl, count, rfl⟩ := hr
  exact runs_pure ⟨rfl, rfl⟩

/-- Dropping all pages of a list. -/
def dropAll (h : Pages) (l : List PageId) : Pages := l.foldl (fun h q => h.drop q) h

theorem page_dropAll (h : Pages) (l : List PageId) (x : PageId) :
    (dropAll h l).page x = if x ∈ l then none else h.page x := by
  induction l generalizing h with
  | nil => rfl
  | cons q l ih =>
    show (dropAll (h.drop q) l).page x = _
    rw [ih, Heap.page_drop]
    by_cases hx : x ∈ l
    · rw [if_pos hx, if_pos (List.mem_cons_of_mem _ hx)]
    · rw [if_neg hx]
      by_cases hq : x = q
      · rw [if_pos hq, if_pos (hq ▸ List.mem_cons_self)]
      · rw [if_neg hq, if_neg (by simp [hx, hq])]

theorem failed_dropAll (h : Pages) (l : List PageId) : (dropAll h l).failed = h.failed := by
  induction l generalizing h with
  | nil => rfl
  | cons q l ih => exact ih (h.drop q)

/-- The loop of `Destroy` over one chain. -/
theorem destroyChain_runs :
    ∀ (chain : BucketChain) (fuel : Nat) (visited : List PageId) (p : PageId) (h : Pages),
      BucketHolds h p chain → (chainIds chain).Nodup → (∀ q ∈ chainIds chain, q ∉ visited) →
      (∀ q ∈ chainIds chain, ext q = 0) → chain.length < fuel →
      Runs (poolContext ext) (destroyChain fuel visited p)
        (fun r h' => h' = dropAll h (chainIds chain) ∧
          ∃ visited', r = .ok visited' ∧ ∀ q ∈ visited', q ∈ visited ∨ q ∈ chainIds chain) h := by
  intro chain
  induction chain with
  | nil =>
    intro fuel visited p h hc _ _ _ hfuel
    obtain ⟨fuel, rfl⟩ : ∃ n, fuel = n + 1 := ⟨fuel - 1, by simp at hfuel; omega⟩
    have hend : p = invalidPageId := hc
    rw [destroyChain, if_pos hend]
    exact runs_pure ⟨rfl, visited, rfl, fun q hq => .inl hq⟩
  | cons x rest ih =>
    intro fuel visited p h hc hnodup hvisited hshared hfuel
    obtain ⟨q, s⟩ := x
    obtain ⟨rfl, hpos, d, next, hd, hs, hrest⟩ := hc
    obtain ⟨fuel, rfl⟩ : ∃ n, fuel = n + 1 := ⟨fuel - 1, by simp at hfuel; omega⟩
    obtain ⟨hnot, hnodup'⟩ := List.nodup_cons.mp hnodup
    have hs' : Stores (Page.view p d).data next s.length s := hs
    rw [destroyChain, if_neg (ne_invalid_of_pos hpos), if_neg (hvisited p List.mem_cons_self)]
    refine runs_fetchPage hd fun f => ?_
    dsimp only
    rw [hs'.isInitialized, hs'.getOverflowPageId]
    refine holding_unpinPage (.inr rfl) ?_
    refine runs_deletePage (by rw [hd]; nofun) hpos (fun hp => ?_) ?_
    · have hlt : 0 < ext p := hp
      rw [hshared p List.mem_cons_self] at hlt
      exact Nat.lt_irrefl 0 hlt
    have hrest₁ : BucketHolds (h.drop p) next rest := by
      apply hrest.congr
      intro x hx
      rw [Heap.page_drop, if_neg]
      rintro rfl
      exact hnot hx
    refine (ih fuel (p :: visited) next (h.drop p) hrest₁ hnodup' ?_
      (fun q hq => hshared q (List.mem_cons_of_mem _ hq)) ?_).mono fun r h' hr => ?_
    · intro q hq hv
      rcases List.mem_cons.mp hv with rfl | hv
      · exact hnot hq
      · exact hvisited q (List.mem_cons_of_mem _ hq) hv
    · simp only [List.length_cons] at hfuel
      omega
    · obtain ⟨rfl, visited', rfl, hv⟩ := hr
      refine ⟨rfl, visited', rfl, fun q hq => ?_⟩
      rcases hv q hq with hq | hq
      · rcases List.mem_cons.mp hq with rfl | hq
        · exact .inr List.mem_cons_self
        · exact .inl hq
      · exact .inr (List.mem_cons_of_mem _ hq)

theorem dropAll_append (h : Pages) (l l' : List PageId) :
    dropAll h (l ++ l') = dropAll (dropAll h l) l' :=
  List.foldl_append

/-- The loop of `Destroy` over the buckets, given by their first pages and chains. -/
theorem destroyChains_runs (starts : List (PageId × BucketChain)) :
    ∀ (visited : List PageId) (h : Pages), (∀ x ∈ starts, BucketHolds h x.1 x.2) →
      (starts.flatMap fun x => chainIds x.2).Nodup →
      (∀ q ∈ starts.flatMap fun x => chainIds x.2, q ∉ visited) →
      (∀ q ∈ starts.flatMap fun x => chainIds x.2, ext q = 0) →
      (∀ x ∈ starts, x.2.length < chainFuel) →
      Runs (poolContext ext) (destroyChains (starts.map Prod.fst) visited)
        (fun r h' => h' = dropAll h (starts.flatMap fun x => chainIds x.2) ∧ r = .ok ()) h := by
  induction starts with
  | nil =>
    intro visited h _ _ _ _ _
    exact runs_pure ⟨rfl, rfl⟩
  | cons x rest ih =>
    intro visited h hc hnodup hvisited hshared hfuel
    obtain ⟨p, chain⟩ := x
    rw [List.flatMap_cons] at hnodup hvisited hshared
    obtain ⟨hn, hn', hdis⟩ := List.nodup_append.mp hnodup
    rw [List.map_cons, destroyChains]
    refine ((destroyChain_runs chain chainFuel visited p h (hc _ List.mem_cons_self) hn
      (fun q hq => hvisited q (List.mem_append_left _ hq))
      (fun q hq => hshared q (List.mem_append_left _ hq)) (hfuel _ List.mem_cons_self)).mono
      fun r h' hr => ?_).bind
    obtain ⟨rfl, visited', rfl, hv⟩ := hr
    dsimp only
    refine (ih visited' _ ?_ hn' ?_ (fun q hq => hshared q (List.mem_append_right _ hq))
      fun x hx => hfuel x (List.mem_cons_of_mem _ hx)).mono fun r h' hr => ?_
    · intro x hx
      apply (hc x (List.mem_cons_of_mem _ hx)).congr
      intro q hq
      rw [page_dropAll, if_neg]
      intro hin
      exact hdis q hin q (List.mem_flatMap.mpr ⟨x, hx, hq⟩) rfl
    · intro q hq hin
      rcases hv q hin with hin | hin
      · exact hvisited q (List.mem_append_right _ hq) hin
      · exact hdis q hin q hq rfl
    · rw [List.flatMap_cons, dropAll_append]
      exact hr

theorem primaryBuckets_stores {page : Page} {count : Nat} {directory : Nat → PageId}
    (hs : HashIndexHeaderPage.Stores page.data count directory) (left : Nat) :
    ∀ index, index + left ≤ count → primaryBuckets page left index =
      .ok (((List.range' index left).filter fun i => directory i ≠ invalidPageId).map
        directory) := by
  induction left with
  | zero =>
    intro index _
    rfl
  | succ left ih =>
    intro index hle
    rw [primaryBuckets, hs.getBucketPageId (by omega), ih (index + 1) (by omega), List.range'_succ]
    by_cases hinv : directory index = invalidPageId <;> simp [hinv]

/-- `Destroy` frees all pages of the index. -/
theorem destroy_runs (hi : IndexHolds h header b) (hshared : ∀ q ∈ b.pages header, ext q = 0) :
    Runs (poolContext ext) (destroy header) (fun r h' => r = .ok () ∧ h'.failed = h.failed ∧
      ∀ x, h'.page x = if x ∈ b.pages header then none else h.page x) h := by
  obtain ⟨d, directory, hd, hs, hchains⟩ := hi.directory
  have hpos := hi.positive
  have hw := hi.wellFormed
  have hs' : HashIndexHeaderPage.Stores (Page.view header d).data b.count directory := hs
  -- the buckets that have pages
  set used := (List.range' 0 b.count).filter fun i => directory i ≠ invalidPageId with hused
  have hlt : ∀ i ∈ used, i < b.count := by
    intro i hi
    have := (List.mem_filter.mp hi).1
    rw [List.mem_range'_1] at this
    omega
  set starts := used.map fun i => (directory i, b.chain i) with hstarts
  have hids : ∀ q, (q ∈ starts.flatMap fun x => chainIds x.2) ↔
      ∃ i < b.count, q ∈ chainIds (b.chain i) := by
    intro q
    rw [hstarts, List.flatMap_map, List.mem_flatMap]
    constructor
    · rintro ⟨i, hi, hq⟩
      exact ⟨i, hlt i hi, hq⟩
    · rintro ⟨i, hi, hq⟩
      refine ⟨i, List.mem_filter.mpr ⟨List.mem_range'_1.mpr (by omega), ?_⟩, hq⟩
      have hc := hchains i hi
      rw [decide_eq_true_eq]
      intro hinv
      cases hch : b.chain i with
      | nil =>
        rw [hch] at hq
        cases hq
      | cons x rest =>
        rw [hch] at hc
        exact ne_invalid_of_pos hc.2.1 (hc.1.symm.trans hinv)
  have hnodup : (starts.flatMap fun x => chainIds x.2).Nodup := by
    rw [hstarts, List.flatMap_map, List.nodup_flatMap]
    refine ⟨fun i hi => hw.nodup i (hlt i hi), ?_⟩
    have hused' : used.Nodup := List.Nodup.filter _ List.nodup_range'
    apply List.Pairwise.imp_of_mem _ hused'
    intro i j hi hj hne q hq
    exact hw.disjoint i (hlt i hi) j (hlt j hj) hne q hq
  have hholds : ∀ x ∈ starts, BucketHolds h x.1 x.2 := by
    intro x hx
    obtain ⟨i, hi, rfl⟩ := List.mem_map.mp hx
    exact hchains i (hlt i hi)
  have hfuel : ∀ x ∈ starts, x.2.length < chainFuel := by
    intro x hx
    obtain ⟨i, hin, rfl⟩ := List.mem_map.mp hx
    exact hi.length_lt (hlt i hin)
  have hmap : starts.map Prod.fst = used.map directory := by
    rw [hstarts, List.map_map]
    rfl
  have hheader : header ∉ starts.flatMap fun x => chainIds x.2 := by
    intro hin
    obtain ⟨i, hi, hq⟩ := (hids header).mp hin
    exact hw.header i hi hq
  rw [destroy, if_neg (by rw [toInt_headerPageId]; omega)]
  refine runs_fetchPage hd fun f => ?_
  dsimp only
  rw [hs'.isInitialized, hs'.getBucketCount,
    primaryBuckets_stores hs' _ 0 (by omega), ← hused, ← hmap]
  refine holding_unpinPage (.inr rfl) ?_
  dsimp only
  have hunshared : ∀ q ∈ starts.flatMap fun x => chainIds x.2, ext q = 0 := by
    intro q hq
    exact hshared q (Buckets.mem_pages.mpr (.inr ((hids q).mp hq)))
  refine ((destroyChains_runs starts [] h hholds hnodup (fun _ _ => List.not_mem_nil) hunshared
    hfuel).mono fun r h' hr => ?_).bind
  obtain ⟨rfl, rfl⟩ := hr
  dsimp only
  refine runs_deletePage ?_ hpos (fun hp => ?_) (runs_pure ⟨rfl, failed_dropAll _ _, fun x => ?_⟩)
  · rw [page_dropAll, if_neg hheader, hd]
    nofun
  · have hlt : 0 < ext header := hp
    rw [hshared header (Buckets.mem_pages.mpr (.inl rfl))] at hlt
    exact Nat.lt_irrefl 0 hlt
  · rw [Heap.page_drop, page_dropAll]
    by_cases hx : x = header
    · rw [if_pos hx, if_pos (Buckets.mem_pages.mpr (.inl hx))]
    · rw [if_neg hx]
      by_cases hin : x ∈ starts.flatMap fun x => chainIds x.2
      · rw [if_pos hin, if_pos (Buckets.mem_pages.mpr (.inr ((hids x).mp hin)))]
      · rw [if_neg hin, if_neg]
        intro hp
        exact hin ((hids x).mpr ((Buckets.mem_pages.mp hp).resolve_left hx))

end

end HashIndex

end MiniDbms
