import MiniDbms.Lib.PageChain
import MiniDbms.Index.BucketPageContents
import MiniDbms.Index.HashIndex

/-!
# The chain of a bucket

The pages of one bucket of a hash index with their entries. `BucketHolds h p chain` says
that the pages `h` hold this chain from `p` on. What the loops of the index do to a chain:
`insertLoop_runs`, `getValueLoop_runs`, `removeLoop_runs`; and how pages are added to it and
changed: `newBucket_runs`, `linkBucket_runs`, `insertIntoPage_runs`.
-/

namespace MiniDbms

open Lib PagedProgram Program HashIndexBucketPage

/-- The pages of a bucket in order, with their entries. -/
abbrev BucketChain := List (PageId × List Entry)

namespace BucketChain

/-- The entries of a bucket. -/
def entries (chain : BucketChain) : List Entry := chain.flatMap Prod.snd

/-- The first page that has room for an entry, or `INVALID_PAGE_ID`. -/
def pageWithSpace (chain : BucketChain) : PageId :=
  ((chain.find? fun x => x.2.length < entryCapacity).map Prod.fst).getD invalidPageId

/-- The last page of the chain, or `last` if there is none. -/
def lastPage (last : PageId) : BucketChain → PageId
  | [] => last
  | (q, _) :: rest => lastPage q rest

@[simp] theorem entries_nil : entries [] = [] := rfl

@[simp] theorem entries_cons (x : PageId × List Entry) (chain : BucketChain) :
    entries (x :: chain) = x.2 ++ entries chain := rfl

@[simp] theorem entries_append (chain chain' : BucketChain) :
    entries (chain ++ chain') = entries chain ++ entries chain' :=
  List.flatMap_append

theorem mem_entries {chain : BucketChain} {e : Entry} :
    e ∈ chain.entries ↔ ∃ x ∈ chain, e ∈ x.2 := List.mem_flatMap

theorem lastPage_append (last : PageId) (pre : BucketChain) (x : PageId × List Entry) :
    lastPage last (pre ++ [x]) = x.1 := by
  induction pre generalizing last with
  | nil => rfl
  | cons y pre ih => exact ih _

/-- The entries of each page without the matching ones, in whatever order. -/
def Removed (key : Bytes) (value : Option RecordID) (chain chain' : BucketChain) : Prop :=
  List.Forall₂ (fun x y => y.1 = x.1 ∧ y.2.Perm (x.2.filter fun e => ¬ Matches key value e))
    chain chain'

variable {chain chain' : BucketChain} {key : Bytes} {value : Option RecordID} {e : Entry}

theorem Removed.ids (h : Removed key value chain chain') : chainIds chain' = chainIds chain := by
  induction h with
  | nil => rfl
  | cons hx _ ih =>
    unfold chainIds at ih ⊢
    rw [List.map_cons, List.map_cons, hx.1, ih]

theorem Removed.entries (h : Removed key value chain chain') :
    chain'.entries.Perm (chain.entries.filter fun e => ¬ Matches key value e) := by
  induction h with
  | nil => exact .refl _
  | cons hx _ ih =>
    rw [entries_cons, entries_cons, List.filter_append]
    exact hx.2.append ih

/-- What is left of a page of the chain. -/
theorem Removed.exists_mem (h : Removed key value chain chain') {x : PageId × List Entry}
    (hx : x ∈ chain) :
    ∃ y ∈ chain', y.2.Perm (x.2.filter fun e => ¬ Matches key value e) := by
  induction h with
  | nil => cases hx
  | cons hhead _ ih =>
    rcases List.mem_cons.mp hx with rfl | hx
    · exact ⟨_, List.mem_cons_self, hhead.2⟩
    · obtain ⟨y, hy, hperm⟩ := ih hx
      exact ⟨y, List.mem_cons_of_mem _ hy, hperm⟩

/-- Where nothing matches, nothing is removed. -/
theorem removed_refl (h : ∀ e ∈ chain.entries, ¬ Matches key value e) :
    Removed key value chain chain := by
  unfold Removed
  rw [List.forall₂_same]
  intro x hx
  refine ⟨rfl, ?_⟩
  rw [List.filter_eq_self.mpr]
  intro e he
  simpa using h e (mem_entries.mpr ⟨x, hx, he⟩)

/-- A pair is put behind the entries of a page that has room, or into a new page behind the full
pages of the chain. -/
inductive Inserted (e : Entry) (chain : BucketChain) : BucketChain → Prop where
  | fit (q : PageId) (pre post : BucketChain) (s : List Entry)
    (hsplit : chain = pre ++ (q, s) :: post)
      (hroom : s.length < entryCapacity) : Inserted e chain (pre ++ (q, s ++ [e]) :: post)
  | append (n : PageId) (hfull : ∀ x ∈ chain, ¬ x.2.length < entryCapacity) :
      Inserted e chain (chain ++ [(n, [e])])

theorem Inserted.entries (h : Inserted e chain chain') :
    chain'.entries.Perm (e :: chain.entries) := by
  cases h with
  | fit q pre post s hsplit hroom =>
    subst hsplit
    rw [entries_append, entries_append, entries_cons, entries_cons]
    dsimp only
    rw [List.append_assoc, List.singleton_append]
    exact (List.perm_middle.append_left _).trans List.perm_middle
  | append n hfull =>
    rw [entries_append]
    exact List.perm_append_singleton e _

theorem Inserted.ids (h : Inserted e chain chain') :
    chainIds chain' = chainIds chain ∨ ∃ n, chainIds chain' = chainIds chain ++ [n] := by
  cases h with
  | fit q pre post s hsplit hroom =>
    subst hsplit
    exact .inl (by simp [chainIds])
  | append n hfull => exact .inr ⟨n, by simp [chainIds]⟩

theorem pageWithSpace_cases (hpos : ∀ q ∈ chainIds chain, 0 < q.toInt) :
    (∃ pre q s post, chain = pre ++ (q, s) :: post ∧ s.length < entryCapacity ∧
      chain.pageWithSpace = q ∧ q ≠ invalidPageId) ∨
    (chain.pageWithSpace = invalidPageId ∧ ∀ x ∈ chain, ¬ x.2.length < entryCapacity) := by
  unfold pageWithSpace
  cases hf : chain.find? fun x => x.2.length < entryCapacity with
  | some x =>
    obtain ⟨q, s⟩ := x
    have hin := List.mem_of_find?_eq_some hf
    have hroom := List.find?_some hf
    rw [decide_eq_true_eq] at hroom
    obtain ⟨pre, post, hsplit⟩ := List.append_of_mem hin
    exact .inl ⟨pre, q, s, post, hsplit, hroom, rfl,
      ne_invalid_of_pos (hpos q (List.mem_map_of_mem hin))⟩
  | none =>
    refine .inr ⟨rfl, fun x hx => ?_⟩
    have := List.find?_eq_none.mp hf x hx
    simpa using this

end BucketChain

namespace HashIndex

/-- The pages hold a chain of bucket pages that starts at the given page. -/
abbrev BucketHolds (h : Pages) (p : PageId) (chain : BucketChain) : Prop :=
  LinkedFrom (fun d _ next entries => Stores d next entries.length entries) (fun q => 0 < q.toInt)
    invalidPageId h p chain

section

variable {h h' : Pages} {p q : PageId} {chain : BucketChain} {key : Bytes} {value : RecordID}
  {ext : PageId → Nat}

/-! ## The loops over one chain -/

theorem pageWithSpace_cons {d : PageData} {next firstPageWithSpace : PageId} {s : List Entry}
    (hs : Stores d next s.length s) (hpos : 0 < q.toInt) (rest : BucketChain) :
    (if insertLoop.pageWithSpace (Page.view q d) firstPageWithSpace = invalidPageId then
        rest.pageWithSpace
      else insertLoop.pageWithSpace (Page.view q d) firstPageWithSpace) =
      if firstPageWithSpace = invalidPageId then BucketChain.pageWithSpace ((q, s) :: rest)
      else firstPageWithSpace := by
  have hs' : Stores (Page.view q d).data next s.length s := hs
  have hid := ne_invalid_of_pos hpos
  unfold insertLoop.pageWithSpace BucketChain.pageWithSpace
  rw [hs'.getEntryCount, List.find?_cons]
  by_cases hf : firstPageWithSpace = invalidPageId
  · by_cases hroom : s.length < entryCapacity
    · simp [hf, hroom, hid]
    · simp [hf, hroom]
  · simp [hf]

theorem insertLoop_runs (hk : key.length ≤ maxKeyLength) :
    ∀ (chain : BucketChain) (fuel : Nat) (visited : List PageId)
      (p firstPageWithSpace last : PageId),
      BucketHolds h p chain → (chainIds chain).Nodup → (∀ q ∈ chainIds chain, q ∉ visited) →
      chain.length < fuel →
      Runs (poolContext ext) (insertLoop key value fuel visited p firstPageWithSpace last)
        (fun r h' => h' = h ∧ r = .ok (if (key, value) ∈ chain.entries then none
          else some (if firstPageWithSpace = invalidPageId then chain.pageWithSpace
            else firstPageWithSpace, chain.lastPage last))) h := by
  intro chain
  induction chain with
  | nil =>
    intro fuel visited p firstPageWithSpace last hc _ _ hfuel
    obtain ⟨fuel, rfl⟩ : ∃ n, fuel = n + 1 := ⟨fuel - 1, by simp at hfuel; omega⟩
    have hend : p = invalidPageId := hc
    rw [insertLoop, if_pos hend]
    refine runs_pure ⟨rfl, ?_⟩
    rw [BucketChain.entries_nil, if_neg List.not_mem_nil]
    split
    · rename_i hf
      rw [hf]
      rfl
    · rfl
  | cons x rest ih =>
    intro fuel visited p firstPageWithSpace last hc hnodup hvisited hfuel
    obtain ⟨q, s⟩ := x
    obtain ⟨rfl, hpos, d, next, hd, hs, hrest⟩ := hc
    obtain ⟨fuel, rfl⟩ : ∃ n, fuel = n + 1 := ⟨fuel - 1, by simp at hfuel; omega⟩
    have hid : p ≠ invalidPageId := ne_invalid_of_pos hpos
    obtain ⟨hnot, hnodup'⟩ := List.nodup_cons.mp hnodup
    have hs' : Stores (Page.view p d).data next s.length s := hs
    have hloop : (key, value) ∉ s → Runs (poolContext ext)
        (insertLoop key value fuel (p :: visited) (getOverflowPageId (Page.view p d))
          (insertLoop.pageWithSpace (Page.view p d) firstPageWithSpace) p)
        (fun r h' => h' = h ∧
          r = .ok (if (key, value) ∈ BucketChain.entries ((p, s) :: rest) then none
          else some (if firstPageWithSpace = invalidPageId then
            BucketChain.pageWithSpace ((p, s) :: rest)
            else firstPageWithSpace, BucketChain.lastPage last ((p, s) :: rest)))) h := by
      intro hnots
      rw [hs'.getOverflowPageId]
      refine (ih fuel (p :: visited) next _ p hrest hnodup' ?_ ?_).mono fun r h' hr => ?_
      · intro q hq hv
        rcases List.mem_cons.mp hv with rfl | hv
        · exact hnot hq
        · exact hvisited q (List.mem_cons_of_mem _ hq) hv
      · simp only [List.length_cons] at hfuel
        omega
      · obtain ⟨rfl, rfl⟩ := hr
        refine ⟨rfl, ?_⟩
        rw [pageWithSpace_cons hs hpos]
        simp only [BucketChain.entries_cons, List.mem_append, hnots, false_or]
        rfl
    rw [insertLoop, if_neg hid, if_neg (hvisited p List.mem_cons_self)]
    refine runs_fetchPage hd fun f => ?_
    dsimp only
    rw [hs'.isInitialized]
    rcases getValue_stores hs' hk with hv | ⟨hv, e, he, hcode⟩
    · rw [hv]
      refine holding_unpinPage (.inr rfl) ?_
      dsimp only
      have hmem : value ∈ (s.filter fun e => e.1 = key).map Prod.snd ↔ (key, value) ∈ s := by
        simp only [List.mem_map, List.mem_filter, decide_eq_true_eq]
        constructor
        · rintro ⟨⟨k, v⟩, ⟨hin, rfl⟩, rfl⟩
          exact hin
        · intro hin
          exact ⟨(key, value), ⟨hin, rfl⟩, rfl⟩
      split
      · rename_i hin
        refine runs_pure ⟨rfl, ?_⟩
        rw [BucketChain.entries_cons, if_pos (List.mem_append_left _ (hmem.mp hin))]
      · rename_i hnots
        exact hloop fun hin => hnots (hmem.mpr hin)
    · rw [he]
      dsimp only
      rw [if_neg (not_not.mpr hcode)]
      refine holding_unpinPage (.inr rfl) ?_
      apply hloop
      intro hin
      have hmem : (key, value) ∈ s.filter fun e => e.1 = key := List.mem_filter.mpr ⟨hin, by simp⟩
      rw [hv] at hmem
      cases hmem

theorem getValueLoop_runs (hk : key.length ≤ maxKeyLength) :
    ∀ (chain : BucketChain) (fuel : Nat) (visited : List PageId) (p : PageId)
      (found : List RecordID),
      BucketHolds h p chain → (chainIds chain).Nodup → (∀ q ∈ chainIds chain, q ∉ visited) →
      chain.length < fuel →
      Runs (poolContext ext) (getValueLoop key fuel visited p found)
        (fun r h' => h' = h ∧
          r = .ok (found ++ (chain.entries.filter fun e => e.1 = key).map Prod.snd)) h := by
  intro chain
  induction chain with
  | nil =>
    intro fuel visited p found hc _ _ hfuel
    obtain ⟨fuel, rfl⟩ : ∃ n, fuel = n + 1 := ⟨fuel - 1, by simp at hfuel; omega⟩
    have hend : p = invalidPageId := hc
    rw [getValueLoop, if_pos hend]
    exact runs_pure ⟨rfl, by simp⟩
  | cons x rest ih =>
    intro fuel visited p found hc hnodup hvisited hfuel
    obtain ⟨q, s⟩ := x
    obtain ⟨rfl, hpos, d, next, hd, hs, hrest⟩ := hc
    obtain ⟨fuel, rfl⟩ : ∃ n, fuel = n + 1 := ⟨fuel - 1, by simp at hfuel; omega⟩
    have hid : p ≠ invalidPageId := ne_invalid_of_pos hpos
    obtain ⟨hnot, hnodup'⟩ := List.nodup_cons.mp hnodup
    have hs' : Stores (Page.view p d).data next s.length s := hs
    have hloop := fun found => ih fuel (p :: visited) next found hrest hnodup' (by
      intro q hq hv
      rcases List.mem_cons.mp hv with rfl | hv
      · exact hnot hq
      · exact hvisited q (List.mem_cons_of_mem _ hq) hv) (by
      simp only [List.length_cons] at hfuel
      omega)
    rw [getValueLoop, if_neg hid, if_neg (hvisited p List.mem_cons_self)]
    refine runs_fetchPage hd fun f => ?_
    dsimp only
    rw [hs'.isInitialized, hs'.getOverflowPageId]
    refine holding_unpinPage (.inr rfl) ?_
    rcases getValue_stores hs' hk with hv | ⟨hv, e, he, hcode⟩
    · rw [hv]
      refine (hloop _).mono fun r h' hr => ?_
      rw [BucketChain.entries_cons, List.filter_append, List.map_append, ← List.append_assoc]
      exact hr
    · rw [he]
      dsimp only
      rw [if_neg (not_not.mpr hcode)]
      refine (hloop _).mono fun r h' hr => ?_
      rw [BucketChain.entries_cons, List.filter_append, hv, List.nil_append]
      exact hr

/-- What the loop of `RemoveInternal` does to a chain. -/
structure ChainRemoves (h : Pages) (p : PageId) (chain : BucketChain) (key : Bytes)
    (value : Option RecordID) (chain' : BucketChain) (removed : Nat) (h' : Pages) : Prop where
  holds : BucketHolds h' p chain'
  kept : BucketChain.Removed key value chain chain'
  none : removed = 0 → h' = h ∧ ∀ e ∈ chain.entries, ¬ Matches key value e
  some : removed ≠ 0 → ∃ e ∈ chain.entries, Matches key value e
  failed : h'.failed = h.failed
  same : ∀ x, x ∉ chainIds chain → h'.page x = h.page x

/-- A pair occurs once, so nothing else matches it. -/
theorem not_matches_of_nodup {l l' : List Entry} (hn : (l ++ l').Nodup) {v : RecordID} {e : Entry}
    (he : e ∈ l) (hm : Matches key (some v) e) : ∀ x ∈ l', ¬ Matches key (some v) x := by
  intro x hx hmx
  have hex : e = x := Prod.ext (hm.1.trans hmx.1.symm) ((hm.2 v rfl).trans (hmx.2 v rfl).symm)
  exact (List.nodup_append.mp hn).2.2 e he x hx hex

theorem removeLoop_runs (hk : key.length ≤ maxKeyLength) (value : Option RecordID) :
    ∀ (chain : BucketChain) (fuel : Nat) (visited : List PageId) (p : PageId) (total : Nat)
      (h : Pages), BucketHolds h p chain → (chainIds chain).Nodup → chain.entries.Nodup →
      (∀ q ∈ chainIds chain, q ∉ visited) → chain.length < fuel → (value.isSome → total = 0) →
      Runs (poolContext ext) (removeLoop key value fuel visited p total)
        (fun r h' => ∃ chain' k, r = .ok (total + k) ∧ ChainRemoves h p chain key value chain' k h')
        h := by
  intro chain
  induction chain with
  | nil =>
    intro fuel visited p total h hc _ _ _ hfuel _
    obtain ⟨fuel, rfl⟩ : ∃ n, fuel = n + 1 := ⟨fuel - 1, by simp at hfuel; omega⟩
    have hend : p = invalidPageId := hc
    rw [removeLoop, if_pos hend]
    exact runs_pure
      ⟨[], 0, rfl, hc, .nil, fun _ => ⟨rfl, List.forall_mem_nil _⟩, fun h0 => absurd rfl h0, rfl,
      fun _ _ => rfl⟩
  | cons x rest ih =>
    intro fuel visited p total h hc hnodup hentries hvisited hfuel htotal
    obtain ⟨q, s⟩ := x
    obtain ⟨rfl, hpos, d, next, hd, hs, hrest⟩ := hc
    obtain ⟨fuel, rfl⟩ : ∃ n, fuel = n + 1 := ⟨fuel - 1, by simp at hfuel; omega⟩
    have hid : p ≠ invalidPageId := ne_invalid_of_pos hpos
    obtain ⟨hnot, hnodup'⟩ := List.nodup_cons.mp hnodup
    have hs' : Stores (Page.view p d).data next s.length s := hs
    have hsn : s.Nodup := (List.nodup_append.mp hentries).1
    have hrestn : (BucketChain.entries rest).Nodup := (List.nodup_append.mp hentries).2.1
    -- the rest of the chain, in pages that agree on it
    have hloop : ∀ h₁ total, BucketHolds h₁ next rest → (value.isSome → total = 0) →
        Runs (poolContext ext) (removeLoop key value fuel (p :: visited) next total)
          (fun r h' => ∃ chain' k, r = .ok (total + k) ∧
            ChainRemoves h₁ next rest key value chain' k h') h₁ := by
      intro h₁ total hrest₁ ht
      apply ih fuel (p :: visited) next total h₁ hrest₁ hnodup' hrestn _ _ ht
      · intro q hq hv
        rcases List.mem_cons.mp hv with rfl | hv
        · exact hnot hq
        · exact hvisited q (List.mem_cons_of_mem _ hq) hv
      · simp only [List.length_cons] at hfuel
        omega
    rw [removeLoop, if_neg hid, if_neg (hvisited p List.mem_cons_self)]
    refine runs_fetchPage hd fun f => ?_
    dsimp only
    rw [hs'.isInitialized]
    rcases remove_stores hs' hsn hk value with
      ⟨k, page', s', hr, hk0, hdirty, ⟨e, he, hm⟩, hperm, hst⟩ | ⟨hnone, e, hr, hcode⟩
    · rw [hr]
      refine holding_writePage hdirty ?_
      dsimp only
      refine holding_unpinPage (.inr rfl) ?_
      dsimp only
      rw [hst.getOverflowPageId, removeLoop.removeNext]
      have hpage : (h.set p page'.data).page p = some page'.data := Heap.page_set_self ..
      have hrest₁ : BucketHolds (h.set p page'.data) next rest := hrest.set hnot _
      have hsame : ∀ x, x ≠ p → (h.set p page'.data).page x = h.page x := fun x hx =>
        Heap.page_set_of_ne _ hx _
      cases value with
      | some v =>
        rw [if_pos ⟨rfl, by omega⟩]
        refine runs_pure ⟨(p, s') :: rest, k, rfl, ⟨rfl, hpos, _, next, hpage, hst, hrest₁⟩,
          .cons ⟨rfl, hperm⟩ (BucketChain.removed_refl (not_matches_of_nodup hentries he hm)),
          fun h0 => absurd h0 hk0, fun _ => ⟨e, List.mem_append_left _ he, hm⟩, rfl, fun x hx => ?_⟩
        apply hsame
        rintro rfl
        exact hx List.mem_cons_self
      | none =>
        rw [if_neg (by simp)]
        refine (hloop _ (total + k) hrest₁ fun hsome => absurd hsome Bool.false_ne_true).mono
          fun r h' hr => ?_
        obtain ⟨chain', k', rfl, hrem⟩ := hr
        refine ⟨(p, s') :: chain', k + k', by rw [Nat.add_assoc],
          ⟨rfl, hpos, page'.data, next, ?_, hst,
          hrem.holds⟩, .cons ⟨rfl, hperm⟩ hrem.kept, fun h0 => absurd h0 (by omega),
          fun _ => ⟨e, List.mem_append_left _ he, hm⟩, hrem.failed, fun x hx => ?_⟩
        · rw [hrem.same p hnot, hpage]
        · rw [hrem.same x fun hin => hx (List.mem_cons_of_mem _ hin), hsame]
          rintro rfl
          exact hx List.mem_cons_self
    · rw [hr]
      refine holding_writePage_same hd ?_
      dsimp only
      refine holding_unpinPage (.inr rfl) ?_
      dsimp only
      rw [if_neg (not_not.mpr hcode), hs'.getOverflowPageId, removeLoop.removeNext, if_neg]
      · refine (hloop h total hrest htotal).mono fun r h' hr => ?_
        obtain ⟨chain', k, rfl, hrem⟩ := hr
        have hkeep : s.Perm (s.filter fun e => ¬ Matches key value e) := by
          rw [List.filter_eq_self.mpr]
          intro e he
          simpa using hnone e he
        refine ⟨(p, s) :: chain', k, rfl, ⟨rfl, hpos, d, next, ?_, hs, hrem.holds⟩,
          .cons ⟨rfl, hkeep⟩ hrem.kept, fun h0 => ⟨(hrem.none h0).1, fun e he => ?_⟩, fun h0 => ?_,
          hrem.failed, fun x hx => hrem.same x fun hin => hx (List.mem_cons_of_mem _ hin)⟩
        · rw [hrem.same p hnot, hd]
        · rcases List.mem_append.mp he with he | he
          · exact hnone e he
          · exact (hrem.none h0).2 e he
        · obtain ⟨e, he, hm⟩ := hrem.some h0
          exact ⟨e, List.mem_append_right _ he, hm⟩
      · rintro ⟨hsome, hlt⟩
        have := htotal hsome
        omega

/-! ## New and changed bucket pages -/

theorem fillBucket_stores {page : Page} (hid : page.pageId ≠ invalidPageId)
    (hk : key.length ≤ maxKeyLength) (hv : 0 < value.pageId.toInt) :
    ∃ page', fillBucket page key value = (.ok (), page') ∧ page'.isDirty = true ∧
      Stores page'.data invalidPageId 1 [(key, value)] := by
  obtain ⟨d, hinit, hd⟩ := init_stores page hid
  set page₁ : Page := { page with data := d, isDirty := true } with hpage₁
  have hd₁ : Stores page₁.data invalidPageId ([] : List Entry).length [] := hd
  obtain ⟨d', hins, hd'⟩ := insert_absent hd₁ hk hv List.not_mem_nil (by decide)
  refine ⟨{ page₁ with data := d', isDirty := true }, ?_, rfl, hd'⟩
  rw [fillBucket, hinit]
  dsimp only
  rw [hins]

/-- A new bucket page holds the pair, or there is no page to be had. -/
theorem newBucket_runs (hk : key.length ≤ maxKeyLength) (hv : 0 < value.pageId.toInt)
    (allocError unpinError : String) :
    Runs (poolContext ext) (newBucket key value allocError unpinError) (fun r h' =>
      (∃ n d, r = .ok n ∧ h.page n = none ∧ 0 < n.toInt ∧ h' = h.set n d ∧
        Stores d invalidPageId 1 [(key, value)]) ∨
      (∃ e, r = .error e ∧ e.code = .outOfMemory ∧ h' = h.fail)) h := by
  unfold newBucket
  refine runs_newPage ?_ fun n f hn hgood _ => ?_
  · exact runs_pure (.inr ⟨_, rfl, rfl, rfl⟩)
  have hpos : 0 < n.toInt := hgood
  obtain ⟨page, hfill, hdirty, hst⟩ := fillBucket_stores
    (show (Page.view n (poolContext ext).blank).pageId ≠ invalidPageId from ne_invalid_of_pos hpos)
    hk hv
  dsimp only
  rw [hfill]
  refine holding_writePage hdirty ?_
  rw [Heap.set_set]
  refine holding_unpinPage (.inl rfl) ?_
  exact runs_pure (.inl ⟨n, page.data, rfl, hn, hpos, rfl, hst⟩)

/-- A page is linked to the new bucket page. -/
theorem linkBucket_runs {d d' : PageData} {n : PageId} {link : Page → Except Status Unit × Page}
    (hd : h.page q = some d)
    (hlink : link (Page.view q d) = (.ok (), { Page.view q d with data := d', isDirty := true }))
    (fetchError unpinError : String) :
    Runs (poolContext ext) (linkBucket q n link fetchError unpinError)
      (fun r h' => r = .ok () ∧ h' = h.set q d') h := by
  unfold linkBucket
  refine runs_fetchPage hd fun f => ?_
  dsimp only
  rw [hlink]
  refine holding_writePage rfl ?_
  exact holding_unpinPage (.inr rfl) (runs_pure ⟨rfl, rfl⟩)

/-- A pair that the page does not hold is put into a page that has room. -/
theorem insertIntoPage_runs (hc : BucketHolds h p chain) (hnodup : (chainIds chain).Nodup)
    {s : List Entry} (hq : (q, s) ∈ chain) (hroom : s.length < entryCapacity)
    (hk : key.length ≤ maxKeyLength) (hv : 0 < value.pageId.toInt) (hnot : (key, value) ∉ s) :
    Runs (poolContext ext) (insertIntoPage q key value) (fun r h' => r = .ok () ∧
      h'.failed = h.failed ∧ BucketHolds h' p (setNode chain q (s ++ [(key, value)])) ∧
      ∀ x, x ≠ q → h'.page x = h.page x) h := by
  obtain ⟨hpos, d, next, hd, hs⟩ := hc.node_of_mem hq
  have hs' : Stores (Page.view q d).data next s.length s := hs
  obtain ⟨d', hins, hd'⟩ := insert_absent hs' hk hv hnot hroom
  unfold insertIntoPage
  refine runs_fetchPage hd fun f => ?_
  dsimp only
  rw [hins]
  refine holding_writePage rfl ?_
  dsimp only
  refine holding_unpinPage (.inr rfl) (runs_pure ⟨rfl, rfl, ?_, fun x hx => ?_⟩)
  · apply hc.setNode hnodup (List.mem_map_of_mem hq) hd
    intro next₂ s₂ hs₂
    rw [← hs₂.link, hs.link]
    exact hd'
  · exact Heap.page_set_of_ne _ hx _

end

end HashIndex

end MiniDbms
