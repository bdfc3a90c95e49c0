import MiniDbms.Storage.HeapFileContents

/-!
# A heap file is a finite map

Over any run of `InsertRecord`, `UpdateRecord`, `DeleteRecord` and `GetRecord` on the pool, a
heap file behaves as a finite map from record ids to bytes with first-fit placement:
`HeapStep` says what one operation does to the map, `HeapRun` that every operation of a run
does so and that the scans of every state on the way are complete.

* `exec_runs`: one operation, as a step of the map;
* `scan_runs`: `GetFirstRecord` and then `GetNextRecord` until `NOT_FOUND` enumerate the
  live records, each once (`mem_records`, `nodup_records`);
* `heapFile_run`: every run.
-/

namespace MiniDbms

open Lib PagedProgram Program SlottedPage

/-! ## Live records -/

namespace Chain

variable {chain : Chain} {q : PageId} {record : Record}

theorem mem_liveSlots {slots : List (Option Bytes)} {i : Nat} :
    record ∈ liveSlots q i slots ↔
      ∃ j data, slots[j]? = some (some data) ∧
        record = { rid := ⟨q, UInt16.ofNat (i + j)⟩, data := data } := by
  induction slots generalizing i with
  | nil => simp [liveSlots]
  | cons o slots ih =>
    have hrest : (∃ j data, (o :: slots)[j]? = some (some data) ∧
        record = { rid := ⟨q, UInt16.ofNat (i + j)⟩, data := data }) ↔
        (∃ data, o = some data ∧ record = { rid := ⟨q, UInt16.ofNat i⟩, data := data }) ∨
          ∃ j data, slots[j]? = some (some data) ∧
            record = { rid := ⟨q, UInt16.ofNat (i + 1 + j)⟩, data := data } := by
      constructor
      · rintro ⟨j, data, hj, hr⟩
        cases j with
        | zero => exact .inl ⟨data, Option.some.inj hj, hr⟩
        | succ j => exact .inr ⟨j, data, hj, by rw [hr, Nat.add_assoc, Nat.add_comm 1 j]⟩
      · rintro (⟨data, ho, hr⟩ | ⟨j, data, hj, hr⟩)
        · exact ⟨0, data, congrArg some ho, hr⟩
        · exact ⟨j + 1, data, hj, by rw [hr, Nat.add_assoc, Nat.add_comm 1 j]⟩
    rw [hrest]
    cases o with
    | none =>
      rw [liveSlots, ih]
      simp
    | some data =>
      rw [liveSlots, List.mem_cons, ih]
      simp

theorem nodup_liveSlots {slots : List (Option Bytes)} {i : Nat} (hi : i + slots.length ≤ 65536) :
    ((liveSlots q i slots).map Record.rid).Nodup := by
  induction slots generalizing i with
  | nil => exact List.nodup_nil
  | cons o slots ih =>
    rw [List.length_cons] at hi
    cases o with
    | none => exact ih (by omega)
    | some data =>
      rw [liveSlots, List.map_cons, List.nodup_cons]
      refine ⟨fun hin => ?_, ih (by omega)⟩
      obtain ⟨record, hmem, he⟩ := List.mem_map.mp hin
      obtain ⟨j, data', hj, rfl⟩ := mem_liveSlots.mp hmem
      have hlt : j < slots.length := (List.getElem?_eq_some_iff.mp hj).1
      have hslot : UInt16.ofNat (i + 1 + j) = UInt16.ofNat i := congrArg RecordID.slotId he
      have := congrArg UInt16.toNat hslot
      rw [UInt16.toNat_ofNat_of_lt' (show _ < 65536 by omega),
        UInt16.toNat_ofNat_of_lt' (show _ < 65536 by omega)] at this
      omega

/-- Every page of the chain has fewer slots than slot ids. -/
def Bounded (chain : Chain) : Prop := ∀ x ∈ chain, x.2.length ≤ 1020

theorem mem_records (hb : chain.Bounded) (hn : chain.ids.Nodup) :
    record ∈ chain.records ↔ chain.record record.rid = some record.data := by
  induction chain with
  | nil => simp [records, Chain.record, slots, recordAt]
  | cons x rest ih =>
    obtain ⟨q, s⟩ := x
    obtain ⟨hnot, hn'⟩ := List.nodup_cons.mp hn
    have ih := ih (fun y hy => hb y (List.mem_cons_of_mem _ hy)) hn'
    have hlen : s.length ≤ 1020 := hb (q, s) List.mem_cons_self
    rw [records, List.mem_append, ih, record_cons]
    by_cases hq : record.rid.pageId = q
    · have hnone : Chain.record rest record.rid = none := record_of_notMem (hq ▸ hnot)
      rw [if_pos hq, hnone, mem_liveSlots]
      constructor
      · rintro (⟨j, data, hj, rfl⟩ | hc)
        · have hlt : j < s.length := (List.getElem?_eq_some_iff.mp hj).1
          have hslot : (UInt16.ofNat (0 + j)).toNat = j := by
            rw [Nat.zero_add]
            exact UInt16.toNat_ofNat_of_lt' (show j < 65536 by omega)
          exact recordAt_eq_some.mpr (by rw [hslot]; exact hj)
        · cases hc
      · intro hr
        refine .inl ⟨record.rid.slotId.toNat, record.data, recordAt_eq_some.mp hr, ?_⟩
        rw [Nat.zero_add, UInt16.ofNat_toNat, ← hq]
    · rw [if_neg hq, mem_liveSlots]
      constructor
      · rintro (⟨j, data, -, rfl⟩ | hc)
        · exact absurd rfl hq
        · exact hc
      · exact .inr

theorem nodup_records (hb : chain.Bounded) (hn : chain.ids.Nodup) :
    (chain.records.map Record.rid).Nodup := by
  induction chain with
  | nil => exact List.nodup_nil
  | cons x rest ih =>
    obtain ⟨q, s⟩ := x
    obtain ⟨hnot, hn'⟩ := List.nodup_cons.mp hn
    have hb' : Bounded rest := fun y hy => hb y (List.mem_cons_of_mem _ hy)
    have hlen : s.length ≤ 1020 := hb (q, s) List.mem_cons_self
    rw [records, List.map_append, List.nodup_append]
    refine ⟨nodup_liveSlots (by omega), ih hb' hn', fun rid h₁ rid' h₂ => ?_⟩
    rintro rfl
    obtain ⟨r₁, hr₁, rfl⟩ := List.mem_map.mp h₁
    obtain ⟨r₂, hr₂, he⟩ := List.mem_map.mp h₂
    obtain ⟨j, data, -, rfl⟩ := mem_liveSlots.mp hr₁
    have hlive := (mem_records hb' hn').mp hr₂
    rw [he, record_of_notMem hnot] at hlive
    cases hlive

theorem slots_split {pre post : Chain} {s : List (Option Bytes)} {x : PageId} (hq : q ∉ ids pre) :
    slots (pre ++ (q, s) :: post) x = if x = q then s else slots (pre ++ post) x := by
  induction pre with
  | nil => exact slots_cons (q, s) post x
  | cons y pre ih =>
    obtain ⟨hqy, hq'⟩ := not_or.mp (fun h => hq (List.mem_cons.mpr h))
    rw [List.cons_append, slots_cons, ih hq', List.cons_append, slots_cons]
    by_cases hx : x = q
    · rw [if_neg (fun hxy => hqy (hx ▸ hxy)), if_pos hx, if_pos hx]
    · rw [if_neg hx, if_neg hx]

/-- The first record of a scan of a page, and the rest of the scan. -/
theorem liveSlots_eq_cons {t : List (Option Bytes)} {i : Nat} {more : List Record}
    (h : liveSlots q i t = record :: more) :
    ∃ k data, t[k]? = some (some data) ∧
      record = { rid := ⟨q, UInt16.ofNat (i + k)⟩, data := data } ∧
      more = liveSlots q (i + k + 1) (t.drop (k + 1)) := by
  induction t generalizing i with
  | nil => cases h
  | cons o t ih =>
    cases o with
    | none =>
      obtain ⟨k, data, hk, hr, hm⟩ := ih h
      exact ⟨k + 1, data, hk, by rw [hr, Nat.add_assoc, Nat.add_comm 1 k],
        by rw [hm, List.drop_succ_cons, Nat.add_assoc i 1 k, Nat.add_comm 1 k]⟩
    | some data =>
      cases h
      exact ⟨0, data, rfl, rfl, rfl⟩

theorem recordsAfter_zero (chain : Chain) : chain.recordsAfter 0 = chain.records := by
  cases chain <;> rfl

theorem recordsFrom_cons_self (s : List (Option Bytes)) (chain : Chain) (i : Nat) :
    recordsFrom ((q, s) :: chain) q i = recordsAfter i ((q, s) :: chain) := by
  rw [recordsFrom, List.dropWhile_cons_of_neg (by simp)]

theorem recordsFrom_cons_of_ne {y : PageId × List (Option Bytes)} (h : y.1 ≠ q) (chain : Chain)
    (i : Nat) : recordsFrom (y :: chain) q i = recordsFrom chain q i := by
  rw [recordsFrom, List.dropWhile_cons_of_pos (by simp [h]), recordsFrom]

theorem pageId_mem_ids (h : record ∈ chain.records) : record.rid.pageId ∈ ids chain := by
  induction chain with
  | nil => cases h
  | cons y rest ih =>
    rcases List.mem_append.mp h with h | h
    · obtain ⟨j, data, -, rfl⟩ := mem_liveSlots.mp h
      exact List.mem_cons_self
    · exact List.mem_cons_of_mem _ (ih h)

/-- The records of a scan are in pages of the chain. -/
theorem recordsFrom_mem {i : Nat} {more : List Record}
    (h : chain.recordsFrom q i = record :: more) :
    record.rid.pageId ∈ ids chain := by
  induction chain with
  | nil => cases h
  | cons y rest ih =>
    obtain ⟨x, s⟩ := y
    by_cases hx : x = q
    · subst hx
      rw [recordsFrom_cons_self, recordsAfter] at h
      have hin : record ∈ liveSlots x i (s.drop i) ++ records rest := by
        rw [h]
        exact List.mem_cons_self
      rcases List.mem_append.mp hin with hin | hin
      · obtain ⟨j, data, -, rfl⟩ := mem_liveSlots.mp hin
        exact List.mem_cons_self
      · exact List.mem_cons_of_mem _ (pageId_mem_ids hin)
    · rw [recordsFrom_cons_of_ne hx] at h
      exact List.mem_cons_of_mem _ (ih h)

/-- What a scan from a record on returns is what comes after it. -/
theorem recordsAfter_next (hb : chain.Bounded) (hn : (ids chain).Nodup) {i : Nat}
    {more : List Record} (h : chain.recordsAfter i = record :: more) :
    chain.recordsFrom record.rid.pageId (record.rid.slotId.toNat + 1) = more := by
  induction chain generalizing i with
  | nil => cases h
  | cons y rest ih =>
    obtain ⟨q, s⟩ := y
    obtain ⟨hnot, hn'⟩ := List.nodup_cons.mp hn
    have hlen : s.length ≤ 1020 := hb (q, s) List.mem_cons_self
    rw [recordsAfter] at h
    cases hl : liveSlots q i (s.drop i) with
    | cons record' more' =>
      rw [hl, List.cons_append] at h
      obtain ⟨rfl, rfl⟩ := List.cons.inj h
      obtain ⟨k, data, hk, rfl, rfl⟩ := liveSlots_eq_cons hl
      rw [List.getElem?_drop] at hk
      have hlt : i + k < s.length := (List.getElem?_eq_some_iff.mp hk).1
      rw [recordsFrom_cons_self, recordsAfter,
        UInt16.toNat_ofNat_of_lt' (show _ < 65536 by omega), List.drop_drop]
      rfl
    | nil =>
      rw [hl, List.nil_append] at h
      have hin : record.rid.pageId ∈ ids rest :=
        pageId_mem_ids (by rw [h]; exact List.mem_cons_self)
      rw [recordsFrom_cons_of_ne (by rintro rfl; exact hnot hin)]
      exact ih (fun z hz => hb z (List.mem_cons_of_mem _ hz)) hn' ((recordsAfter_zero rest).trans h)

theorem recordsFrom_next (hb : chain.Bounded) (hn : (ids chain).Nodup) {i : Nat}
    {more : List Record} (h : chain.recordsFrom q i = record :: more) :
    chain.recordsFrom record.rid.pageId (record.rid.slotId.toNat + 1) = more := by
  induction chain with
  | nil => cases h
  | cons y rest ih =>
    obtain ⟨x, s⟩ := y
    by_cases hx : x = q
    · subst hx
      rw [recordsFrom_cons_self] at h
      exact recordsAfter_next hb hn h
    · obtain ⟨hnot, hn'⟩ := List.nodup_cons.mp hn
      rw [recordsFrom_cons_of_ne hx] at h
      have hnext := ih (fun z hz => hb z (List.mem_cons_of_mem _ hz)) hn' h
      rw [recordsFrom_cons_of_ne, hnext]
      rintro rfl
      exact hnot (recordsFrom_mem h)

end Chain

/-! ## The operations -/

/-- An operation on a heap file. -/
inductive HeapOp where
  | insertRecord (data : Bytes)
  | updateRecord (rid : RecordID) (data : Bytes)
  | deleteRecord (rid : RecordID)
  | getRecord (rid : RecordID)
  | getFirstRecord
  | getNextRecord (rid : RecordID)

/-- What an operation returns. -/
inductive HeapResult where
  | inserted (r : Except Status RecordID)
  | changed (r : Except Status Unit)
  | read (r : Except Status Record)

namespace HeapOp

def exec (firstPageId : PageId) : HeapOp → Program HeapResult
  | .insertRecord data => do return .inserted (← HeapFile.insertRecord firstPageId data)
  | .updateRecord rid data => do
    return .changed (← HeapFile.updateRecord { rid := rid, data := data })
  | .deleteRecord rid => do return .changed (← HeapFile.deleteRecord rid)
  | .getRecord rid => do return .read (← HeapFile.getRecord rid)
  | .getFirstRecord => do return .read (← HeapFile.getFirstRecord firstPageId)
  | .getNextRecord rid => do return .read (← HeapFile.getNextRecord rid)

/-- Records of 1 to 4096 bytes, and ids of the heap's own pages. -/
def Valid (chain : Chain) : HeapOp → Prop
  | .insertRecord data => data ≠ [] ∧ data.length ≤ 4096
  | .updateRecord rid data => rid.pageId ∈ chain.ids ∧ data ≠ [] ∧ data.length ≤ 4096
  | .deleteRecord rid | .getRecord rid | .getNextRecord rid => rid.pageId ∈ chain.ids
  | .getFirstRecord => True

end HeapOp

/-- Where a record of these bytes goes: into the lowest free slot of the first page that has room
for it, or into slot 0 of a new page when no page has room. -/
inductive Placed (chain : Chain) (data : Bytes) : RecordID → Chain → Prop where
  | fit (q : PageId) (pre post : Chain) (slots : List (Option Bytes))
      (split : chain = pre ++ (q, slots) :: post)
      (full : ∀ x ∈ pre, ¬ HasRoom x.2 data.length)
      (room : HasRoom slots data.length)
      (lowest : ∀ i, i < freeSlot slots → recordAt slots i ≠ none) :
      Placed chain data ⟨q, UInt16.ofNat (freeSlot slots)⟩
        (pre ++ (q, putRecord slots data) :: post)
  | append (n : PageId) (full : ∀ x ∈ chain, ¬ HasRoom x.2 data.length) (new : n ∉ chain.ids) :
      Placed chain data ⟨n, 0⟩ (chain ++ [(n, [some data])])

/-- The map is changed at one id at most, where it has the value `o` afterwards. -/
def ChangedAt (chain : Chain) (rid : RecordID) (o : Option Bytes) (chain' : Chain) : Prop :=
  ∀ x, chain'.record x = if x = rid then o else chain.record x

/-- One call of a scan returns the first of the records that are left, or `NOT_FOUND`. -/
def Scans (records : List Record) (r : Except Status Record) : Prop :=
  match records with
  | record :: _ => r = .ok record
  | [] => ∃ e, r = .error e ∧ e.code = .notFound

/-- What one operation does to the map of a heap file, and what it returns. -/
def HeapStep (chain : Chain) : HeapOp → HeapResult → Chain → Prop
  | .insertRecord data, .inserted (.ok rid), chain' =>
    chain.record rid = none ∧ ChangedAt chain rid (some data) chain' ∧ Placed chain data rid chain'
  | .insertRecord data, .inserted (.error _), chain' =>
    chain' = chain ∧ ∀ x ∈ chain, ¬ HasRoom x.2 data.length
  | .updateRecord rid data, .changed (.ok ()), chain' =>
    chain.record rid ≠ none ∧ ChangedAt chain rid (some data) chain' ∧ chain'.ids = chain.ids
  | .updateRecord rid _, .changed (.error e), chain' =>
    chain' = chain ∧ (e.code = .notFound ↔ chain.record rid = none)
  | .deleteRecord rid, .changed (.ok ()), chain' =>
    chain.record rid ≠ none ∧ ChangedAt chain rid none chain' ∧ chain'.ids = chain.ids
  | .deleteRecord rid, .changed (.error e), chain' =>
    chain' = chain ∧ e.code = .notFound ∧ chain.record rid = none
  | .getRecord rid, .read (.ok record), chain' =>
    chain' = chain ∧ record.rid = rid ∧ chain.record rid = some record.data
  | .getRecord rid, .read (.error e), chain' =>
    chain' = chain ∧ e.code = .notFound ∧ chain.record rid = none
  | .getFirstRecord, .read r, chain' => chain' = chain ∧ Scans chain.records r
  | .getNextRecord rid, .read r, chain' =>
    chain' = chain ∧ Scans (chain.recordsFrom rid.pageId (rid.slotId.toNat + 1)) r
  | _, _, _ => False

namespace HeapFile

variable {h h' : Pages} {p : PageId} {chain chain' : Chain} {data : Bytes} {rid : RecordID}
  {ext : PageId → Nat}

/-- A heap file in the pages `h`. -/
structure HeapHolds (h : Pages) (firstPageId : PageId) (chain : Chain) : Prop where
  holds : ChainHolds h firstPageId chain
  nodup : chain.ids.Nodup
  nonempty : chain ≠ []

theorem ChainHolds.bounded (hc : ChainHolds h p chain) : chain.Bounded := by
  induction chain generalizing p with
  | nil => nofun
  | cons x rest ih =>
    obtain ⟨-, -, d, next, -, hs, hrest⟩ := hc
    intro y hy
    rcases List.mem_cons.mp hy with rfl | hy
    · have := hs.length_lt
      omega
    · exact ih hrest y hy

theorem insertInto_placed (hi : insertInto data chain = some (rid, chain')) :
    Placed chain data rid chain' := by
  suffices ∃ q pre post slots, chain = pre ++ (q, slots) :: post ∧
      (∀ x ∈ pre, ¬ HasRoom x.2 data.length) ∧ HasRoom slots data.length ∧
      rid = ⟨q, UInt16.ofNat (freeSlot slots)⟩ ∧
        chain' = pre ++ (q, putRecord slots data) :: post by
    obtain ⟨q, pre, post, slots, hsplit, hfull, hroom, rfl, rfl⟩ := this
    refine .fit q pre post slots hsplit hfull hroom fun i hi => ?_
    obtain ⟨b, hb⟩ := recordAt_of_lt_freeSlot hi
    rw [hb]
    exact Option.some_ne_none _
  induction chain generalizing chain' with
  | nil => cases hi
  | cons x rest ih =>
    obtain ⟨q, slots⟩ := x
    rw [insertInto] at hi
    split at hi
    · rename_i hroom
      cases hi
      exact ⟨q, [], rest, slots, rfl, List.forall_mem_nil _, hroom, rfl, rfl⟩
    · rename_i hfull
      split at hi
      · rename_i rid' rest' hrest
        cases hi
        obtain ⟨q', pre, post, slots', rfl, hfull', hroom, hrid, rfl⟩ := ih hrest
        refine ⟨q', (q, slots) :: pre, post, slots', rfl, fun x hx => ?_, hroom, hrid, rfl⟩
        rcases List.mem_cons.mp hx with rfl | hx
        · exact hfull
        · exact hfull' x hx
      · cases hi

theorem insertInto_none (hi : insertInto data chain = none) :
    ∀ x ∈ chain, ¬ HasRoom x.2 data.length := by
  induction chain with
  | nil => nofun
  | cons x rest ih =>
    rw [insertInto] at hi
    split at hi
    · cases hi
    · rename_i hfull
      split at hi
      · cases hi
      · rename_i hrest
        intro y hy
        rcases List.mem_cons.mp hy with rfl | hy
        · exact hfull
        · exact ih hrest y hy

/-- A placed record was not live, and nothing else changes. -/
theorem changedAt_of_placed (hp : Placed chain data rid chain') (hn : chain.ids.Nodup)
    (hb : chain.Bounded) :
    chain.record rid = none ∧ ChangedAt chain rid (some data) chain' := by
  cases hp with
  | fit q pre post slots hsplit hfull hroom hlow =>
    subst hsplit
    have hq : q ∉ Chain.ids pre := by
      intro hin
      rw [Chain.ids, chainIds, List.map_append, List.nodup_append] at hn
      exact hn.2.2 q hin q List.mem_cons_self rfl
    have hlen : slots.length ≤ 1020 := hb (q, slots) (by simp)
    have hfree : (UInt16.ofNat (freeSlot slots)).toNat = freeSlot slots := by
      have := freeSlot_le slots
      exact UInt16.toNat_ofNat_of_lt' (show _ < 65536 by omega)
    constructor
    · rw [Chain.record, Chain.slots_split hq, if_pos rfl, hfree, recordAt_freeSlot]
    · intro x
      rw [Chain.record, Chain.record, Chain.slots_split hq, Chain.slots_split hq]
      by_cases hx : x.pageId = q
      · rw [if_pos hx, if_pos hx, recordAt_putRecord]
        have hiff : x.slotId.toNat = freeSlot slots ↔ x = ⟨q, UInt16.ofNat (freeSlot slots)⟩ := by
          constructor
          · intro he
            have hs : x.slotId = UInt16.ofNat (freeSlot slots) := by
              rw [← he, UInt16.ofNat_toNat]
            rw [← hx, ← hs]
          · rintro rfl
            exact hfree
        simp only [hiff]
      · rw [if_neg hx, if_neg hx, if_neg]
        rintro rfl
        exact hx rfl
  | append n hfull hnew =>
    have hsplit : ∀ x, Chain.slots (chain ++ [(n, [some data])]) x =
        if x = n then [some data] else chain.slots x := by
      intro x
      rw [Chain.slots_split hnew, List.append_nil]
    constructor
    · exact Chain.record_of_notMem hnew
    · intro x
      rw [Chain.record, hsplit]
      by_cases hx : x.pageId = n
      · rw [if_pos hx]
        by_cases hs : x.slotId = 0
        · rw [hs, if_pos (by rw [← hx, ← hs])]
          rfl
        · rw [if_neg (by rintro rfl; exact hs rfl), Chain.record_of_notMem (hx ▸ hnew)]
          have hpos : x.slotId.toNat ≠ 0 := fun h0 => hs (UInt16.toNat.inj h0)
          obtain ⟨k, hk⟩ := Nat.exists_eq_succ_of_ne_zero hpos
          rw [hk]
          rfl
      · rw [if_neg hx, if_neg (by rintro rfl; exact hx rfl)]
        rfl

theorem ids_of_placed (hp : Placed chain data rid chain') :
    chain'.ids = chain.ids ∨ (rid.pageId ∉ chain.ids ∧ chain'.ids = chain.ids ++ [rid.pageId]) := by
  cases hp with
  | fit q pre post slots hsplit =>
    subst hsplit
    exact .inl (by simp [Chain.ids, chainIds])
  | append n hfull hnew => exact .inr ⟨hnew, by simp [Chain.ids, chainIds]⟩

theorem nodup_of_placed (hp : Placed chain data rid chain') (hn : chain.ids.Nodup) :
    chain'.ids.Nodup := by
  rcases ids_of_placed hp with he | ⟨hnew, he⟩
  · rw [he]
    exact hn
  · rw [he]
    refine List.nodup_append.mpr ⟨hn, List.nodup_singleton _, fun a ha b hb => ?_⟩
    rw [List.mem_singleton] at hb
    rintro rfl
    exact hnew (hb ▸ ha)

/-- Replacing the slots of one page at one slot changes the map at one id. -/
theorem changedAt_setSlots {s : List (Option Bytes)} {o : Option Bytes}
    (hq : rid.pageId ∈ chain.ids)
    (hs : ∀ j, recordAt s j =
      if j = rid.slotId.toNat then o else recordAt (chain.slots rid.pageId) j) :
    ChangedAt chain rid o (chain.setSlots rid.pageId s) := by
  intro x
  rw [Chain.record, Chain.slots_setSlots hq, Chain.record]
  by_cases hx : x.pageId = rid.pageId
  · rw [if_pos hx, hs, ← hx]
    have hiff : x.slotId.toNat = rid.slotId.toNat ↔ x = rid := by
      constructor
      · intro he
        obtain ⟨xp, xs⟩ := x
        obtain ⟨rp, rs⟩ := rid
        cases UInt16.toNat.inj he
        cases hx
        rfl
      · rintro rfl
        rfl
    simp only [hiff]
  · rw [if_neg hx, if_neg (by rintro rfl; exact hx rfl)]

/-- One operation is one step of the map. -/
theorem exec_runs (hh : HeapHolds h p chain) {op : HeapOp} (hv : op.Valid chain) :
    Runs (poolContext ext) (op.exec p)
      (fun r h' => ∃ chain', HeapStep chain op r chain' ∧ HeapHolds h' p chain') h := by
  obtain ⟨hc, hn, hne⟩ := hh
  have hb := hc.bounded
  cases op with
  | insertRecord data =>
    refine ((insertRecord_runs hc hne hn hv.1 hv.2).mono fun r h' hr => ?_).bind
    refine runs_pure ?_
    unfold Inserts at hr
    cases hi : insertInto data chain with
    | some x =>
      obtain ⟨rid, chain'⟩ := x
      rw [hi] at hr
      obtain ⟨rfl, hc', -, -⟩ := hr
      have hp := insertInto_placed hi
      obtain ⟨hnone, hch⟩ := changedAt_of_placed hp hn hb
      refine ⟨chain', ⟨hnone, hch, hp⟩, hc', nodup_of_placed hp hn, ?_⟩
      cases hp <;> simp
    | none =>
      rw [hi] at hr
      have hfull := insertInto_none hi
      rcases hr with ⟨n, rfl, hfresh, -, hc', -, -⟩ | ⟨e, rfl, hsame, -⟩
      · have hnew : n ∉ chain.ids := fun hin => hc.page_ne_none hin hfresh
        have hp : Placed chain data ⟨n, 0⟩ (chain ++ [(n, [some data])]) := .append n hfull hnew
        obtain ⟨hnone, hch⟩ := changedAt_of_placed hp hn hb
        exact ⟨_, ⟨hnone, hch, hp⟩, hc', nodup_of_placed hp hn, by simp⟩
      · exact ⟨chain, ⟨rfl, hfull⟩, hc.congr fun q _ => by rw [hsame], hn, hne⟩
  | updateRecord rid data =>
    refine ((updateRecord_runs hc hn { rid := rid, data := data } hv.1 hv.2.1 hv.2.2).mono
      fun r h' hr => ?_).bind
    refine runs_pure ?_
    cases ho : chain.record rid with
    | some old =>
      rw [ho] at hr
      dsimp only at hr
      split at hr
      · obtain ⟨rfl, -, -, hc'⟩ := hr
        refine ⟨_, ⟨by rw [ho]; nofun, changedAt_setSlots hv.1 fun j => ?_,
          Chain.ids_setSlots _ _ _⟩, hc', by rw [Chain.ids_setSlots]; exact hn, ?_⟩
        · exact recordAt_set (lt_of_recordAt ho) _
        · intro hnil
          exact hne (List.map_eq_nil_iff.mp hnil)
      · obtain ⟨⟨e, rfl, hcode⟩, rfl⟩ := hr
        refine ⟨chain, ⟨rfl, ?_⟩, hc, hn, hne⟩
        rw [hcode, ho]
        exact ⟨nofun, nofun⟩
    | none =>
      rw [ho] at hr
      obtain ⟨⟨e, rfl, hcode⟩, rfl⟩ := hr
      exact ⟨chain, ⟨rfl, fun _ => ho, fun _ => hcode⟩, hc, hn, hne⟩
  | deleteRecord rid =>
    refine ((deleteRecord_runs hc hn hv).mono fun r h' hr => ?_).bind
    refine runs_pure ?_
    cases ho : chain.record rid with
    | some old =>
      rw [ho] at hr
      obtain ⟨rfl, -, -, hc'⟩ := hr
      refine ⟨_, ⟨by rw [ho]; nofun, changedAt_setSlots hv fun j => ?_, Chain.ids_setSlots _ _ _⟩,
        hc', by rw [Chain.ids_setSlots]; exact hn, ?_⟩
      · rw [recordAt_rdropWhile, recordAt_set (lt_of_recordAt ho)]
      · intro hnil
        exact hne (List.map_eq_nil_iff.mp hnil)
    | none =>
      rw [ho] at hr
      obtain ⟨⟨e, rfl, hcode⟩, rfl⟩ := hr
      exact ⟨chain, ⟨rfl, hcode, ho⟩, hc, hn, hne⟩
  | getRecord rid =>
    refine ((getRecord_runs hc hv).mono fun r h' hr => ?_).bind
    refine runs_pure ?_
    obtain ⟨rfl, hr⟩ := hr
    cases ho : chain.record rid with
    | some data =>
      rw [ho] at hr
      subst hr
      exact ⟨chain, ⟨rfl, rfl, ho⟩, hc, hn, hne⟩
    | none =>
      rw [ho] at hr
      obtain ⟨e, rfl, hcode⟩ := hr
      exact ⟨chain, ⟨rfl, hcode, ho⟩, hc, hn, hne⟩
  | getFirstRecord =>
    refine ((getFirstRecord_runs hc hn).mono fun r h' hr => ?_).bind
    refine runs_pure ?_
    obtain ⟨rfl, hr⟩ := hr
    exact ⟨chain, ⟨rfl, hr⟩, hc, hn, hne⟩
  | getNextRecord rid =>
    refine ((getNextRecord_runs hc hn hv).mono fun r h' hr => ?_).bind
    refine runs_pure ?_
    obtain ⟨rfl, hr⟩ := hr
    exact ⟨chain, ⟨rfl, hr⟩, hc, hn, hne⟩

/-! ## Scans -/

/-- A client calls `GetNextRecord` until `NOT_FOUND`, for at most `fuel` records. -/
def collect : Nat → Except Status Record → Program (List Record)
  | 0, _ => .diverge
  | _ + 1, .error e => if e.code = .notFound then return [] else .diverge
  | fuel + 1, .ok record => do
    let more ← collect fuel (← getNextRecord record.rid)
    return record :: more

/-- `GetFirstRecord`, then `GetNextRecord` until `NOT_FOUND`. -/
def scan (firstPageId : PageId) (fuel : Nat) : Program (List Record) := do
  collect fuel (← getFirstRecord firstPageId)

theorem collect_runs (hc : ChainHolds h p chain) (hn : chain.ids.Nodup) :
    ∀ (fuel : Nat) (records : List Record) (r : Except Status Record), Scans records r →
      (∀ record more, records = record :: more → record.rid.pageId ∈ chain.ids ∧
        chain.recordsFrom record.rid.pageId (record.rid.slotId.toNat + 1) = more) →
      records.length < fuel →
      Runs (poolContext ext) (collect fuel r) (fun l h' => h' = h ∧ l = records) h := by
  intro fuel
  induction fuel with
  | zero => exact fun _ _ _ _ hlt => absurd hlt (Nat.not_lt_zero _)
  | succ fuel ih =>
    intro records r hr hnext hlt
    cases records with
    | nil =>
      obtain ⟨e, rfl, hcode⟩ := hr
      rw [collect, if_pos hcode]
      exact runs_pure ⟨rfl, rfl⟩
    | cons record more =>
      cases hr
      obtain ⟨hin, hmore⟩ := hnext record more rfl
      rw [collect]
      refine ((getNextRecord_runs hc hn hin).mono fun r h' hr => ?_).bind
      obtain ⟨rfl, hr⟩ := hr
      rw [hmore] at hr
      refine ((ih more r hr (fun record' more' he => ?_) ?_).mono fun l h' hl => ?_).bind
      · rw [he] at hmore
        exact ⟨Chain.recordsFrom_mem hmore, Chain.recordsFrom_next hc.bounded hn hmore⟩
      · rw [List.length_cons] at hlt
        omega
      · obtain ⟨rfl, rfl⟩ := hl
        exact runs_pure ⟨rfl, rfl⟩

/-- A scan enumerates the live records in the order of the chain and of the slots. -/
theorem scan_runs (hh : HeapHolds h p chain) {fuel : Nat} (hfuel : chain.records.length < fuel) :
    Runs (poolContext ext) (scan p fuel) (fun l h' => h' = h ∧ l = chain.records) h := by
  refine ((getFirstRecord_runs hh.holds hh.nodup).mono fun r h' hr => ?_).bind
  obtain ⟨rfl, hr⟩ := hr
  refine collect_runs hh.holds hh.nodup fuel chain.records r hr (fun record more he => ?_) hfuel
  have hin : record ∈ chain.records := by
    rw [he]
    exact List.mem_cons_self
  exact ⟨Chain.pageId_mem_ids hin, Chain.recordsAfter_next hh.holds.bounded hh.nodup
    ((Chain.recordsAfter_zero chain).trans he)⟩

/-! ## Runs -/

/-- A scan of the pool enumerates every live record exactly once. -/
def ScanComplete (firstPageId : PageId) (w : BufferPoolManager) (chain : Chain) : Prop :=
  (∀ fuel, chain.records.length < fuel →
    ∃ w', (scan firstPageId fuel).run w = some (chain.records, w')) ∧
  (chain.records.map Record.rid).Nodup ∧
  ∀ record, record ∈ chain.records ↔ chain.record record.rid = some record.data

/-- Every operation of the run, made with an id of the heap's own pages and with a record of 1 to
4096 bytes, ends and is a step of the map; the scans of every state on the way are complete. -/
def HeapRun (firstPageId : PageId) : BufferPoolManager → Chain → List HeapOp → Prop
  | w, chain, [] => ScanComplete firstPageId w chain
  | w, chain, op :: ops =>
    ScanComplete firstPageId w chain ∧
      (op.Valid chain → ∃ r w' chain', (op.exec firstPageId).run w = some (r, w') ∧
        HeapStep chain op r chain' ∧ HeapRun firstPageId w' chain' ops)

theorem scanComplete_of_holds {w : BufferPoolManager} (hw : Holds ext w h)
    (hh : HeapHolds h p chain) : ScanComplete p w chain := by
  refine ⟨fun fuel hfuel => ?_, Chain.nodup_records hh.holds.bounded hh.nodup,
    fun record => Chain.mem_records hh.holds.bounded hh.nodup⟩
  obtain ⟨l, w', h', hrun, ⟨-, rfl⟩, -⟩ := run_of_runs hw (scan_runs hh hfuel)
  exact ⟨w', hrun⟩

/-- A heap file refines a finite map with first-fit placement, over every run on a pool whose disk
reads and writes succeed and that has a frame left, whatever pins the other clients hold. -/
theorem heapFile_run {w : BufferPoolManager} (hw : Holds ext w h) (hh : HeapHolds h p chain)
    (ops : List HeapOp) : HeapRun p w chain ops := by
  induction ops generalizing w h chain with
  | nil => exact scanComplete_of_holds hw hh
  | cons op ops ih =>
    refine ⟨scanComplete_of_holds hw hh, fun hv => ?_⟩
    obtain ⟨r, w', h', hrun, ⟨chain', hstep, hh'⟩, hw', -⟩ := run_of_runs hw (exec_runs hh hv)
    exact ⟨r, w', chain', hrun, hstep, ih hw' hh'⟩

/-- The first page of a new heap file: a new page, initialised and unpinned. -/
def createFirstPage : Program (Option PageId) := do
  let some (p, f, data) ← newPage
    | return none
  let (_, page) := SlottedPage.init (Page.view p data)
  writePage f page
  let _ ← unpinPage p true
  return some p

theorem createFirstPage_runs :
    Runs (poolContext ext) createFirstPage
      (fun r h' => ∀ p, r = some p → HeapHolds h' p [(p, [])]) h := by
  refine runs_newPage ?_ fun n f hn hgood hshared => ?_
  · exact runs_pure nofun
  have hpos : 0 < n.toInt := hgood
  obtain ⟨d, hinit, hd⟩ := init_stores (Page.view n (poolContext ext).blank)
    (ne_invalid_of_pos hpos)
  dsimp only
  rw [hinit]
  refine holding_writePage rfl ?_
  refine holding_unpinPage (.inl rfl) (runs_pure fun p hp => ?_)
  cases hp
  refine ⟨⟨rfl, hpos, d, _, ?_, hd, rfl⟩, List.nodup_singleton _, nofun⟩
  rw [Heap.set_set, Heap.page_set_self]

theorem heapFile_run_new :
    ∃ w, (createFirstPage.run (BufferPoolManager.new 1
        (DiskManager.newFile DiskFaults.none))) = some (some 1, w) ∧
      HeapRun 1 w [(1, [])] [.insertRecord [7], .getRecord ⟨1, 0⟩, .deleteRecord ⟨1, 0⟩] := by
  obtain ⟨r, w, h, hrun, hh, hw, -⟩ := run_of_runs
    (holds_new Nat.one_pos (d := DiskManager.newFile DiskFaults.none) DiskFaults.none_reliable)
    (createFirstPage_runs)
  have hr : r = some 1 := by
    have hmap := congrArg (Option.map Prod.fst) hrun
    have hval : (createFirstPage.run
        (BufferPoolManager.new 1 (DiskManager.newFile DiskFaults.none))).map Prod.fst =
        some (some 1) := by decide
    rw [hval] at hmap
    exact (Option.some.inj hmap).symm
  exact ⟨w, hr ▸ hrun, heapFile_run hw (hh 1 hr) _⟩

end HeapFile

end MiniDbms
