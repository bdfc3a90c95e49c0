import MiniDbms.Lib.PageChain
import MiniDbms.Storage.HeapFile
import MiniDbms.Storage.SlottedPageContents

/-!
# What a heap file holds

A heap file is a `Chain`: its page ids in order, each with the slots of its page.
`ChainHolds h first chain` says that the pages `h` contain this chain. Each operation is
described by what it does to the chain: `insertRecord_runs` (first fit, else a new page at
the end), `getRecord_runs`, `updateRecord_runs`, `deleteRecord_runs`, `findLoop_runs`.
-/

namespace MiniDbms

open Lib PagedProgram Program SlottedPage

/-- The pages of a heap file in order, with their slots. -/
abbrev Chain := List (PageId × List (Option Bytes))

/-- The ids of the pages of a chain. -/
abbrev Chain.ids (chain : Chain) : List PageId := chainIds chain

namespace Chain

/-- The slots of a page of the chain. -/
def slots (chain : Chain) (q : PageId) : List (Option Bytes) := (chain.lookup q).getD []

/-- The live record with the given id. -/
def record (chain : Chain) (rid : RecordID) : Option Bytes :=
  recordAt (chain.slots rid.pageId) rid.slotId.toNat

/-- The chain with other slots in the page `q`. -/
def setSlots (chain : Chain) (q : PageId) (slots : List (Option Bytes)) : Chain :=
  setNode chain q slots

/-- The live records of a page from slot `i` on; the list starts at this slot. -/
def liveSlots (q : PageId) : Nat → List (Option Bytes) → List Record
  | _, [] => []
  | i, none :: rest => liveSlots q (i + 1) rest
  | i, some data :: rest =>
    { rid := ⟨q, UInt16.ofNat i⟩, data := data } :: liveSlots q (i + 1) rest

/-- The live records in the order of the chain and of the slots. -/
def records : Chain → List Record
  | [] => []
  | (q, slots) :: rest => liveSlots q 0 slots ++ records rest

/-- The live records after the first `i` slots of the first page. -/
def recordsAfter (i : Nat) : Chain → List Record
  | [] => []
  | (q, slots) :: rest => liveSlots q i (slots.drop i) ++ records rest

/-- The live records from slot `i` of the page `q` on. -/
def recordsFrom (chain : Chain) (q : PageId) (i : Nat) : List Record :=
  recordsAfter i (chain.dropWhile fun x => x.1 ≠ q)

variable {chain : Chain} {q x : PageId} {s : List (Option Bytes)}

theorem slots_cons (y : PageId × List (Option Bytes)) (chain : Chain) (q : PageId) :
    slots (y :: chain) q = if q = y.1 then y.2 else slots chain q := by
  unfold slots
  rw [List.lookup_cons]
  by_cases h : q = y.1
  · simp [h]
  · simp [h, beq_false_of_ne h]

theorem record_cons (q : PageId) (s : List (Option Bytes)) (chain : Chain) (rid : RecordID) :
    record ((q, s) :: chain) rid =
      if rid.pageId = q then recordAt s rid.slotId.toNat else record chain rid := by
  rw [record, slots_cons]
  split <;> rfl

theorem slots_of_notMem (h : q ∉ ids chain) : slots chain q = [] := by
  rw [slots, List.lookup_eq_none_iff.mpr]
  · rfl
  · intro y hy
    rw [bne_iff_ne]
    exact fun he => h (he ▸ List.mem_map_of_mem hy)

theorem record_of_notMem {rid : RecordID} (h : rid.pageId ∉ ids chain) :
    record chain rid = none := by
  rw [record, slots_of_notMem h]
  simp [recordAt]

theorem ids_setSlots (chain : Chain) (q : PageId) (s : List (Option Bytes)) :
    (chain.setSlots q s).ids = chain.ids :=
  chainIds_setNode chain q s

theorem slots_setSlots (h : q ∈ ids chain) :
    (chain.setSlots q s).slots x = if x = q then s else chain.slots x := by
  induction chain with
  | nil => cases h
  | cons y chain ih =>
    rw [setSlots, setNode_cons, ← setSlots, slots_cons, slots_cons]
    by_cases hy : y.1 = q
    · rw [if_pos hy]
      by_cases hx : x = q
      · rw [if_pos hx, if_pos hx]
      · rw [if_neg hx, if_neg hx, if_neg (fun hxy => hx (hxy.trans hy))]
        by_cases hin : q ∈ ids chain
        · rw [ih hin, if_neg hx]
        · rw [setSlots, setNode_of_notMem hin]
    · rw [if_neg hy]
      have hin : q ∈ ids chain := (List.mem_cons.mp h).resolve_left (Ne.symm hy)
      rw [ih hin]
      by_cases hxy : x = y.1
      · rw [if_pos hxy, if_neg (fun hxq => hy (hxy.symm.trans hxq)), if_pos hxy]
      · rw [if_neg hxy, if_neg hxy]

end Chain

namespace HeapFile

/-- The pages hold a chain that starts at the given page and ends in `INVALID_PAGE_ID`. -/
abbrev ChainHolds (h : Pages) (p : PageId) (chain : Chain) : Prop :=
  LinkedFrom Stores (fun q => 0 < q.toInt) invalidPageId h p chain

/-- A record is put into the first page of the chain that has room for it. -/
def insertInto (data : Bytes) : Chain → Option (RecordID × Chain)
  | [] => none
  | (q, slots) :: rest =>
    if HasRoom slots data.length then
      some (⟨q, UInt16.ofNat (freeSlot slots)⟩, (q, putRecord slots data) :: rest)
    else
      match insertInto data rest with
      | some (rid, rest') => some (rid, (q, slots) :: rest')
      | none => none

section

variable {h h' : Pages} {p q : PageId} {chain rest : Chain} {slots : List (Option Bytes)}
  {data : Bytes} {ext : PageId → Nat}

/-! ## Insertion -/

/-- What `AppendNewPage` does: a new page with the record, linked to the last page, or nothing. -/
theorem appendNewPage_runs {d : PageData} {next : PageId} (hq : h.page q = some d)
    (hs : Stores d q next slots) (hqpos : 0 < q.toInt) (hne : data ≠ [])
    (hle : data.length ≤ 4096) :
    Runs (poolContext ext) (appendNewPage q data) (fun r h' =>
      (∃ n dn dq, r = .ok ⟨n, 0⟩ ∧ h.page n = none ∧ 0 < n.toInt ∧ HasRoom [] data.length ∧
        h'.page n = some dn ∧ Stores dn n invalidPageId [some data] ∧
        h'.page q = some dq ∧ Stores dq q n slots ∧ h'.failed = h.failed ∧
        ∀ x, x ≠ q → x ≠ n → h'.page x = h.page x) ∨
      (∃ e, r = .error e ∧ h'.page = h.page ∧ e.code = .outOfMemory ∧
        ((¬ HasRoom [] data.length ∧ h'.failed = h.failed) ∨ h'.failed = true))) h := by
  unfold appendNewPage
  refine runs_newPage ?_ fun n f hn hgood hshared => ?_
  · exact runs_pure (.inr ⟨_, rfl, rfl, rfl, .inr rfl⟩)
  have hnpos : 0 < n.toInt := hgood
  have hid : n ≠ invalidPageId := ne_invalid_of_pos hnpos
  have hqid : q ≠ invalidPageId := ne_invalid_of_pos hqpos
  have hqn : q ≠ n := by
    rintro rfl
    rw [hq] at hn
    cases hn
  obtain ⟨d₁, hinit, hd₁⟩ := init_stores (Page.view n (poolContext ext).blank) hid
  dsimp only
  rw [hinit]
  refine holding_writePage rfl ?_
  rw [Heap.set_set]
  by_cases hroom : HasRoom [] data.length
  · obtain ⟨d₂, hins, hd₂⟩ := insertRecord_room
      { Page.view n (poolContext ext).blank with data := d₁, isDirty := true } hd₁ hid hne hroom
    dsimp only
    rw [hins]
    refine holding_writePage rfl ?_
    rw [Heap.set_set]
    refine holding_unpinPage (.inl rfl) ?_
    have hq₂ : (h.set n d₂).page q = some d := by rw [Heap.page_set_of_ne _ hqn, hq]
    refine runs_fetchPage hq₂ fun f => ?_
    have hs' : Stores (Page.view q d).data (Page.view q d).pageId next slots := hs
    dsimp only
    rw [hs'.isInitialized hqid]
    obtain ⟨d₃, hset, hd₃⟩ := setNextPageId_stores hs' hqid hnpos (Ne.symm hqn)
    rw [hset]
    refine holding_writePage rfl ?_
    refine holding_unpinPage (.inl rfl) ?_
    refine runs_pure
      (.inl ⟨n, d₂, d₃, rfl, hn, hnpos, hroom, ?_, hd₂, ?_, hd₃, rfl, fun x hxq hxn => ?_⟩)
    · rw [Heap.page_set_of_ne _ (Ne.symm hqn), Heap.page_set_self]
    · rw [Heap.page_set_self]
    · rw [Heap.page_set_of_ne _ hxq, Heap.page_set_of_ne _ hxn]
  · have hins := insertRecord_full
      { Page.view n (poolContext ext).blank with data := d₁, isDirty := true } hd₁ hid hne hle hroom
    dsimp only
    rw [hins]
    refine holding_writePage_same (by rw [Heap.page_set_self]) ?_
    refine holding_unpinPage (.inr rfl) ?_
    refine runs_deletePage (by rw [Heap.page_set_self]; nofun) hgood hshared ?_
    rw [Heap.drop_set _ hn]
    exact runs_pure (.inr ⟨_, rfl, rfl, rfl, .inl ⟨hroom, rfl⟩⟩)

/-- What `InsertRecord` does to a chain. -/
def Inserts (h : Pages) (p : PageId) (chain : Chain) (data : Bytes) (r : Except Status RecordID)
    (h' : Pages) : Prop :=
  match insertInto data chain with
  | some (rid, chain') => r = .ok rid ∧ ChainHolds h' p chain' ∧ h'.failed = h.failed ∧
      ∀ x, x ∉ chain.ids → h'.page x = h.page x
  | none =>
    (∃ n, r = .ok ⟨n, 0⟩ ∧ h.page n = none ∧ HasRoom [] data.length ∧
      ChainHolds h' p (chain ++ [(n, [some data])]) ∧ h'.failed = h.failed ∧
      ∀ x, x ∉ chain.ids → x ≠ n → h'.page x = h.page x) ∨
    (∃ e, r = .error e ∧ h'.page = h.page ∧ e.code = .outOfMemory ∧
      ((¬ HasRoom [] data.length ∧ h'.failed = h.failed) ∨ h'.failed = true))

/-- A page without room in front of the chain changes nothing. -/
theorem Inserts.cons {d : PageData} {next : PageId} {r : Except Status RecordID}
    (hi : Inserts h next rest data r h') (hq : h.page q = some d) (hs : Stores d q next slots)
    (hpos : 0 < q.toInt) (hnot : q ∉ rest.ids) (hfull : ¬ HasRoom slots data.length) :
    Inserts h q ((q, slots) :: rest) data r h' := by
  unfold Inserts at hi ⊢
  rw [insertInto, if_neg hfull]
  cases hr : insertInto data rest with
  | some x =>
    rw [hr] at hi
    obtain ⟨hr', hc, hf, hother⟩ := hi
    refine ⟨hr', ⟨rfl, hpos, d, next, (hother q hnot).trans hq, hs, hc⟩, hf,
      fun x hx => hother x ?_⟩
    exact fun hin => hx (List.mem_cons_of_mem _ hin)
  | none =>
    rw [hr] at hi
    rcases hi with ⟨n, hr', hn, hroom, hc, hf, hother⟩ | he
    · have hqn : q ≠ n := by
        rintro rfl
        rw [hq] at hn
        cases hn
      refine .inl ⟨n, hr', hn, hroom, ⟨rfl, hpos, d, next, (hother q hnot hqn).trans hq, hs, hc⟩,
        hf, fun x hx hxn => hother x (fun hin => hx (List.mem_cons_of_mem _ hin)) hxn⟩
    · exact .inr he

theorem insertLoop_runs (hne : data ≠ []) (hle : data.length ≤ 4096) :
    ∀ (chain : Chain) (fuel : Nat) (visited : List PageId) (p : PageId), ChainHolds h p chain →
      chain ≠ [] → chain.ids.Nodup → (∀ q ∈ chain.ids, q ∉ visited) → chain.length < fuel →
      Runs (poolContext ext) (insertLoop data fuel visited p) (Inserts h p chain data) h := by
  intro chain
  induction chain with
  | nil => exact fun _ _ _ _ hnil => absurd rfl hnil
  | cons x rest ih =>
    rintro fuel visited p hc - hnodup hvisited hfuel
    obtain ⟨q, slots⟩ := x
    obtain ⟨rfl, hpos, d, next, hd, hs, hrest⟩ := hc
    obtain ⟨fuel, rfl⟩ : ∃ n, fuel = n + 1 := ⟨fuel - 1, by simp at hfuel; omega⟩
    have hid : p ≠ invalidPageId := ne_invalid_of_pos hpos
    obtain ⟨hnot, hnodup'⟩ := List.nodup_cons.mp hnodup
    have hs' : Stores (Page.view p d).data (Page.view p d).pageId next slots := hs
    rw [insertLoop, if_neg hid, if_neg (hvisited p List.mem_cons_self)]
    refine runs_fetchPage hd fun f => ?_
    dsimp only
    rw [initIfNeeded, if_pos (hs'.isInitialized hid)]
    dsimp only
    by_cases hroom : HasRoom slots data.length
    · obtain ⟨d', hins, hd'⟩ := insertRecord_room _ hs' hid hne hroom
      rw [hins]
      refine holding_writePage rfl ?_
      refine holding_unpinPage (.inl rfl) ?_
      refine runs_pure ?_
      unfold Inserts
      rw [insertInto, if_pos hroom]
      refine ⟨rfl, ⟨rfl, hpos, d', next, Heap.page_set_self .., hd', ?_⟩, rfl, fun x hx => ?_⟩
      · refine hrest.congr fun x hx => Heap.page_set_of_ne _ ?_ _
        rintro rfl
        exact hnot hx
      · refine Heap.page_set_of_ne _ ?_ _
        rintro rfl
        exact hx List.mem_cons_self
    · rw [insertRecord_full _ hs' hid hne hle hroom]
      refine holding_writePage_same hd ?_
      refine holding_unpinPage (.inr rfl) ?_
      dsimp only
      rw [hs'.getNextPageId hid, if_neg (by decide)]
      cases rest with
      | nil =>
        cases hrest
        rw [if_neg (by decide)]
        refine (appendNewPage_runs hd hs hpos hne hle).mono fun r h' hr => ?_
        unfold Inserts
        rw [insertInto, if_neg hroom, insertInto]
        rcases hr with ⟨n, dn, dq, hr, hn, hnpos, hroom', hdn, hsn, hdq, hsq, hf, hother⟩ | he
        · refine .inl ⟨n, hr, hn, hroom',
            ⟨rfl, hpos, dq, n, hdq, hsq, rfl, hnpos, dn, _, hdn, hsn, rfl⟩,
            hf, fun x hx hxn => hother x ?_ hxn⟩
          rintro rfl
          exact hx List.mem_cons_self
        · exact .inr he
      | cons y rest =>
        have hnext : next ≠ invalidPageId := by
          obtain ⟨rfl, hnpos, -⟩ := hrest
          exact ne_invalid_of_pos hnpos
        rw [if_pos hnext]
        refine (ih fuel (p :: visited) next hrest nofun hnodup' (fun q hq hv => ?_) ?_).mono
          fun r h' hr => hr.cons hd hs hpos hnot hroom
        · rcases List.mem_cons.mp hv with rfl | hv
          · exact hnot hq
          · exact hvisited q (List.mem_cons_of_mem _ hq) hv
        · simp only [List.length_cons] at hfuel ⊢
          omega

theorem insertRecord_runs (hc : ChainHolds h p chain) (hchain : chain ≠ [])
    (hnodup : chain.ids.Nodup) (hne : data ≠ []) (hle : data.length ≤ 4096) :
    Runs (poolContext ext) (insertRecord p data) (Inserts h p chain data) h := by
  have hlen := length_lt_chainFuel hnodup fun q => hc.good_of_mem
  rw [length_chainIds] at hlen
  rw [insertRecord, if_neg hne]
  exact insertLoop_runs hne hle chain _ _ _ hc hchain hnodup (fun _ _ => List.not_mem_nil) hlen

/-! ## One record -/

/-- The page `q` of a chain holds its slots. -/
theorem ChainHolds.stores (hc : ChainHolds h p chain) (hq : q ∈ chain.ids) :
    0 < q.toInt ∧ ∃ d next, h.page q = some d ∧ Stores d q next (chain.slots q) := by
  induction chain generalizing p with
  | nil => cases hq
  | cons x rest ih =>
    obtain ⟨y, slots⟩ := x
    obtain ⟨rfl, hpos, d, next, hd, hs, hrest⟩ := hc
    rw [Chain.slots_cons]
    split
    · rename_i he
      subst he
      exact ⟨hpos, d, next, hd, hs⟩
    · rename_i hne
      exact ih hrest ((List.mem_cons.mp hq).resolve_left hne)

/-- Changing the slots of one page changes the chain there. -/
theorem ChainHolds.setSlots (hc : ChainHolds h p chain) (hnodup : chain.ids.Nodup)
    (hq : q ∈ chain.ids) {d d' : PageData} {next : PageId} {s s' : List (Option Bytes)}
    (hd : h.page q = some d) (hs : Stores d q next s) (hs' : Stores d' q next s') :
    ChainHolds (h.set q d') p (chain.setSlots q s') := by
  apply hc.setNode hnodup hq hd
  intro next₂ s₂ hs₂
  rw [← hs₂.next, hs.next]
  exact hs'

/-- `GetRecord` returns the live record with the id, or `NOT_FOUND`. -/
theorem getRecord_runs (hc : ChainHolds h p chain) {rid : RecordID} (hq : rid.pageId ∈ chain.ids) :
    Runs (poolContext ext) (getRecord rid) (fun r h' => h' = h ∧
      match chain.record rid with
      | some data => r = .ok { rid := rid, data := data }
      | none => ∃ e, r = .error e ∧ e.code = .notFound) h := by
  obtain ⟨hpos, d, next, hd, hs⟩ := hc.stores hq
  have hid : rid.pageId ≠ invalidPageId := ne_invalid_of_pos hpos
  have hs' : Stores (Page.view rid.pageId d).data (Page.view rid.pageId d).pageId next
    (chain.slots rid.pageId) := hs
  rw [getRecord, if_neg (by rw [toInt_headerPageId]; omega)]
  refine runs_fetchPage hd fun f => ?_
  refine holding_unpinPage (.inr rfl) ?_
  refine runs_pure ⟨rfl, ?_⟩
  cases hr : chain.record rid with
  | some data => exact readRecord_stores hs' hid hr
  | none => exact readRecord_free hs' hid hr

/-- A change of the page of a record, as the page itself describes it. -/
theorem changeRecord_runs {d : PageData} {rid : RecordID}
    {change : Page → Except Status Unit × Page}
    {msg : String} (hd : h.page rid.pageId = some d) {Q : Except Status Unit → Pages → Prop}
    (hok : ∀ page, change (Page.view rid.pageId d) = (.ok (), page) →
      page.isDirty = true ∧ Q (.ok ()) (h.set rid.pageId page.data))
    (herr : ∀ e page, change (Page.view rid.pageId d) = (.error e, page) →
      page = Page.view rid.pageId d ∧ Q (.error e) h) :
    Runs (poolContext ext) (changeRecord rid change msg) Q h := by
  unfold changeRecord
  refine runs_fetchPage hd fun f => ?_
  dsimp only
  rcases hch : change (Page.view rid.pageId d) with ⟨e | ⟨⟩, page⟩
  · obtain ⟨rfl, hQ⟩ := herr e page hch
    refine holding_writePage_same hd ?_
    exact holding_unpinPage (.inr rfl) (runs_pure hQ)
  · obtain ⟨hdirty, hQ⟩ := hok page hch
    refine holding_writePage hdirty ?_
    exact holding_unpinPage (.inl rfl) (runs_pure hQ)

/-- Whether a record of `n` bytes has room in the place of the live record `old`. -/
def FitsIn (slots : List (Option Bytes)) (old : Bytes) (n : Nat) : Prop :=
  16 + slots.length * 4 + liveBytes slots - old.length + n ≤ 4096

instance (slots : List (Option Bytes)) (old : Bytes) (n : Nat) : Decidable (FitsIn slots old n) :=
  inferInstanceAs (Decidable (_ ≤ _))

/-- `UpdateRecord` replaces a live record that has room, and changes nothing otherwise. -/
theorem updateRecord_runs (hc : ChainHolds h p chain) (hnodup : chain.ids.Nodup) (record : Record)
    (hq : record.rid.pageId ∈ chain.ids) (hne : record.data ≠ [])
    (hle : record.data.length ≤ 4096) :
    Runs (poolContext ext) (updateRecord record) (fun r h' =>
      match chain.record record.rid with
      | some old =>
        if FitsIn (chain.slots record.rid.pageId) old record.data.length then
          r = .ok () ∧ h'.failed = h.failed ∧ (∀ x, x ≠ record.rid.pageId → h'.page x = h.page x) ∧
            ChainHolds h' p (chain.setSlots record.rid.pageId
              ((chain.slots record.rid.pageId).set record.rid.slotId.toNat (some record.data)))
        else (∃ e, r = .error e ∧ e.code = .outOfMemory) ∧ h' = h
      | none => (∃ e, r = .error e ∧ e.code = .notFound) ∧ h' = h) h := by
  obtain ⟨hpos, d, next, hd, hs⟩ := hc.stores hq
  have hid : record.rid.pageId ≠ invalidPageId := ne_invalid_of_pos hpos
  have hs' : Stores (Page.view record.rid.pageId d).data (Page.view record.rid.pageId d).pageId next
    (chain.slots record.rid.pageId) := hs
  rw [updateRecord, if_neg (by rw [toInt_headerPageId]; omega), if_neg hne]
  cases hr : chain.record record.rid with
  | some old =>
    dsimp only
    split
    · rename_i hfit
      obtain ⟨d', hup, hd'⟩ := updateRecord_fits hs' hid hne hr hfit
      refine changeRecord_runs hd (fun page he => ?_) fun e page he => ?_
      · cases hup.symm.trans he
        exact ⟨rfl, rfl, rfl, fun x hx => Heap.page_set_of_ne _ hx _,
          hc.setSlots hnodup hq hd hs hd'⟩
      · cases hup.symm.trans he
    · rename_i hfull
      have hup := updateRecord_full hs' hid hne hle hr (by unfold FitsIn at hfull; omega)
      refine changeRecord_runs hd (fun page he => ?_) fun e page he => ?_
      · cases hup.symm.trans he
      · cases hup.symm.trans he
        exact ⟨rfl, ⟨_, rfl, rfl⟩, rfl⟩
  | none =>
    obtain ⟨e, hup, hcode⟩ := updateRecord_free hs' hid hne hle hr
    refine changeRecord_runs hd (fun page he => ?_) fun e page he => ?_
    · cases hup.symm.trans he
    · cases hup.symm.trans he
      exact ⟨rfl, ⟨_, rfl, hcode⟩, rfl⟩

/-- `DeleteRecord` frees the slot of a live record, and changes nothing otherwise. -/
theorem deleteRecord_runs (hc : ChainHolds h p chain) (hnodup : chain.ids.Nodup) {rid : RecordID}
    (hq : rid.pageId ∈ chain.ids) :
    Runs (poolContext ext) (deleteRecord rid) (fun r h' =>
      match chain.record rid with
      | some _ => r = .ok () ∧ h'.failed = h.failed ∧ (∀ x, x ≠ rid.pageId → h'.page x = h.page x) ∧
          ChainHolds h' p (chain.setSlots rid.pageId
            (((chain.slots rid.pageId).set rid.slotId.toNat none).rdropWhile Option.isNone))
      | none => (∃ e, r = .error e ∧ e.code = .notFound) ∧ h' = h) h := by
  obtain ⟨hpos, d, next, hd, hs⟩ := hc.stores hq
  have hid : rid.pageId ≠ invalidPageId := ne_invalid_of_pos hpos
  have hs' : Stores (Page.view rid.pageId d).data (Page.view rid.pageId d).pageId next
    (chain.slots rid.pageId) := hs
  rw [deleteRecord, if_neg (by rw [toInt_headerPageId]; omega)]
  cases hr : chain.record rid with
  | some old =>
    obtain ⟨d', hdel, hd'⟩ := deleteRecord_live hs' hid hr
    refine changeRecord_runs hd (fun page he => ?_) fun e page he => ?_
    · cases hdel.symm.trans he
      exact ⟨rfl, rfl, rfl, fun x hx => Heap.page_set_of_ne _ hx _, hc.setSlots hnodup hq hd hs hd'⟩
    · cases hdel.symm.trans he
  | none =>
    obtain ⟨e, hdel, hcode⟩ := deleteRecord_free hs' hid hr
    refine changeRecord_runs hd (fun page he => ?_) fun e page he => ?_
    · cases hdel.symm.trans he
    · cases hdel.symm.trans he
      exact ⟨rfl, ⟨_, rfl, hcode⟩, rfl⟩

/-! ## Scans -/

theorem findInPage_stores {d : PageData} {next : PageId} (hs : Stores d q next slots)
    (hid : q ≠ invalidPageId) :
    ∀ (left i : Nat), left = slots.length - i →
      findInPage (Page.view q d) left i = (Chain.liveSlots q i (slots.drop i)).head?.map .ok := by
  have hs' : Stores (Page.view q d).data (Page.view q d).pageId next slots := hs
  have hlen := hs.length_lt
  intro left
  induction left with
  | zero =>
    intro i hi
    rw [List.drop_eq_nil_of_le (by omega)]
    rfl
  | succ left ih =>
    intro i hi
    have hlt : i < slots.length := by omega
    have hslot : (UInt16.ofNat i).toNat = i := UInt16.toNat_ofNat_of_lt' (show i < 65536 by omega)
    rw [List.drop_eq_getElem_cons hlt, findInPage]
    have hat : recordAt slots (UInt16.ofNat i).toNat = slots[i] := by
      rw [hslot, recordAt, List.getD_eq_getElem?_getD, List.getElem?_eq_getElem hlt]
      rfl
    cases ho : slots[i] with
    | some data =>
      rw [readRecord_stores hs' hid (hat.trans ho)]
      rfl
    | none =>
      obtain ⟨e, he, hcode⟩ := readRecord_free hs' hid (hat.trans ho)
      rw [he]
      dsimp only
      rw [if_neg (by rw [hcode]; decide), ih (i + 1) (by omega)]
      rfl

/-- The scan returns the first live record from slot `i` of the first page on. -/
theorem findLoop_runs :
    ∀ (chain : Chain) (fuel : Nat) (visited : List PageId) (p : PageId) (i : Nat),
      ChainHolds h p chain → chain.ids.Nodup → (∀ q ∈ chain.ids, q ∉ visited) →
      chain.length < fuel →
      Runs (poolContext ext) (findLoop fuel visited p i) (fun r h' => h' = h ∧
        match chain.recordsAfter i with
        | record :: _ => r = .ok record
        | [] => ∃ e, r = .error e ∧ e.code = .notFound) h := by
  intro chain
  induction chain with
  | nil =>
    rintro fuel visited p i rfl - - hfuel
    obtain ⟨fuel, rfl⟩ : ∃ n, fuel = n + 1 := ⟨fuel - 1, by simp at hfuel; omega⟩
    rw [findLoop, if_pos rfl]
    exact runs_pure ⟨rfl, _, rfl, rfl⟩
  | cons x rest ih =>
    rintro fuel visited p i hc hnodup hvisited hfuel
    obtain ⟨q, slots⟩ := x
    obtain ⟨rfl, hpos, d, next, hd, hs, hrest⟩ := hc
    obtain ⟨fuel, rfl⟩ : ∃ n, fuel = n + 1 := ⟨fuel - 1, by simp at hfuel; omega⟩
    have hid : p ≠ invalidPageId := ne_invalid_of_pos hpos
    obtain ⟨hnot, hnodup'⟩ := List.nodup_cons.mp hnodup
    have hs' : Stores (Page.view p d).data (Page.view p d).pageId next slots := hs
    rw [findLoop, if_neg hid, if_neg (hvisited p List.mem_cons_self)]
    refine runs_fetchPage hd fun f => ?_
    dsimp only
    rw [hs'.isInitialized hid, if_neg (by decide), hs'.getSlotCount,
      findInPage_stores hs hid _ i rfl, hs'.getNextPageId hid]
    cases hlive : Chain.liveSlots p i (slots.drop i) with
    | cons record more =>
      refine holding_unpinPage (.inr rfl) (runs_pure ⟨rfl, ?_⟩)
      rw [Chain.recordsAfter, hlive]
      rfl
    | nil =>
      refine holding_unpinPage (.inr rfl) ?_
      refine (ih fuel (p :: visited) next 0 hrest hnodup' (fun q hq hv => ?_) ?_).mono
        fun r h' hr => ?_
      · rcases List.mem_cons.mp hv with rfl | hv
        · exact hnot hq
        · exact hvisited q (List.mem_cons_of_mem _ hq) hv
      · simp only [List.length_cons] at hfuel
        omega
      · rw [Chain.recordsAfter, hlive, List.nil_append]
        cases rest with
        | nil => exact hr
        | cons y rest => exact hr

theorem getFirstRecord_runs (hc : ChainHolds h p chain) (hnodup : chain.ids.Nodup) :
    Runs (poolContext ext) (getFirstRecord p) (fun r h' => h' = h ∧
      match chain.records with
      | record :: _ => r = .ok record
      | [] => ∃ e, r = .error e ∧ e.code = .notFound) h := by
  have hlen := length_lt_chainFuel hnodup fun q => hc.good_of_mem
  rw [length_chainIds] at hlen
  refine (findLoop_runs chain _ _ _ 0 hc hnodup (fun _ _ => List.not_mem_nil) hlen).mono
    fun r h' hr => ?_
  cases chain with
  | nil => exact hr
  | cons x rest => exact hr

/-- `GetNextRecord` returns the first live record after an id of the chain, live or not. -/
theorem getNextRecord_runs (hc : ChainHolds h p chain) (hnodup : chain.ids.Nodup) {rid : RecordID}
    (hq : rid.pageId ∈ chain.ids) :
    Runs (poolContext ext) (getNextRecord rid) (fun r h' => h' = h ∧
      match chain.recordsFrom rid.pageId (rid.slotId.toNat + 1) with
      | record :: _ => r = .ok record
      | [] => ∃ e, r = .error e ∧ e.code = .notFound) h := by
  have hsuffix := List.dropWhile_suffix (fun x : PageId × List (Option Bytes) => x.1 ≠ rid.pageId)
    (l := chain)
  have hnodup' := hnodup.sublist (hsuffix.sublist.map Prod.fst)
  have hc' := hc.dropWhile hq
  have hlen := length_lt_chainFuel hnodup' fun q => hc'.good_of_mem
  rw [List.length_map] at hlen
  rw [getNextRecord, if_neg (by rw [toInt_headerPageId]; have := (hc.stores hq).1; omega)]
  exact findLoop_runs _ _ _ _ _ hc' hnodup' (fun _ _ => List.not_mem_nil) hlen

end

end HeapFile

end MiniDbms
