import MiniDbms.Lib.Footprint
import MiniDbms.Storage.HeapFileRuns

/-!
# Heap files as parts of a database

A heap file owns the pages of its chain. `Changes` says what a successful operation on one
record does to the chain and to the pages; the operations are described with it for records
of any length: `insertRecord_changes`, `updateRecord_changes`, `deleteRecord_changes`. After
an update the old record still fits in its place (`updateRecord_restores`).
`containsPage_runs` is the check that a record belongs to the heap file.
-/

namespace MiniDbms

open Lib PagedProgram Program SlottedPage

namespace HeapFile

/-- The record `rid` of the chain becomes `o`. -/
structure Changes (h : Pages) (p : PageId) (chain : Chain) (rid : RecordID) (o : Option Bytes)
    (h' : Pages) (chain' : Chain) : Prop where
  holds : HeapHolds h' p chain'
  changed : ChangedAt chain rid o chain'
  footprint : Footprint h chain.ids h' chain'.ids
  member : rid.pageId ∈ chain'.ids

section

variable {h h' : Pages} {p q : PageId} {chain : Chain} {rid : RecordID} {data old : Bytes}
  {ext : PageId → Nat}

theorem HeapHolds.positive (hh : HeapHolds h p chain) (hq : q ∈ chain.ids) : 0 < q.toInt :=
  hh.holds.good_of_mem hq

theorem HeapHolds.page_ne_none (hh : HeapHolds h p chain) (hq : q ∈ chain.ids) : h.page q ≠ none :=
  LinkedFrom.page_ne_none hh.holds hq

theorem HeapHolds.congr (hh : HeapHolds h p chain) (hsame : ∀ q ∈ chain.ids, h'.page q = h.page q) :
    HeapHolds h' p chain :=
  ⟨LinkedFrom.congr hh.holds hsame, hh.nodup, hh.nonempty⟩

/-- A heap file starts with its first page. -/
theorem HeapHolds.first_mem (hh : HeapHolds h p chain) : p ∈ chain.ids := by
  obtain ⟨hc, -, hne⟩ := hh
  cases chain with
  | nil => exact absurd rfl hne
  | cons x rest =>
    obtain ⟨rfl, -⟩ := hc
    exact List.mem_cons_self

/-! ## Insertion -/

/-- A record that is longer than a page is rejected. -/
theorem insertRecord_long (hh : HeapHolds h p chain) (hlong : 4096 < data.length) :
    Runs (poolContext ext) (insertRecord p data)
      (fun r h' => h' = h ∧ ∃ e, r = .error e ∧ e.code = .invalidArgument) h := by
  obtain ⟨hc, -, hne⟩ := hh
  cases chain with
  | nil => exact absurd rfl hne
  | cons x rest =>
    obtain ⟨q, slots⟩ := x
    obtain ⟨rfl, hpos, d, next, hd, hs, -⟩ := hc
    have hid : p ≠ invalidPageId := ne_invalid_of_pos hpos
    have hs' : Stores (Page.view p d).data (Page.view p d).pageId next slots := hs
    have hins : SlottedPage.insertRecord (Page.view p d) data =
        (.error (.invalidArgument "Invalid record size"), Page.view p d) := by
      rw [SlottedPage.insertRecord, hs'.isInitialized hid, if_neg (by decide),
        if_pos (.inr (show 4096 < data.length from hlong))]
    have hdata : data ≠ [] := by
      rintro rfl
      simp at hlong
    rw [insertRecord, if_neg hdata, chainFuel, insertLoop, if_neg hid, if_neg List.not_mem_nil]
    refine runs_fetchPage hd fun f => ?_
    dsimp only
    rw [initIfNeeded, if_pos (hs'.isInitialized hid)]
    dsimp only
    rw [hins]
    refine holding_writePage_same hd ?_
    refine holding_unpinPage (.inr rfl) ?_
    dsimp only
    rw [if_pos (by rw [Status.code_invalidArgument]; decide)]
    exact runs_pure ⟨rfl, _, rfl, rfl⟩

theorem footprint_of_inserts {chain' : Chain} {n : PageId} (hn : h.page n = none)
    (hids : chain'.ids = chain.ids ++ [n])
    (hother : ∀ x, x ∉ chain.ids → x ≠ n → h'.page x = h.page x) :
    Footprint h chain.ids h' chain'.ids := by
  rw [hids]
  refine ⟨fun x hx hx' => ?_, fun x hx' hx => ?_, fun x hx hx' => ?_⟩
  · apply hother x hx
    rintro rfl
    exact hx' (List.mem_append_right _ List.mem_cons_self)
  · rcases List.mem_append.mp hx' with hin | hin
    · exact absurd hin hx
    · rw [List.mem_singleton.mp hin]
      exact hn
  · exact absurd (List.mem_append_left _ hx) hx'

/-- `InsertRecord` adds a record under an id that was not live, or changes nothing. -/
theorem insertRecord_changes (hh : HeapHolds h p chain) (hdata : data ≠ []) :
    Runs (poolContext ext) (insertRecord p data) (fun r h' =>
      (∃ rid chain', r = .ok rid ∧ chain.record rid = none ∧
        Changes h p chain rid (some data) h' chain') ∨
      (∃ e, r = .error e ∧ e.code ≠ .ioError ∧ h'.page = h.page)) h := by
  rcases Nat.lt_or_ge 4096 data.length with hlong | hle
  · refine (insertRecord_long hh hlong).mono fun r h' hr => .inr ?_
    obtain ⟨rfl, e, rfl, hcode⟩ := hr
    exact ⟨e, rfl, by rw [hcode]; decide, rfl⟩
  obtain ⟨hc, hn, hne⟩ := hh
  refine (insertRecord_runs hc hne hn hdata hle).mono fun r h' hr => ?_
  unfold Inserts at hr
  cases hi : insertInto data chain with
  | some x =>
    obtain ⟨rid, chain'⟩ := x
    rw [hi] at hr
    obtain ⟨rfl, hc', -, hother⟩ := hr
    have hp := insertInto_placed hi
    obtain ⟨hnone, hch⟩ := changedAt_of_placed hp hn hc.bounded
    have hrec : chain'.record rid = some data := by rw [hch, if_pos rfl]
    have hmem : rid.pageId ∈ chain'.ids := by
      by_contra hnot
      rw [Chain.record_of_notMem hnot] at hrec
      cases hrec
    have hids : chain'.ids = chain.ids := by
      rcases ids_of_placed hp with he | ⟨hnew, he⟩
      · exact he
      · have hpage := hother rid.pageId hnew
        have hins : ∀ (l l' : Chain) (r : RecordID), insertInto data l = some (r, l') →
            l'.ids = l.ids := by
          intro l
          induction l with
          | nil => exact fun l' r he => by cases he
          | cons y l ih =>
            intro l' r hl
            rw [insertInto] at hl
            split at hl
            · cases hl
              rfl
            · split at hl
              · rename_i hrec
                cases hl
                exact congrArg (y.1 :: ·) (ih _ _ hrec)
              · cases hl
        exact hins _ _ _ hi
    refine .inl ⟨rid, chain', rfl, hnone, ⟨hc', nodup_of_placed hp hn, ?_⟩, hch, ?_, hmem⟩
    · rintro rfl
      cases hmem
    · rw [hids]
      exact .of_same hother
  | none =>
    rw [hi] at hr
    rcases hr with ⟨n, rfl, hfresh, -, hc', -, hother⟩ | ⟨e, rfl, hsame, hcode, -⟩
    · have hnew : n ∉ chain.ids := fun hin => hc.page_ne_none hin hfresh
      have hp : Placed chain data ⟨n, 0⟩ (chain ++ [(n, [some data])]) :=
        .append n (insertInto_none hi) hnew
      obtain ⟨hnone, hch⟩ := changedAt_of_placed hp hn hc.bounded
      have hids : Chain.ids (chain ++ [(n, [some data])]) = chain.ids ++ [n] := by
        simp [Chain.ids, chainIds]
      refine .inl ⟨⟨n, 0⟩, _, rfl, hnone, ⟨hc', nodup_of_placed hp hn, by simp⟩, hch,
        footprint_of_inserts hfresh hids hother, ?_⟩
      rw [hids]
      exact List.mem_append_right _ List.mem_cons_self
    · exact .inr ⟨e, rfl, by rw [hcode]; decide, hsame⟩

/-! ## Update and deletion -/

/-- The chain with other bytes for the live record `rid`. -/
def replaced (chain : Chain) (rid : RecordID) (data : Bytes) : Chain :=
  chain.setSlots rid.pageId ((chain.slots rid.pageId).set rid.slotId.toNat (some data))

theorem changedAt_replaced (hq : rid.pageId ∈ chain.ids) (hr : chain.record rid = some old) :
    ChangedAt chain rid (some data) (replaced chain rid data) :=
  changedAt_setSlots hq fun _ => recordAt_set (lt_of_recordAt hr) _

theorem HeapHolds.setSlots (hh : HeapHolds h p chain) {s : List (Option Bytes)}
    (hc : ChainHolds h' p (chain.setSlots q s)) : HeapHolds h' p (chain.setSlots q s) := by
  refine ⟨hc, ?_, ?_⟩
  · rw [Chain.ids_setSlots]
    exact hh.nodup
  · intro hnil
    exact hh.nonempty (List.map_eq_nil_iff.mp hnil)

theorem HeapHolds.changes_setSlots (hh : HeapHolds h p chain) (hq : rid.pageId ∈ chain.ids)
    {s : List (Option Bytes)} {o : Option Bytes}
    (hc : ChainHolds h' p (chain.setSlots rid.pageId s))
    (hchanged : ChangedAt chain rid o (chain.setSlots rid.pageId s))
    (hother : ∀ x, x ≠ rid.pageId → h'.page x = h.page x) :
    Changes h p chain rid o h' (chain.setSlots rid.pageId s) := by
  refine ⟨hh.setSlots hc, hchanged, ?_, by rwa [Chain.ids_setSlots]⟩
  rw [Chain.ids_setSlots]
  apply Footprint.of_same
  intro x hx
  apply hother
  rintro rfl
  exact hx hq

/-- `UpdateRecord` replaces the bytes of a live record, or changes nothing. -/
theorem updateRecord_changes (hh : HeapHolds h p chain) (hq : rid.pageId ∈ chain.ids)
    (hr : chain.record rid = some old) (hdata : data ≠ []) :
    Runs (poolContext ext) (updateRecord { rid := rid, data := data }) (fun r h' =>
      (r = .ok () ∧ Changes h p chain rid (some data) h' (replaced chain rid data)) ∨
      (∃ e, r = .error e ∧ e.code ≠ .ioError ∧ h' = h)) h := by
  obtain ⟨hpos, d, next, hd, hs⟩ := hh.holds.stores hq
  have hid : rid.pageId ≠ invalidPageId := ne_invalid_of_pos hpos
  rcases Nat.lt_or_ge 4096 data.length with hlong | hle
  · have hs' : Stores (Page.view rid.pageId d).data (Page.view rid.pageId d).pageId next
      (chain.slots rid.pageId) := hs
    have hup : SlottedPage.updateRecord (Page.view rid.pageId d) rid.slotId data =
        (.error (.invalidArgument "Invalid updated record"), Page.view rid.pageId d) := by
      rw [SlottedPage.updateRecord, hs'.isInitialized hid, if_neg (by decide),
        if_pos (.inr (show 4096 < data.length from hlong))]
    have hpid : ¬ rid.pageId.toInt ≤ headerPageId.toInt := by rw [toInt_headerPageId]; omega
    rw [updateRecord, if_neg hpid, if_neg hdata]
    refine changeRecord_runs hd (fun page he => ?_) fun e page he => ?_
    · cases hup.symm.trans he
    · cases hup.symm.trans he
      exact ⟨rfl, .inr ⟨_, rfl, by decide, rfl⟩⟩
  refine (updateRecord_runs hh.holds hh.nodup { rid := rid, data := data } hq hdata hle).mono
    fun r h' hrun => ?_
  rw [hr] at hrun
  dsimp only at hrun
  split at hrun
  · obtain ⟨rfl, -, hother, hc⟩ := hrun
    exact .inl ⟨rfl, hh.changes_setSlots hq hc (changedAt_replaced hq hr) hother⟩
  · obtain ⟨⟨e, rfl, hcode⟩, rfl⟩ := hrun
    exact .inr ⟨e, rfl, by rw [hcode]; decide, rfl⟩

/-- After an update the old bytes fit again in the place of the record. -/
theorem updateRecord_restores (hh : HeapHolds h p chain) (hq : rid.pageId ∈ chain.ids)
    (hr : chain.record rid = some old) (hh' : HeapHolds h' p (replaced chain rid data)) :
    Runs (poolContext ext) (updateRecord { rid := rid, data := old }) (fun r h'' => r = .ok () ∧
      Changes h' p (replaced chain rid data) rid (some old) h''
        (replaced (replaced chain rid data) rid old)) h' := by
  obtain ⟨-, d, next, -, hs⟩ := hh.holds.stores hq
  have hslot := recordAt_eq_some.mp hr
  have hne := hs.ne_nil (List.mem_of_getElem? hslot)
  have hq' : rid.pageId ∈ (replaced chain rid data).ids := by
    rw [replaced, Chain.ids_setSlots]
    exact hq
  have hslots : (replaced chain rid data).slots rid.pageId =
      (chain.slots rid.pageId).set rid.slotId.toNat (some data) := by
    rw [replaced, Chain.slots_setSlots hq, if_pos rfl]
  have hr' : (replaced chain rid data).record rid = some data := by
    rw [changedAt_replaced hq hr, if_pos rfl]
  have hlive := liveBytes_set hslot (some data)
  have hfits := hs.fits
  have hold := liveBytes_set hslot none
  simp only [Option.getD_some, Option.getD_none, List.length_nil] at hlive hold
  have hle : old.length ≤ 4096 := by omega
  refine (updateRecord_runs hh'.holds hh'.nodup { rid := rid, data := old } hq' hne hle).mono
    fun r h'' hrun => ?_
  rw [hr'] at hrun
  dsimp only at hrun
  rw [if_pos] at hrun
  · obtain ⟨rfl, -, hother, hc⟩ := hrun
    exact ⟨rfl, hh'.changes_setSlots hq' hc (changedAt_replaced hq' hr') hother⟩
  · unfold FitsIn
    rw [hslots, List.length_set]
    omega

/-- `DeleteRecord` of a live record. -/
theorem deleteRecord_changes (hh : HeapHolds h p chain) (hq : rid.pageId ∈ chain.ids)
    (hr : chain.record rid = some old) :
    Runs (poolContext ext) (deleteRecord rid) (fun r h' => r = .ok () ∧
      ∃ chain', Changes h p chain rid none h' chain') h := by
  refine (deleteRecord_runs hh.holds hh.nodup hq).mono fun r h' hrun => ?_
  rw [hr] at hrun
  obtain ⟨rfl, -, hother, hc⟩ := hrun
  refine ⟨rfl, _, hh.changes_setSlots hq hc (changedAt_setSlots hq fun j => ?_) hother⟩
  rw [recordAt_rdropWhile, recordAt_set (lt_of_recordAt hr)]

/-! ## Reading -/

/-- A live record is on a page of the chain. -/
theorem mem_ids_of_record (hr : chain.record rid = some data) : rid.pageId ∈ chain.ids := by
  by_contra hnot
  rw [Chain.record_of_notMem hnot] at hr
  cases hr

theorem containsLoop_runs : ∀ (chain : Chain) (fuel : Nat) (visited : List PageId) (p : PageId),
    ChainHolds h p chain → chain.ids.Nodup → (∀ x ∈ chain.ids, x ∉ visited) →
    chain.length < fuel →
    Runs (poolContext ext) (containsLoop q fuel visited p)
      (fun r h' => h' = h ∧ r = .ok (decide (q ∈ chain.ids))) h := by
  intro chain
  induction chain with
  | nil =>
    rintro fuel visited p hend - - hfuel
    obtain ⟨fuel, rfl⟩ : ∃ n, fuel = n + 1 := ⟨fuel - 1, by simp at hfuel; omega⟩
    have hend : p = invalidPageId := hend
    have hnone : q ∉ Chain.ids [] := List.not_mem_nil
    rw [containsLoop, if_pos hend, decide_eq_false hnone]
    exact runs_pure ⟨rfl, rfl⟩
  | cons x rest ih =>
    rintro fuel visited p hc hnodup hvisited hfuel
    obtain ⟨y, slots⟩ := x
    obtain ⟨rfl, hpos, d, next, hd, hs, hrest⟩ := hc
    obtain ⟨fuel, rfl⟩ : ∃ n, fuel = n + 1 := ⟨fuel - 1, by simp at hfuel; omega⟩
    have hid : p ≠ invalidPageId := ne_invalid_of_pos hpos
    obtain ⟨hnot, hnodup'⟩ := List.nodup_cons.mp hnodup
    have hs' : Stores (Page.view p d).data (Page.view p d).pageId next slots := hs
    rw [containsLoop, if_neg hid, if_neg (hvisited p List.mem_cons_self)]
    have hmem : q ∈ Chain.ids ((p, slots) :: rest) ↔ q = p ∨ q ∈ Chain.ids rest := List.mem_cons
    by_cases hpq : p = q
    · rw [if_pos hpq, decide_eq_true (hmem.mpr (.inl hpq.symm))]
      exact runs_pure ⟨rfl, rfl⟩
    rw [if_neg hpq]
    refine runs_fetchPage hd fun f => ?_
    dsimp only
    rw [hs'.isInitialized hid, if_neg (by decide)]
    refine holding_unpinPage (.inr rfl) ?_
    dsimp only
    rw [hs'.getNextPageId hid]
    refine (ih fuel (p :: visited) next hrest hnodup' (fun x hx hv => ?_) ?_).mono fun r h' hr => ?_
    · rcases List.mem_cons.mp hv with rfl | hv
      · exact hnot hx
      · exact hvisited x (List.mem_cons_of_mem _ hx) hv
    · simp only [List.length_cons] at hfuel
      omega
    · obtain ⟨rfl, rfl⟩ := hr
      refine ⟨rfl, congrArg _ (decide_eq_decide.mpr ?_)⟩
      rw [hmem, or_iff_right fun he => hpq he.symm]

/-- `ContainsPage` walks the chain. -/
theorem containsPage_runs (hh : HeapHolds h p chain) (hq : 0 < q.toInt) :
    Runs (poolContext ext) (containsPage p q)
      (fun r h' => h' = h ∧ r = .ok (decide (q ∈ chain.ids))) h := by
  have hlen := length_lt_chainFuel hh.nodup fun x => hh.holds.good_of_mem
  rw [length_chainIds] at hlen
  rw [containsPage, if_neg (by rw [toInt_headerPageId]; omega)]
  exact containsLoop_runs chain _ _ _ hh.holds hh.nodup (fun _ _ => List.not_mem_nil) hlen

end

end HeapFile

end MiniDbms
