import MiniDbms.Storage.SlottedPageContents

/-!
# Runs of a slotted page

A slotted page is a map from slots to records (`SlotMap`). `Represents` says how a page
holds such a map: where its records lie, how much space is left, what `ReadRecord` answers,
and which header fields stay. Every operation of an initialised page either has room and
does to the page what it does to the map, or fails and leaves the page as it was.

* `represents_step`: one operation.
* `slottedPage_run`: any sequence of operations from `Init`.
-/

namespace MiniDbms

open Lib

namespace SlottedPage

/-! ## The layout of the records -/

/-- The live records lie in ranges that do not meet. -/
def Separate (d : PageData) (slots : List (Option Bytes)) : Prop :=
  ∀ i j a b, i ≠ j → recordAt slots i = some a → recordAt slots j = some b →
    readSlotRecordOffset d i + a.length ≤ readSlotRecordOffset d j ∨
      readSlotRecordOffset d j + b.length ≤ readSlotRecordOffset d i

section

variable {d : PageData} {pid next : PageId} {slots slots' : List (Option Bytes)} {data : Bytes}

/-- The records are written downwards: each below those before it. -/
theorem rewriteSlots_descending (rest : List (Option Bytes)) :
    ∀ (d : PageData) (slot pointer : Nat), 16 + (slot + rest.length) * 4 +
      liveBytes rest ≤ pointer → pointer ≤ 4096 → (∀ b, some b ∈ rest → b ≠ []) →
      (∀ i a, recordAt rest i = some a →
        readSlotRecordOffset (rewriteSlots d slot pointer rest).1 (slot + i) + a.length ≤ pointer) ∧
      ∀ i j a b, i < j → recordAt rest i = some a → recordAt rest j = some b →
        readSlotRecordOffset (rewriteSlots d slot pointer rest).1 (slot + j) + b.length ≤
          readSlotRecordOffset (rewriteSlots d slot pointer rest).1 (slot + i) := by
  induction rest with
  | nil => exact fun d slot pointer _ _ _ => ⟨nofun, nofun⟩
  | cons o rest ih =>
    intro d slot pointer hfit hle hne
    have hne' : ∀ b, some b ∈ rest → b ≠ [] := fun b hb => hne b (List.mem_cons_of_mem _ hb)
    rw [List.length_cons] at hfit
    have hshift : ∀ i, slot + 1 + i = slot + (i + 1) := by omega
    cases o with
    | none =>
      simp only [liveBytes_cons, Option.getD_none, List.length_nil, Nat.zero_add] at hfit
      obtain ⟨hbelow, hdesc⟩ :=
        ih (writeSlot d slot 0 0) (slot + 1) pointer (by omega) hle hne'
      simp only [hshift] at hbelow hdesc
      constructor
      · intro i a hi
        cases i with
        | zero => cases hi
        | succ i => exact hbelow i a hi
      · intro i j a b hij hi hj
        cases i with
        | zero => cases hi
        | succ i =>
          obtain ⟨j, rfl⟩ : ∃ k, j = k + 1 := ⟨j - 1, by omega⟩
          exact hdesc i j a b (by omega) hi hj
    | some data =>
      simp only [liveBytes_cons, Option.getD_some] at hfit
      have hptr : toU16 ((pointer : Int) - data.length) = pointer - data.length :=
        toU16_sub (by omega) (by omega)
      have hstep : rewriteSlots d slot pointer (some data :: rest) =
          rewriteSlots (writeSlot (d.splice (pointer - data.length) data) slot
            (pointer - data.length) data.length) (slot + 1) (pointer - data.length) rest := by
        rw [rewriteSlots, hptr]
      rw [hstep]
      set low := pointer - data.length with hlow
      set e := writeSlot (d.splice low data) slot low data.length with he
      obtain ⟨hbelow, hdesc⟩ := ih e (slot + 1) low (by omega) (by omega) hne'
      obtain ⟨-, hkeep, -, -⟩ := rewriteSlots_spec rest e (slot + 1) low (by omega) (by omega) hne'
      simp only [hshift] at hbelow hdesc
      -- the slot of the first record is not written again
      have hfirst : readSlotRecordOffset (rewriteSlots e (slot + 1) low rest).1 slot = low := by
        have hsame : readSlotRecordOffset e slot = low :=
          slotOffset_writeSlot_same _ (by omega) (by omega)
        refine Eq.trans (Image.readNat_congr ?_) hsame
        exact Image.bytes_sub hkeep (Nat.zero_le _) (by unfold slotOffset; omega)
      constructor
      · intro i a hi
        cases i with
        | zero =>
          cases Option.some.inj (show some data = some a from hi)
          rw [Nat.add_zero slot, hfirst]
          omega
        | succ i =>
          have := hbelow i a hi
          omega
      · intro i j a b hij hi hj
        obtain ⟨j, rfl⟩ : ∃ k, j = k + 1 := ⟨j - 1, by omega⟩
        cases i with
        | zero =>
          rw [Nat.add_zero slot, hfirst]
          exact hbelow j b hj
        | succ i => exact hdesc i j a b (by omega) hi hj

theorem separate_rewritten (d : PageData) (hfit : 16 + slots.length * 4 + liveBytes slots ≤ 4096)
    (hne : ∀ b, some b ∈ slots → b ≠ []) : Separate (rewritten d slots) slots := by
  unfold rewritten
  set cleared := (d.clear 16 (pageSize - 16)).writeNat 4 2 slots.length with hc
  obtain ⟨-, hdesc⟩ := rewriteSlots_descending slots cleared 0 4096 (by omega) (le_refl _) hne
  have hoff : ∀ i, readSlotRecordOffset ((rewriteSlots cleared 0 pageSize slots).1.writeNat 6 2
      (rewriteSlots cleared 0 pageSize slots).2) i =
      readSlotRecordOffset (rewriteSlots cleared 0 4096 slots).1 (0 + i) := by
    intro i
    rw [Nat.zero_add]
    exact Image.readNat_writeNat_of_disjoint _ (by decide) (.inr (by unfold slotOffset; omega))
  intro i j a b hij hi hj
  rw [hoff, hoff]
  rcases Nat.lt_or_gt_of_ne hij with hlt | hgt
  · exact .inr (hdesc i j a b hlt hi hj)
  · exact .inl (hdesc j i b a hgt hj hi)

theorem separate_inserted (h : Stores d pid next slots) (hsep : Separate d slots) (hne : data ≠ [])
    (hroom : HasRoom slots data.length) :
    Separate (inserted d slots data) (putRecord slots data) := by
  have hfit := h.fits
  have hpos := List.length_pos_iff.mpr hne
  obtain ⟨hnew, -⟩ := slotHolds_inserted (d := d) hfit hroom hne
  have hlen : data.length + liveBytes slots ≤ 4096 := by
    unfold HasRoom at hroom
    omega
  -- the other records stay where they are, above the new one
  have hold : ∀ i a, i ≠ freeSlot slots → recordAt (putRecord slots data) i = some a →
      recordAt slots i = some a ∧
      readSlotRecordOffset (inserted d slots data) i = readSlotRecordOffset d i ∧
      4096 - liveBytes slots ≤ readSlotRecordOffset d i := by
    intro i a hi ha
    rw [recordAt_putRecord, if_neg hi] at ha
    have hlt := lt_of_recordAt ha
    obtain ⟨-, hlow, -⟩ := h.slots _ _ (recordAt_eq_some.mp ha)
    refine ⟨ha, Image.readNat_congr (bytes_inserted hfit hroom ?_ ?_ ?_), hlow⟩
    · exact .inr (by unfold slotOffset; omega)
    · unfold slotOffset
      omega
    · unfold slotOffset
      unfold HasRoom at hroom
      split at hroom <;> omega
  have hput : ∀ a, recordAt (putRecord slots data) (freeSlot slots) = some a → a = data := by
    intro a ha
    rw [recordAt_putRecord, if_pos rfl] at ha
    exact (Option.some.inj ha).symm
  intro i j a b hij hi hj
  by_cases hin : i = freeSlot slots
  · subst hin
    obtain ⟨-, hoff, habove⟩ := hold j b (Ne.symm hij) hj
    cases hput a hi
    rw [hnew, hoff]
    exact .inl (by omega)
  · obtain ⟨hi', hoff, habove⟩ := hold i a hin hi
    by_cases hjn : j = freeSlot slots
    · subst hjn
      cases hput b hj
      rw [hnew, hoff]
      exact .inr (by omega)
    · obtain ⟨hj', hoff', -⟩ := hold j b hjn hj
      rw [hoff, hoff']
      exact hsep i j a b hij hi' hj'

end

/-! ## The map of a slotted page -/

/-- What a slotted page is for: records by slot, and the link to the next page. -/
structure SlotMap where
  slots : List (Option Bytes) := []
  next : PageId := invalidPageId

/-- The page without its header, its directory and its records. -/
def SlotMap.freeSpace (m : SlotMap) : Nat := 4096 - (16 + 4 * m.slots.length + liveBytes m.slots)

/-- The operations that change an initialised page. -/
inductive Op
  | insert (data : Bytes)
  | update (slot : SlotId) (data : Bytes)
  | delete (slot : SlotId)
  | setNext (next : PageId)

/-- The operation on the page; an insertion answers with its slot. -/
def Op.apply : Op → Page → Except Status (Option SlotId) × Page
  | .insert data, page => ((insertRecord page data).1.map some, (insertRecord page data).2)
  | .update slot data, page =>
    ((updateRecord page slot data).1.map fun _ => none, (updateRecord page slot data).2)
  | .delete slot, page => ((deleteRecord page slot).1.map fun _ => none, (deleteRecord page slot).2)
  | .setNext next, page =>
    ((setNextPageId page next).1.map fun _ => none, (setNextPageId page next).2)

/-- When the operation succeeds on the page `pid` that holds the map. -/
def Op.Fits (pid : PageId) (m : SlotMap) : Op → Prop
  | .insert data => 1 ≤ data.length ∧
      data.length + (if freeSlot m.slots < m.slots.length then 0 else 4) ≤ m.freeSpace
  | .update slot data => 1 ≤ data.length ∧ recordAt m.slots slot.toNat ≠ none ∧
      16 + 4 * m.slots.length + liveBytes (m.slots.set slot.toNat (some data)) ≤ 4096
  | .delete slot => recordAt m.slots slot.toNat ≠ none
  | .setNext next => invalidPageId.toInt ≤ next.toInt ∧ next ≠ pid

instance (pid : PageId) (m : SlotMap) (op : Op) : Decidable (op.Fits pid m) :=
  match op with
  | .insert _ => inferInstanceAs (Decidable (_ ∧ _))
  | .update _ _ => inferInstanceAs (Decidable (_ ∧ _))
  | .delete _ => inferInstanceAs (Decidable (_ ≠ _))
  | .setNext _ => inferInstanceAs (Decidable (_ ∧ _))

/-- The slot that a successful insertion answers with. -/
def Op.answer (m : SlotMap) : Op → Option SlotId
  | .insert _ => some (UInt16.ofNat (freeSlot m.slots))
  | _ => none

/-- What a successful operation does to the map. -/
def Op.effect (m : SlotMap) : Op → SlotMap
  | .insert data => { m with slots := putRecord m.slots data }
  | .update slot data => { m with slots := m.slots.set slot.toNat (some data) }
  | .delete slot => { m with slots := (m.slots.set slot.toNat none).rdropWhile Option.isNone }
  | .setNext next => { m with next := next }

/-- The map after some operations. -/
def SlotMap.run (pid : PageId) (ops : List Op) : SlotMap :=
  ops.foldl (fun m op => if op.Fits pid m then op.effect m else m) {}

/-- The page after some operations. -/
def runOps (page : Page) (ops : List Op) : Page := ops.foldl (fun p op => (op.apply p).2) page

/-- How the page `pid` holds a map. -/
structure Represents (page : Page) (pid : PageId) (lsn : Bytes) (m : SlotMap) : Prop where
  pageId : page.pageId = pid
  initialized : isInitialized page = true
  lsn : page.data.bytes 12 4 = lsn
  next : getNextPageId page = m.next
  count : getSlotCount page = m.slots.length
  live : ∀ i data, recordAt m.slots i = some data →
    directoryEnd m.slots.length ≤ readSlotRecordOffset page.data i ∧
    readSlotRecordOffset page.data i + data.length ≤ pageSize ∧
    readSlotRecordLength page.data i = data.length ∧
    page.data.bytes (readSlotRecordOffset page.data i) data.length = data
  separate : Separate page.data m.slots
  space : getFreeSpace page + (16 + 4 * m.slots.length + liveBytes m.slots) = 4096
  readLive : ∀ slot data, recordAt m.slots slot.toNat = some data →
    readRecord page slot = .ok { rid := ⟨pid, slot⟩, data := data }
  readFree : ∀ slot, recordAt m.slots slot.toNat = none →
    ∃ e, readRecord page slot = .error e ∧ e.code = .notFound

/-- The invariant behind `Represents`. -/
structure Layout (page : Page) (pid : PageId) (lsn : Bytes) (m : SlotMap) : Prop where
  pageId : page.pageId = pid
  valid : pid ≠ invalidPageId
  stores : Stores page.data page.pageId m.next m.slots
  separate : Separate page.data m.slots
  lsn : page.data.bytes 12 4 = lsn

section

variable {page : Page} {pid : PageId} {lsn : Bytes} {m : SlotMap}

theorem Layout.represents (h : Layout page pid lsn m) : Represents page pid lsn m := by
  have hid : page.pageId ≠ invalidPageId := h.pageId ▸ h.valid
  have hfit := h.stores.fits
  refine ⟨h.pageId, h.stores.isInitialized hid, h.lsn, h.stores.getNextPageId hid,
    h.stores.getSlotCount, ?_, h.separate, ?_, ?_, ?_⟩
  · intro i data hrec
    obtain ⟨-, hlow, hup, hlen, hbytes⟩ := h.stores.slots _ _ (recordAt_eq_some.mp hrec)
    exact ⟨by unfold directoryEnd; omega, by rw [pageSize_eq]; omega, hlen, hbytes⟩
  · rw [h.stores.getFreeSpace hid]
    omega
  · intro slot data hrec
    rw [readRecord_stores h.stores hid hrec, h.pageId]
  · intro slot hrec
    exact readRecord_free h.stores hid hrec

theorem separate_setNextPageId {d : PageData} {slots : List (Option Bytes)} (h : Separate d slots)
    (next : PageId) : Separate (PageData.writePageId d 8 next) slots := by
  have hoff : ∀ i, readSlotRecordOffset (PageData.writePageId d 8 next) i =
      readSlotRecordOffset d i := by
    intro i
    exact Image.readNat_writeNat_of_disjoint _ (by decide) (.inr (by unfold slotOffset; omega))
  intro i j a b hij hi hj
  rw [hoff, hoff]
  exact h i j a b hij hi hj

/-- An operation that rewrites the records. -/
theorem Layout.rewritten (h : Layout page pid lsn m) (slots' : List (Option Bytes))
    (hfit : 16 + slots'.length * 4 + liveBytes slots' ≤ 4096)
    (hne : ∀ b, some b ∈ slots' → b ≠ []) :
    ∃ page', rewriteRecords page slots' = (.ok (), page') ∧
      Layout page' pid lsn { m with slots := slots' } := by
  refine ⟨_, rewriteRecords_eq hfit, h.pageId, h.valid, h.stores.rewritten hfit hne,
    separate_rewritten _ hfit hne, ?_⟩
  rw [← h.lsn]
  exact bytes_rewritten hfit hne (by decide) (.inr (by decide))

theorem Layout.insert (h : Layout page pid lsn m) {data : Bytes}
    (hfit : (Op.insert data).Fits pid m) :
    ((Op.insert data).apply page).1 = .ok ((Op.insert data).answer m) ∧
      Layout ((Op.insert data).apply page).2 pid lsn ((Op.insert data).effect m) := by
  have hid : page.pageId ≠ invalidPageId := h.pageId ▸ h.valid
  have hfits := h.stores.fits
  obtain ⟨hpos, hspace⟩ := hfit
  have hne : data ≠ [] := List.length_pos_iff.mp hpos
  have hroom : HasRoom m.slots data.length := by
    unfold HasRoom
    unfold SlotMap.freeSpace at hspace
    split at hspace <;> rename_i hc <;> simp only [hc, if_true, if_false] <;> omega
  rw [Op.apply, insertRecord_eq page h.stores hid hne hroom]
  refine ⟨rfl, h.pageId, h.valid, h.stores.inserted hne hroom,
    separate_inserted h.stores h.separate hne hroom, ?_⟩
  rw [← h.lsn]
  apply bytes_inserted hfits hroom
  · exact .inr (by decide)
  · exact .inl (by omega)
  · unfold HasRoom at hroom
    split at hroom <;> omega

theorem Layout.update (h : Layout page pid lsn m) {slot : SlotId} {data : Bytes}
    (hfit : (Op.update slot data).Fits pid m) :
    ((Op.update slot data).apply page).1 = .ok ((Op.update slot data).answer m) ∧
      Layout ((Op.update slot data).apply page).2 pid lsn ((Op.update slot data).effect m) := by
  have hid : page.pageId ≠ invalidPageId := h.pageId ▸ h.valid
  obtain ⟨hpos, hlive, hspace⟩ := hfit
  have hne : data ≠ [] := List.length_pos_iff.mp hpos
  obtain ⟨old, hold⟩ := Option.ne_none_iff_exists'.mp hlive
  have hset := liveBytes_set (recordAt_eq_some.mp hold) (some data)
  have hle := length_le_liveBytes hold
  rw [Option.getD_some, Option.getD_some] at hset
  obtain ⟨page', hrw, hlay⟩ := h.rewritten (m.slots.set slot.toNat (some data))
    (by rw [List.length_set]; omega) (by
      intro b hb
      rcases List.mem_or_eq_of_mem_set hb with hb | hb
      · exact h.stores.ne_nil hb
      · cases hb
        exact hne)
  rw [Op.apply, updateRecord_eq h.stores hid hne (by omega) hold, hrw]
  exact ⟨rfl, hlay⟩

theorem Layout.delete (h : Layout page pid lsn m) {slot : SlotId}
    (hfit : (Op.delete slot).Fits pid m) :
    ((Op.delete slot).apply page).1 = .ok ((Op.delete slot).answer m) ∧
      Layout ((Op.delete slot).apply page).2 pid lsn ((Op.delete slot).effect m) := by
  have hid : page.pageId ≠ invalidPageId := h.pageId ▸ h.valid
  have hfits := h.stores.fits
  obtain ⟨old, hold⟩ := Option.ne_none_iff_exists'.mp hfit
  have hset := liveBytes_set (recordAt_eq_some.mp hold) none
  have hlen := length_rdropWhile_le (m.slots.set slot.toNat none)
  rw [List.length_set] at hlen
  rw [Option.getD_some, Option.getD_none, List.length_nil] at hset
  obtain ⟨page', hrw, hlay⟩ := h.rewritten
    ((m.slots.set slot.toNat none).rdropWhile Option.isNone)
    (by rw [liveBytes_rdropWhile]; omega) (by
      intro b hb
      rcases List.mem_or_eq_of_mem_set ((List.rdropWhile_prefix Option.isNone _).subset hb) with
        hb | hb
      · exact h.stores.ne_nil hb
      · cases hb)
  rw [Op.apply, deleteRecord_eq h.stores hid hold, hrw]
  exact ⟨rfl, hlay⟩

theorem Layout.setNext (h : Layout page pid lsn m) {next : PageId}
    (hfit : (Op.setNext next).Fits pid m) :
    ((Op.setNext next).apply page).1 = .ok ((Op.setNext next).answer m) ∧
      Layout ((Op.setNext next).apply page).2 pid lsn ((Op.setNext next).effect m) := by
  have hid : page.pageId ≠ invalidPageId := h.pageId ▸ h.valid
  obtain ⟨hpos, hne⟩ := hfit
  rw [Op.apply, setNextPageId_eq h.stores hid hpos (h.pageId ▸ hne)]
  refine ⟨rfl, h.pageId, h.valid, h.stores.withNext next, separate_setNextPageId h.separate next,
    ?_⟩
  rw [← h.lsn]
  exact Image.bytes_writeNat_of_disjoint _ (by decide) (.inr (by decide))

theorem Layout.fails (h : Layout page pid lsn m) {op : Op} (hfit : ¬ op.Fits pid m) :
    ∃ e, op.apply page = (.error e, page) := by
  have hid : page.pageId ≠ invalidPageId := h.pageId ▸ h.valid
  have hfits := h.stores.fits
  have hinit := h.stores.isInitialized hid
  cases op with
  | insert data =>
    rw [Op.apply]
    by_cases hsize : data.length = 0 ∨ pageSize < data.length
    · rw [insertRecord, hinit, if_neg (by decide), if_pos hsize]
      exact ⟨_, rfl⟩
    · rw [pageSize_eq] at hsize
      have hne : data ≠ [] := List.length_pos_iff.mp (by omega)
      have hfull : ¬ HasRoom m.slots data.length := by
        intro hroom
        apply hfit
        unfold HasRoom at hroom
        unfold Op.Fits SlotMap.freeSpace
        split at hroom <;> rename_i hc <;> simp only [hc, if_true, if_false] <;> omega
      rw [insertRecord_full page h.stores hid hne (by omega) hfull]
      exact ⟨_, rfl⟩
  | update slot data =>
    rw [Op.apply]
    by_cases hsize : data.length = 0 ∨ pageSize < data.length
    · rw [updateRecord, hinit, if_neg (by decide), if_pos hsize]
      exact ⟨_, rfl⟩
    · rw [pageSize_eq] at hsize
      have hne : data ≠ [] := List.length_pos_iff.mp (by omega)
      cases hrec : recordAt m.slots slot.toNat with
      | none =>
        obtain ⟨e, he, -⟩ := updateRecord_free h.stores hid hne (by omega) hrec
        rw [he]
        exact ⟨_, rfl⟩
      | some old =>
        have hset := liveBytes_set (recordAt_eq_some.mp hrec) (some data)
        have hle := length_le_liveBytes hrec
        rw [Option.getD_some, Option.getD_some] at hset
        have hfull : 4096 < 16 + 4 * m.slots.length +
            liveBytes (m.slots.set slot.toNat (some data)) := by
          apply Nat.lt_of_not_le
          intro hle
          exact hfit ⟨by omega, by rw [hrec]; exact Option.some_ne_none old, hle⟩
        rw [updateRecord_full h.stores hid hne (by omega) hrec (by omega)]
        exact ⟨_, rfl⟩
  | delete slot =>
    have hrec : recordAt m.slots slot.toNat = none := Decidable.not_not.mp hfit
    obtain ⟨e, he, -⟩ := deleteRecord_free h.stores hid hrec
    rw [Op.apply, he]
    exact ⟨_, rfl⟩
  | setNext next =>
    have hcond : next.toInt < invalidPageId.toInt ∨ next = page.pageId := by
      rw [h.pageId]
      by_cases hpos : invalidPageId.toInt ≤ next.toInt
      · exact .inr (Decidable.not_not.mp fun hne => hfit ⟨hpos, hne⟩)
      · exact .inl (by omega)
    rw [Op.apply, setNextPageId, hinit, if_neg (by decide), if_pos hcond]
    exact ⟨_, rfl⟩

/-- One operation: it succeeds when it fits, and otherwise leaves the page as it was. -/
theorem represents_step (h : Layout page pid lsn m) (op : Op) :
    (op.Fits pid m → (op.apply page).1 = .ok (op.answer m) ∧
      Layout (op.apply page).2 pid lsn (op.effect m)) ∧
    (¬ op.Fits pid m → ∃ e, op.apply page = (.error e, page)) := by
  refine ⟨fun hfit => ?_, h.fails⟩
  cases op with
  | insert data => exact h.insert hfit
  | update slot data => exact h.update hfit
  | delete slot => exact h.delete hfit
  | setNext next => exact h.setNext hfit

/-- `Init` writes an empty map with LSN zero. -/
theorem layout_init (hinit : (init page).1 = .ok ()) :
    Layout (init page).2 page.pageId (List.replicate 4 0) {} := by
  have hid : page.pageId ≠ invalidPageId := by
    intro hid
    rw [init, if_pos hid] at hinit
    cases hinit
  obtain ⟨d, heq, hstores⟩ := init_stores page hid
  have hdata : (init page).2.data.bytes 12 4 = List.replicate 4 0 := by
    rw [init, if_neg hid]
    exact Image.bytes_splice_same _ (show 12 + (leBytes 4 0).length ≤ pageSize by decide)
  rw [heq] at hdata ⊢
  refine ⟨rfl, hid, hstores, ?_, hdata⟩
  intro i j a b _ hi
  cases hi

theorem layout_runOps (h : Layout page pid lsn m) (ops : List Op) :
    Layout (runOps page ops) pid lsn
      (ops.foldl (fun m op => if op.Fits pid m then op.effect m else m) m) := by
  induction ops generalizing page m with
  | nil => exact h
  | cons op ops ih =>
    rw [runOps, List.foldl_cons, List.foldl_cons]
    obtain ⟨hdone, hfail⟩ := represents_step h op
    apply ih
    by_cases hfit : op.Fits pid m
    · rw [if_pos hfit]
      exact (hdone hfit).2
    · rw [if_neg hfit]
      obtain ⟨e, he⟩ := hfail hfit
      rw [he]
      exact h

end

/-- From `Init` on, a slotted page is the map of its operations: it answers every read from the
map, and the next operation succeeds exactly when it fits. -/
theorem slottedPage_run (page : Page) (hinit : (init page).1 = .ok ()) (ops : List Op) :
    Represents (runOps (init page).2 ops) page.pageId (List.replicate 4 0)
      (SlotMap.run page.pageId ops) ∧
    ∀ op : Op,
      (op.Fits page.pageId (SlotMap.run page.pageId ops) →
        (op.apply (runOps (init page).2 ops)).1 = .ok (op.answer (SlotMap.run page.pageId ops)) ∧
        Represents (op.apply (runOps (init page).2 ops)).2 page.pageId (List.replicate 4 0)
          (op.effect (SlotMap.run page.pageId ops))) ∧
      (¬ op.Fits page.pageId (SlotMap.run page.pageId ops) →
        ∃ e, op.apply (runOps (init page).2 ops) = (.error e, runOps (init page).2 ops)) := by
  have hlay := layout_runOps (layout_init hinit) ops
  refine ⟨hlay.represents, fun op => ?_⟩
  obtain ⟨hdone, hfail⟩ := represents_step hlay op
  refine ⟨fun hfit => ?_, hfail⟩
  obtain ⟨hans, hnew⟩ := hdone hfit
  exact ⟨hans, hnew.represents⟩

/-- A page with one record: updated, deleted, and its slot filled again. -/
theorem slottedPage_run_reuse :
    Represents (runOps (init { pageId := 1 }).2
      [.insert [1, 2], .update 0 [3], .delete 0, .insert [4]])
      1 (List.replicate 4 0) { slots := [some [4]] } :=
  (slottedPage_run { pageId := 1 } rfl [.insert [1, 2], .update 0 [3], .delete 0, .insert [4]]).1

/-- An empty record is rejected by `UpdateRecord`, however much room there is. -/
theorem updateRecord_empty_rejected :
    readRecord (runOps (init { pageId := 1 }).2 [.insert [1]]) 0 =
        .ok { rid := ⟨1, 0⟩, data := [1] } ∧
      16 + 4 * getSlotCount (runOps (init { pageId := 1 }).2 [.insert [1]]) + ([] : Bytes).length ≤
        4096 ∧
      updateRecord (runOps (init { pageId := 1 }).2 [.insert [1]]) 0 [] =
        (.error (.invalidArgument "Invalid updated record"),
          runOps (init { pageId := 1 }).2 [.insert [1]]) := by
  have hinit : (init ({ pageId := 1 } : Page)).1 = .ok () := rfl
  have hlay := layout_runOps (layout_init hinit) [.insert [1]]
  have hid : (runOps (init { pageId := 1 }).2 [.insert [1]]).pageId ≠ invalidPageId :=
    hlay.pageId ▸ hlay.valid
  refine ⟨hlay.represents.readLive 0 [1] rfl, ?_, ?_⟩
  · rw [hlay.represents.count]
    decide
  · rw [updateRecord, hlay.stores.isInitialized hid, if_neg (by decide), if_pos (.inl rfl)]

end SlottedPage

end MiniDbms
