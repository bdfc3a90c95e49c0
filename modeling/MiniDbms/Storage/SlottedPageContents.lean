import MiniDbms.Storage.SlottedPage

/-!
# What a slotted page holds

`Stores d pid next slots`: the image `d` is an initialised slotted page with id `pid`, link
`next` and the records `slots` (`none` for a free slot), compacted against its end. Each
operation of a slotted page is described by what it does to `slots` alone:

* `insertRecord_room`, `insertRecord_full`: the first free slot, if the record has room;
* `readRecord_stores`, `updateRecord_fits`, `updateRecord_full`, `deleteRecord_live` and
  their failures on free slots (`readRecord_free`, `updateRecord_free`, `deleteRecord_free`).
-/

namespace MiniDbms

open Lib

namespace SlottedPage

/-! ## Slots of the directory -/

section Slots

variable (d : PageData) {i j off len : Nat}

theorem slotOffset_writeSlot_same (hi : i < 1020) (ho : off < 65536) :
    readSlotRecordOffset (writeSlot d i off len) i = off := by
  unfold readSlotRecordOffset writeSlot slotOffset
  rw [Image.readNat_writeNat_of_disjoint _ (by rw [pageSize_eq]; omega) (by omega),
    Image.readNat_writeNat_same _ (by rw [pageSize_eq]; omega), Nat.mod_eq_of_lt (by omega)]

theorem slotLength_writeSlot_same (hi : i < 1020) (hl : len < 65536) :
    readSlotRecordLength (writeSlot d i off len) i = len := by
  unfold readSlotRecordLength writeSlot slotOffset
  rw [Image.readNat_writeNat_same _ (by rw [pageSize_eq]; omega), Nat.mod_eq_of_lt (by omega)]

/-- A range outside the slot is not changed by writing it. -/
theorem bytes_writeSlot (hi : i < 1020) {a n : Nat} (h : a + n ≤ 16 + i * 4 ∨ 20 + i * 4 ≤ a) :
    (writeSlot d i off len).bytes a n = d.bytes a n := by
  unfold writeSlot slotOffset
  rw [Image.bytes_writeNat_of_disjoint _ (by rw [pageSize_eq]; omega) (by omega),
    Image.bytes_writeNat_of_disjoint _ (by rw [pageSize_eq]; omega) (by omega)]

end Slots

/-- The slot `i` of the directory is free, or describes a record at `low` or above. -/
def SlotHolds (d : PageData) (low i : Nat) : Option Bytes → Prop
  | none => readSlotRecordOffset d i = 0 ∧ readSlotRecordLength d i = 0
  | some data => data ≠ [] ∧ low ≤ readSlotRecordOffset d i ∧
      readSlotRecordOffset d i + data.length ≤ 4096 ∧ readSlotRecordLength d i = data.length ∧
      d.bytes (readSlotRecordOffset d i) data.length = data

theorem SlotHolds.congr {d e : PageData} {low low' i : Nat} {o : Option Bytes}
    (h : SlotHolds d low i o) (hlow : low' ≤ low)
    (hslot : e.bytes (16 + i * 4) 4 = d.bytes (16 + i * 4) 4)
    (hrec : e.bytes low (4096 - low) = d.bytes low (4096 - low)) : SlotHolds e low' i o := by
  have hoff : readSlotRecordOffset e i = readSlotRecordOffset d i :=
    Image.readNat_congr (Image.bytes_sub hslot (le_refl _) (by unfold slotOffset; omega))
  have hlen : readSlotRecordLength e i = readSlotRecordLength d i :=
    Image.readNat_congr
      (Image.bytes_sub hslot (by unfold slotOffset; omega) (by unfold slotOffset; omega))
  cases o with
  | none => exact ⟨hoff.trans h.1, hlen.trans h.2⟩
  | some data =>
    obtain ⟨hne, h1, h2, h3, h4⟩ := h
    refine ⟨hne, by omega, by omega, by omega, ?_⟩
    rw [hoff, Image.bytes_sub hrec h1 (by omega), h4]

/-- The image of an initialised page with the given records. -/
structure Stores (d : PageData) (pid next : PageId) (slots : List (Option Bytes)) : Prop where
  pageId : PageData.readPageId d 0 = pid
  count : d.readNat 4 2 = slots.length
  free : d.readNat 6 2 = 4096 - liveBytes slots
  next : PageData.readPageId d 8 = next
  fits : 16 + slots.length * 4 + liveBytes slots ≤ 4096
  slots : ∀ i o, slots[i]? = some o → SlotHolds d (4096 - liveBytes slots) i o

section

variable {d : PageData} {pid next : PageId} {slots : List (Option Bytes)} {page : Page}

@[simp] theorem liveBytes_nil : liveBytes [] = 0 := rfl

@[simp] theorem liveBytes_cons (o : Option Bytes) (l : List (Option Bytes)) :
    liveBytes (o :: l) = (o.getD []).length + liveBytes l := by
  simp [liveBytes]

@[simp] theorem liveBytes_append (l l' : List (Option Bytes)) :
    liveBytes (l ++ l') = liveBytes l + liveBytes l' := by
  simp [liveBytes]

theorem liveBytes_set {l : List (Option Bytes)} {i : Nat} {o : Option Bytes} (h : l[i]? = some o)
    (o' : Option Bytes) :
    liveBytes (l.set i o') + (o.getD []).length = liveBytes l + (o'.getD []).length := by
  induction l generalizing i with
  | nil => simp at h
  | cons a l ih =>
    cases i with
    | zero =>
      cases Option.some.inj h
      simp only [List.set_cons_zero, liveBytes_cons]
      omega
    | succ i =>
      have := ih h
      simp only [List.set_cons_succ, liveBytes_cons]
      omega

theorem Stores.isInitialized (h : Stores page.data page.pageId next slots)
    (hid : page.pageId ≠ invalidPageId) : isInitialized page = true := by
  have hfit := h.fits
  have hcount : SlottedPage.getSlotCount page = slots.length := h.count
  have hfree : freeSpacePointer page = 4096 - liveBytes slots := h.free
  simp only [SlottedPage.isInitialized, decide_eq_true_eq]
  rw [hcount, hfree, directoryEnd]
  exact ⟨hid, h.pageId, show _ ≤ 4096 by omega, by omega, show _ ≤ 4096 by omega⟩

theorem Stores.getSlotCount (h : Stores page.data page.pageId next slots) :
    getSlotCount page = slots.length := h.count

theorem Stores.getNextPageId (h : Stores page.data page.pageId next slots)
    (hid : page.pageId ≠ invalidPageId) : getNextPageId page = next := by
  rw [SlottedPage.getNextPageId, if_pos (h.isInitialized hid), h.next]

theorem Stores.getFreeSpace (h : Stores page.data page.pageId next slots)
    (hid : page.pageId ≠ invalidPageId) :
    getFreeSpace page = 4096 - (16 + slots.length * 4 + liveBytes slots) := by
  have hfit := h.fits
  have hfree : freeSpacePointer page = 4096 - liveBytes slots := h.free
  rw [SlottedPage.getFreeSpace, if_pos (h.isInitialized hid), h.getSlotCount, hfree,
    toU16_sub (by unfold directoryEnd; omega) (by omega), directoryEnd]
  omega

end

/-! ## Initialisation and links -/

theorem init_stores (page : Page) (hid : page.pageId ≠ invalidPageId) :
    ∃ d, init page = (.ok (), { page with data := d, isDirty := true }) ∧
      Stores d page.pageId invalidPageId [] := by
  unfold init
  rw [if_neg hid]
  refine ⟨_, rfl, ⟨?_, ?_, ?_, ?_, by decide, nofun⟩⟩
  · have hsame := PageData.readPageId_writePageId_same Image.zero page.pageId
      (show 0 + 4 ≤ pageSize by decide)
    refine (PageData.readPageId_congr ?_).trans hsame
    unfold PageData.writePageId
    rw [Image.readNat_writeNat_of_disjoint _ (by decide) (by decide),
      Image.readNat_writeNat_of_disjoint _ (by decide) (by decide),
      Image.readNat_writeNat_of_disjoint _ (by decide) (by decide),
      Image.readNat_writeNat_of_disjoint _ (by decide) (by decide)]
  · unfold PageData.writePageId
    rw [Image.readNat_writeNat_of_disjoint _ (by decide) (by decide),
      Image.readNat_writeNat_of_disjoint _ (by decide) (by decide),
      Image.readNat_writeNat_of_disjoint _ (by decide) (by decide),
      Image.readNat_writeNat_same _ (by decide)]
    rfl
  · unfold PageData.writePageId
    rw [Image.readNat_writeNat_of_disjoint _ (by decide) (by decide),
      Image.readNat_writeNat_of_disjoint _ (by decide) (by decide),
      Image.readNat_writeNat_same _ (by decide)]
    rfl
  · exact (PageData.readPageId_congr
      (Image.readNat_writeNat_of_disjoint _ (by decide) (by decide))).trans
      (PageData.readPageId_writePageId_same _ _ (by decide))

theorem setNextPageId_eq {page : Page} {next next' : PageId} {slots : List (Option Bytes)}
    (h : Stores page.data page.pageId next slots) (hid : page.pageId ≠ invalidPageId)
    (hpos : invalidPageId.toInt ≤ next'.toInt) (hne : next' ≠ page.pageId) :
    setNextPageId page next' =
      (.ok (), { page with data := PageData.writePageId page.data 8 next', isDirty := true }) := by
  have hcond : ¬ (next'.toInt < invalidPageId.toInt ∨ next' = page.pageId) := by
    rintro (hlt | he)
    · omega
    · exact hne he
  rw [setNextPageId, h.isInitialized hid, if_neg (by decide), if_neg hcond]

theorem Stores.withNext {d : PageData} {pid next : PageId} {slots : List (Option Bytes)}
    (h : Stores d pid next slots) (next' : PageId) :
    Stores (PageData.writePageId d 8 next') pid next' slots := by
  have hfit := h.fits
  have hdis : ∀ {a n : Nat}, a + n ≤ 8 ∨ 12 ≤ a →
      (PageData.writePageId d 8 next').bytes a n = d.bytes a n := fun hd =>
    Image.bytes_writeNat_of_disjoint _ (by decide) (by omega)
  refine ⟨?_, ?_, ?_, PageData.readPageId_writePageId_same _ _ (by decide), h.fits,
    fun i o hi => ?_⟩
  · exact (PageData.readPageId_congr (Image.readNat_congr (hdis (by omega)))).trans h.pageId
  · exact (Image.readNat_congr (hdis (by omega))).trans h.count
  · exact (Image.readNat_congr (hdis (by omega))).trans h.free
  · exact (h.slots i o hi).congr (le_refl _) (hdis (by omega)) (hdis (by omega))

theorem setNextPageId_stores {page : Page} {next next' : PageId} {slots : List (Option Bytes)}
    (h : Stores page.data page.pageId next slots) (hid : page.pageId ≠ invalidPageId)
    (hpos : 0 < next'.toInt) (hne : next' ≠ page.pageId) :
    ∃ d, setNextPageId page next' = (.ok (), { page with data := d, isDirty := true }) ∧
      Stores d page.pageId next' slots :=
  ⟨_, setNextPageId_eq h hid (by rw [toInt_invalidPageId]; omega) hne, h.withNext next'⟩

/-! ## Loading and rewriting all records -/

theorem SlotHolds.loadSlot {d : PageData} {low n i : Nat} {o : Option Bytes}
    (h : SlotHolds d low i o) (hlow : directoryEnd n ≤ low) : loadSlot d n i = .ok o := by
  have hdir : 16 ≤ directoryEnd n := Nat.le_add_right _ _
  unfold SlottedPage.loadSlot
  cases o with
  | none => rw [h.1, h.2, if_pos ⟨rfl, rfl⟩]
  | some data =>
    obtain ⟨hne, h1, h2, h3, h4⟩ := h
    have hpos := List.length_pos_iff.mpr hne
    simp only [h3]
    rw [if_neg (by omega), if_neg (by omega), if_neg (by rw [pageSize_eq]; omega), h4]

section

variable {d : PageData} {pid next : PageId} {slots slots' : List (Option Bytes)} {page : Page}

theorem Stores.loadRecords (h : Stores d pid next slots) :
    loadRecords d slots.length = .ok slots := by
  have hfit := h.fits
  unfold SlottedPage.loadRecords
  rw [if_neg (by rw [pageSize_eq, directoryEnd]; omega)]
  have hload : ∀ i ∈ List.range slots.length,
      loadSlot d slots.length i = .ok (slots.getD i none) := by
    intro i hi
    have hlt := List.mem_range.mp hi
    have hget : slots[i]? = some (slots.getD i none) := by
      rw [List.getD_eq_getElem?_getD, List.getElem?_eq_getElem hlt]
      rfl
    exact (h.slots i _ hget).loadSlot (by unfold directoryEnd; omega)
  rw [mapM_ok hload]
  congr 1
  apply List.ext_getElem (by simp)
  intro i hi hi'
  simp [List.getElem?_eq_getElem hi']

/-- Writing the records from `slot` on, below `pointer`: what is before the slot and above the
pointer stays, and the slots written hold the records. -/
theorem rewriteSlots_spec (rest : List (Option Bytes)) :
    ∀ (d : PageData) (slot pointer : Nat), 16 + (slot + rest.length) * 4 +
      liveBytes rest ≤ pointer → pointer ≤ 4096 → (∀ b, some b ∈ rest → b ≠ []) →
      (rewriteSlots d slot pointer rest).2 = pointer - liveBytes rest ∧
        (rewriteSlots d slot pointer rest).1.bytes 0 (16 + slot * 4) = d.bytes 0 (16 + slot * 4) ∧
        (rewriteSlots d slot pointer rest).1.bytes pointer (4096 - pointer) =
          d.bytes pointer (4096 - pointer) ∧
        ∀ i o, rest[i]? = some o →
          SlotHolds (rewriteSlots d slot pointer rest).1 (pointer - liveBytes rest)
          (slot + i) o := by
  induction rest with
  | nil => exact fun d slot pointer _ _ _ => ⟨rfl, rfl, rfl, nofun⟩
  | cons o rest ih =>
    intro d slot pointer hfit hle hne
    rw [List.length_cons] at hfit
    cases o with
    | none =>
      simp only [liveBytes_cons, Option.getD_none, List.length_nil, Nat.zero_add] at hfit ⊢
      have hd : ∀ {a n : Nat}, a + n ≤ 16 + slot * 4 ∨ 20 + slot * 4 ≤ a →
          (writeSlot d slot 0 0).bytes a n = d.bytes a n := fun h => bytes_writeSlot d (by omega) h
      obtain ⟨h1, h2, h3, h4⟩ := ih (writeSlot d slot 0 0) (slot + 1) pointer (by omega) hle
        fun b hb => hne b (List.mem_cons_of_mem _ hb)
      refine ⟨h1, ?_, h3.trans (hd (by omega)), fun i o hi => ?_⟩
      · exact (Image.bytes_sub h2 (le_refl _) (by omega)).trans (hd (by omega))
      · cases i with
        | zero =>
          cases Option.some.inj hi
          have hw : SlotHolds (writeSlot d slot 0 0) pointer slot none :=
            ⟨slotOffset_writeSlot_same d (by omega) (by omega),
              slotLength_writeSlot_same d (by omega) (by omega)⟩
          exact hw.congr (by omega) (Image.bytes_sub h2 (by omega) (by omega)) h3
        | succ i =>
          have := h4 i o hi
          rwa [Nat.add_assoc, Nat.add_comm 1 i] at this
    | some data =>
      simp only [liveBytes_cons, Option.getD_some] at hfit ⊢
      have hdata : data ≠ [] := hne data List.mem_cons_self
      have hptr : toU16 ((pointer : Int) - data.length) = pointer - data.length :=
        toU16_sub (by omega) (by omega)
      have hstep : rewriteSlots d slot pointer (some data :: rest) =
          rewriteSlots (writeSlot (d.splice (pointer - data.length) data) slot
            (pointer - data.length) data.length) (slot + 1) (pointer - data.length) rest := by
        rw [rewriteSlots, hptr]
      rw [hstep]
      set low := pointer - data.length with hlow
      set e := writeSlot (d.splice low data) slot low data.length with he
      have hsplice : ∀ {a n : Nat}, a + n ≤ low ∨ pointer ≤ a →
          (d.splice low data).bytes a n = d.bytes a n := fun h =>
        Image.bytes_splice_of_disjoint d (show _ ≤ 4096 by omega) (by omega)
      have hslot : ∀ {a n : Nat}, a + n ≤ 16 + slot * 4 ∨ 20 + slot * 4 ≤ a →
          e.bytes a n = (d.splice low data).bytes a n := fun h =>
        bytes_writeSlot _ (by omega) h
      obtain ⟨h1, h2, h3, h4⟩ := ih e (slot + 1) low (by omega) (by omega)
        fun b hb => hne b (List.mem_cons_of_mem _ hb)
      refine ⟨by omega, ?_, ?_, fun i o hi => ?_⟩
      · rw [Image.bytes_sub h2 (le_refl _) (by omega), hslot (by omega), hsplice (by omega)]
      · rw [Image.bytes_sub h3 (by omega) (by omega), hslot (by omega), hsplice (by omega)]
      · rw [show pointer - (data.length + liveBytes rest) = low - liveBytes rest by omega]
        cases i with
        | zero =>
          cases Option.some.inj hi
          have ho : readSlotRecordOffset e slot = low :=
            slotOffset_writeSlot_same _ (by omega) (by omega)
          have hl : readSlotRecordLength e slot = data.length :=
            slotLength_writeSlot_same _ (by omega) (by omega)
          have hw : SlotHolds e low slot (some data) := by
            refine ⟨hdata, by omega, by omega, hl, ?_⟩
            rw [ho, hslot (by omega), Image.bytes_splice_same d (show _ ≤ 4096 by omega)]
          exact hw.congr (by omega) (Image.bytes_sub h2 (by omega) (by omega)) h3
        | succ i =>
          have := h4 i o hi
          rwa [Nat.add_assoc, Nat.add_comm 1 i] at this

/-- The image that `RewriteRecords` leaves. -/
def rewritten (d : PageData) (slots : List (Option Bytes)) : PageData :=
  let cleared := (d.clear 16 (pageSize - 16)).writeNat 4 2 slots.length
  (rewriteSlots cleared 0 pageSize slots).1.writeNat 6 2 (rewriteSlots cleared 0 pageSize slots).2

theorem rewriteRecords_eq {page : Page} (hfit : 16 + slots.length * 4 + liveBytes slots ≤ 4096) :
    rewriteRecords page slots =
      (.ok (), { page with data := rewritten page.data slots, isDirty := true }) := by
  unfold rewriteRecords
  rw [if_neg (by rw [pageSize_eq, directoryEnd]; omega)]
  rfl

/-- Rewriting keeps the page id, the link and the LSN. -/
theorem bytes_rewritten (hfit : 16 + slots.length * 4 + liveBytes slots ≤ 4096)
    (hne : ∀ b, some b ∈ slots → b ≠ []) {a n : Nat} (hn : a + n ≤ 16) (hd : a + n ≤ 4 ∨ 8 ≤ a) :
    (rewritten d slots).bytes a n = d.bytes a n := by
  unfold rewritten
  rw [Image.bytes_writeNat_of_disjoint _ (by decide) (by omega)]
  obtain ⟨-, h2, -, -⟩ := rewriteSlots_spec slots
    ((d.clear 16 (pageSize - 16)).writeNat 4 2 slots.length) 0 4096 (by omega) (le_refl _) hne
  refine (Image.bytes_sub h2 (Nat.zero_le a) (by omega)).trans ?_
  rw [Image.bytes_writeNat_of_disjoint _ (by decide) (by omega),
    Image.bytes_clear_of_disjoint _ (by decide) (.inl hn)]

theorem Stores.rewritten (h : Stores d pid next slots)
    (hfit : 16 + slots'.length * 4 + liveBytes slots' ≤ 4096)
    (hne : ∀ b, some b ∈ slots' → b ≠ []) : Stores (rewritten d slots') pid next slots' := by
  have hhead := fun {a n : Nat} => bytes_rewritten (d := d) hfit hne (a := a) (n := n)
  unfold SlottedPage.rewritten at hhead ⊢
  set cleared := (d.clear 16 (pageSize - 16)).writeNat 4 2 slots'.length with hc
  obtain ⟨h1, h2, -, h4⟩ := rewriteSlots_spec slots' cleared 0 4096 (by omega) (le_refl _) hne
  have hw : ∀ {a n : Nat}, a + n ≤ 6 ∨ 8 ≤ a →
      ((rewriteSlots cleared 0 pageSize slots').1.writeNat 6 2
        (rewriteSlots cleared 0 pageSize slots').2).bytes a n =
        (rewriteSlots cleared 0 4096 slots').1.bytes a n := fun hd =>
    Image.bytes_writeNat_of_disjoint _ (by decide) (by omega)
  refine ⟨?_, ?_, ?_, ?_, hfit, fun i o hi => ?_⟩
  · rw [← h.pageId]
    exact PageData.readPageId_congr (Image.readNat_congr (hhead (by omega) (by omega)))
  · have : cleared.readNat 4 2 = slots'.length := by
      rw [hc, Image.readNat_writeNat_same _ (by decide), Nat.mod_eq_of_lt (by omega)]
    rw [← this]
    apply Image.readNat_congr
    rw [hw (by omega), Image.bytes_sub h2 (by omega) (by omega)]
  · rw [Image.readNat_writeNat_same _ (by decide)]
    refine (Nat.mod_eq_of_lt ?_).trans h1
    rw [show (rewriteSlots cleared 0 pageSize slots').2 = 4096 - liveBytes slots' from h1]
    omega
  · rw [← h.next]
    exact PageData.readPageId_congr (Image.readNat_congr (hhead (by omega) (by omega)))
  · have := h4 i o hi
    rw [Nat.zero_add] at this
    exact this.congr (le_refl _) (hw (by omega)) (hw (by omega))

theorem rewriteRecords_fits (h : Stores page.data pid next slots)
    (hfit : 16 + slots'.length * 4 + liveBytes slots' ≤ 4096)
    (hne : ∀ b, some b ∈ slots' → b ≠ []) :
    ∃ d, rewriteRecords page slots' = (.ok (), { page with data := d, isDirty := true }) ∧
      Stores d pid next slots' :=
  ⟨_, rewriteRecords_eq hfit, h.rewritten hfit hne⟩

theorem rewriteRecords_full {page : Page} {slots' : List (Option Bytes)}
    (hfull : 4096 < 16 + slots'.length * 4 + liveBytes slots') :
    rewriteRecords page slots' = (.error (.outOfMemory "Not enough free space in page"), page) := by
  unfold rewriteRecords
  rw [if_pos (by rw [pageSize_eq, directoryEnd]; omega)]

end

/-! ## Records by slot -/

/-- The record in a slot; a slot past the end of the directory is free. -/
def recordAt (slots : List (Option Bytes)) (i : Nat) : Option Bytes := slots.getD i none

/-- The first free slot: of the directory, or the one after its end. -/
def freeSlot (slots : List (Option Bytes)) : Nat := slots.findIdx Option.isNone

/-- The directory with a record in its first free slot. -/
def putRecord (slots : List (Option Bytes)) (data : Bytes) : List (Option Bytes) :=
  if freeSlot slots < slots.length then slots.set (freeSlot slots) (some data)
  else slots ++ [some data]

/-- Whether a record of `n` bytes has room, with a new slot if none is free. -/
def HasRoom (slots : List (Option Bytes)) (n : Nat) : Prop :=
  16 + slots.length * 4 + liveBytes slots + n +
    (if freeSlot slots < slots.length then 0 else 4) ≤ 4096

instance (slots : List (Option Bytes)) (n : Nat) : Decidable (HasRoom slots n) :=
  inferInstanceAs (Decidable (_ ≤ _))

section

variable {d : PageData} {pid next : PageId} {slots slots' : List (Option Bytes)} {page : Page}
  {data : Bytes} {i j : Nat} {slot : SlotId}

theorem recordAt_eq_some : recordAt slots i = some data ↔ slots[i]? = some (some data) := by
  rw [recordAt, List.getD_eq_getElem?_getD]
  cases slots[i]? <;> simp

theorem lt_of_recordAt (h : recordAt slots i = some data) : i < slots.length :=
  (List.getElem?_eq_some_iff.mp (recordAt_eq_some.mp h)).1

theorem length_le_liveBytes (h : recordAt slots i = some data) : data.length ≤ liveBytes slots := by
  have hset := liveBytes_set (recordAt_eq_some.mp h) none
  rw [Option.getD_some, Option.getD_none, List.length_nil] at hset
  omega

theorem freeSlot_le (slots : List (Option Bytes)) : freeSlot slots ≤ slots.length :=
  List.findIdx_le_length

theorem recordAt_freeSlot (slots : List (Option Bytes)) :
    recordAt slots (freeSlot slots) = none := by
  by_cases h : freeSlot slots < slots.length
  · have hnone : (slots[freeSlot slots]).isNone = true := List.findIdx_getElem
    rw [recordAt, List.getD_eq_getElem?_getD, List.getElem?_eq_getElem h]
    exact Option.isNone_iff_eq_none.mp hnone
  · rw [recordAt, List.getD_eq_getElem?_getD, List.getElem?_eq_none (by omega)]
    rfl

/-- Every slot before the first free one is live. -/
theorem recordAt_of_lt_freeSlot (h : i < freeSlot slots) :
    ∃ data, recordAt slots i = some data := by
  have hsome := List.not_of_lt_findIdx h
  have hlt : i < slots.length := by
    have := freeSlot_le slots
    omega
  obtain ⟨data, hdata⟩ := Option.isSome_iff_exists.mp (by simpa using hsome)
  exact ⟨data, by rw [recordAt_eq_some, List.getElem?_eq_getElem hlt, hdata]⟩

theorem recordAt_set (hi : i < slots.length) (o : Option Bytes) :
    recordAt (slots.set i o) j = if j = i then o else recordAt slots j := by
  simp only [recordAt, List.getD_eq_getElem?_getD, List.getElem?_set]
  by_cases hj : j = i
  · subst hj
    simp [hi]
  · simp [hj, Ne.symm hj]

theorem recordAt_putRecord :
    recordAt (putRecord slots data) j = if j = freeSlot slots then some data else
    recordAt slots j := by
  unfold putRecord
  by_cases h : freeSlot slots < slots.length
  · rw [if_pos h, recordAt_set h]
  · have hlen : freeSlot slots = slots.length := by
      have := freeSlot_le slots
      omega
    rw [if_neg h, hlen]
    simp only [recordAt, List.getD_eq_getElem?_getD, List.getElem?_append]
    by_cases hj : j < slots.length
    · rw [if_pos hj, if_neg (by omega)]
    · rw [if_neg hj]
      by_cases he : j = slots.length
      · simp [he]
      · rw [if_neg he, List.getElem?_eq_none (by simp; omega), List.getElem?_eq_none (by omega)]

/-- Dropping the free slots at the end changes no record. -/
theorem recordAt_rdropWhile (slots : List (Option Bytes)) (j : Nat) :
    recordAt (slots.rdropWhile Option.isNone) j = recordAt slots j := by
  induction slots using List.reverseRecOn with
  | nil => rfl
  | append_singleton l o ih =>
    rw [List.rdropWhile_concat]
    split
    · rename_i ho
      rw [ih, Option.isNone_iff_eq_none.mp ho]
      simp only [recordAt, List.getD_eq_getElem?_getD, List.getElem?_append]
      split
      · rfl
      · rename_i hj
        rw [List.getElem?_eq_none (by omega)]
        cases j - l.length <;> simp
    · rfl

theorem liveBytes_rdropWhile (slots : List (Option Bytes)) :
    liveBytes (slots.rdropWhile Option.isNone) = liveBytes slots := by
  induction slots using List.reverseRecOn with
  | nil => rfl
  | append_singleton l o ih =>
    rw [List.rdropWhile_concat]
    split
    · rename_i ho
      rw [ih, Option.isNone_iff_eq_none.mp ho]
      simp
    · rfl

theorem length_rdropWhile_le (slots : List (Option Bytes)) :
    (slots.rdropWhile Option.isNone).length ≤ slots.length :=
  (List.rdropWhile_prefix Option.isNone slots).length_le

theorem Stores.ne_nil (h : Stores d pid next slots) {b : Bytes} (hb : some b ∈ slots) : b ≠ [] := by
  obtain ⟨i, hi, hget⟩ := List.getElem_of_mem hb
  have := h.slots i (some b) (by rw [List.getElem?_eq_getElem hi, hget])
  exact this.1

theorem Stores.length_lt (h : Stores d pid next slots) : slots.length < 1021 := by
  have := h.fits
  omega

/-! ## Insertion -/

theorem Stores.findFreeSlot (h : Stores d pid next slots) :
    findFreeSlot d slots.length =
      if freeSlot slots < slots.length then some (freeSlot slots) else none := by
  have hfree : ∀ i, i < slots.length →
      ((readSlotRecordOffset d i = 0 ∧ readSlotRecordLength d i = 0) ↔
        recordAt slots i = none) := by
    intro i hi
    have hh := h.slots i (recordAt slots i) (by
      rw [recordAt, List.getD_eq_getElem?_getD, List.getElem?_eq_getElem hi]
      rfl)
    cases ho : recordAt slots i with
    | none =>
      rw [ho] at hh
      exact ⟨fun _ => rfl, fun _ => hh⟩
    | some b =>
      rw [ho] at hh
      have hpos := List.length_pos_iff.mpr hh.1
      have hlen := hh.2.2.2.1
      exact ⟨fun hz => by omega, nofun⟩
  unfold SlottedPage.findFreeSlot
  split
  · rename_i hlt
    rw [List.find?_range_eq_some]
    refine ⟨decide_eq_true ((hfree _ hlt).mpr (recordAt_freeSlot slots)), List.mem_range.mpr hlt,
      fun j hj => ?_⟩
    obtain ⟨b, hb⟩ := recordAt_of_lt_freeSlot hj
    have hnot : ¬ (readSlotRecordOffset d j = 0 ∧ readSlotRecordLength d j = 0) := fun hz => by
      rw [(hfree j (by omega)).mp hz] at hb
      cases hb
    rw [Bool.not_eq_true', decide_eq_false_iff_not]
    exact hnot
  · rename_i hge
    rw [List.find?_range_eq_none]
    intro j hj
    obtain ⟨b, hb⟩ := recordAt_of_lt_freeSlot (show j < freeSlot slots by omega)
    have hnot : ¬ (readSlotRecordOffset d j = 0 ∧ readSlotRecordLength d j = 0) := fun hz => by
      rw [(hfree j hj).mp hz] at hb
      cases hb
    rw [Bool.not_eq_true', decide_eq_false_iff_not]
    exact hnot

theorem length_putRecord :
    (putRecord slots data).length = slots.length + if freeSlot slots < slots.length then
    0 else 1 := by
  unfold putRecord
  split <;> simp

theorem liveBytes_putRecord : liveBytes (putRecord slots data) = liveBytes slots + data.length := by
  unfold putRecord
  split
  · rename_i hlt
    have hnone : slots[freeSlot slots]? = some none := by
      have hfree := recordAt_freeSlot slots
      rw [recordAt, List.getD_eq_getElem?_getD, List.getElem?_eq_getElem hlt] at hfree
      rw [List.getElem?_eq_getElem hlt]
      simpa using hfree
    have := liveBytes_set hnone (some data)
    simpa using this
  · simp

theorem insertRecord_full (page : Page) (h : Stores page.data page.pageId next slots)
    (hid : page.pageId ≠ invalidPageId) (hne : data ≠ []) (hle : data.length ≤ 4096)
    (hfull : ¬ HasRoom slots data.length) :
    insertRecord page data = (.error (.outOfMemory "Not enough free space in page"), page) := by
  have hpos := List.length_pos_iff.mpr hne
  have hfit := h.fits
  unfold HasRoom at hfull
  unfold insertRecord
  rw [h.isInitialized hid, if_neg (by decide), if_neg (by rw [pageSize_eq]; omega),
    if_neg (by omega)]
  simp only [h.getSlotCount, h.findFreeSlot, h.getFreeSpace hid]
  rw [if_pos]
  by_cases hlt : freeSlot slots < slots.length
  · rw [if_pos hlt] at hfull ⊢
    show _ < data.length + 0
    omega
  · rw [if_neg hlt] at hfull ⊢
    show _ < data.length + 4
    omega

/-- The image that `InsertRecord` leaves: the record below the others, in the first free slot. -/
def inserted (d : PageData) (slots : List (Option Bytes)) (data : Bytes) : PageData :=
  let low := 4096 - liveBytes slots - data.length
  let e := writeSlot (d.splice low data) (freeSlot slots) low data.length
  (if freeSlot slots < slots.length then e else e.writeNat 4 2 (slots.length + 1)).writeNat 6 2 low

theorem insertRecord_eq (page : Page) (h : Stores page.data page.pageId next slots)
    (hid : page.pageId ≠ invalidPageId) (hne : data ≠ []) (hroom : HasRoom slots data.length) :
    insertRecord page data = (.ok (UInt16.ofNat (freeSlot slots)),
      { page with data := inserted page.data slots data, isDirty := true }) := by
  have hpos := List.length_pos_iff.mpr hne
  have hfit := h.fits
  have hle := freeSlot_le slots
  unfold HasRoom at hroom
  have hsel : (if freeSlot slots < slots.length then some (freeSlot slots) else none).getD
      slots.length = freeSlot slots := by
    split
    · rfl
    · rw [Option.getD_none]
      omega
  have hsome : (if freeSlot slots < slots.length then some (freeSlot slots) else none).isSome =
      decide (freeSlot slots < slots.length) := by
    split <;> simp [*]
  have hfsp : freeSpacePointer page = 4096 - liveBytes slots := h.free
  have hoff : toU16 ((freeSpacePointer page : Int) - data.length) =
      4096 - liveBytes slots - data.length := by
    rw [hfsp, toU16_sub (by omega) (by omega)]
  unfold insertRecord
  rw [h.isInitialized hid, if_neg (by decide), if_neg (by rw [pageSize_eq]; omega),
    if_neg (by omega)]
  simp only [h.getSlotCount, h.findFreeSlot, h.getFreeSpace hid, hsel, hsome, hoff,
    decide_eq_true_eq]
  rw [if_neg (by split at hroom <;> rename_i hc <;> simp only [hc, if_true, if_false] <;> omega)]
  rfl

/-- What an insertion leaves as it was: all but the slot, the record, the slot count and the
free space pointer. -/
theorem bytes_inserted (hfit : 16 + slots.length * 4 + liveBytes slots ≤ 4096)
    (hroom : HasRoom slots data.length) {a n : Nat}
    (hd : a + n ≤ 4 ∨ 8 ≤ a)
    (hslot : a + n ≤ 16 + freeSlot slots * 4 ∨ 20 + freeSlot slots * 4 ≤ a)
    (hrec : a + n ≤ 4096 - liveBytes slots - data.length ∨ 4096 - liveBytes slots ≤ a) :
    (inserted d slots data).bytes a n = d.bytes a n := by
  have hle := freeSlot_le slots
  unfold HasRoom at hroom
  have hsel : 16 + (freeSlot slots + 1) * 4 ≤ 4096 := by split at hroom <;> omega
  have hlen : data.length + liveBytes slots ≤ 4096 := by omega
  unfold inserted
  rw [Image.bytes_writeNat_of_disjoint _ (by decide) (by omega)]
  have hcount : ∀ e : PageData, (if freeSlot slots < slots.length then e
      else e.writeNat 4 2 (slots.length + 1)).bytes a n = e.bytes a n := by
    intro e
    split
    · rfl
    · exact Image.bytes_writeNat_of_disjoint _ (by decide) (by omega)
  rw [hcount, bytes_writeSlot _ (by omega) hslot]
  exact Image.bytes_splice_of_disjoint _ (show _ ≤ 4096 by omega) (by omega)

/-- The slot that an insertion fills. -/
theorem slotHolds_inserted (hfit : 16 + slots.length * 4 + liveBytes slots ≤ 4096)
    (hroom : HasRoom slots data.length) (hne : data ≠ []) :
    readSlotRecordOffset (inserted d slots data) (freeSlot slots) =
        4096 - liveBytes slots - data.length ∧
      SlotHolds (inserted d slots data) (4096 - liveBytes slots - data.length) (freeSlot slots)
        (some data) := by
  have hle := freeSlot_le slots
  have hpos := List.length_pos_iff.mpr hne
  unfold HasRoom at hroom
  have hsel : freeSlot slots < 1020 ∧
      20 + freeSlot slots * 4 ≤ 4096 - liveBytes slots - data.length := by
    split at hroom <;> omega
  have hlen : data.length + liveBytes slots ≤ 4096 := by omega
  unfold inserted
  set sel := freeSlot slots with hs
  set low := 4096 - liveBytes slots - data.length with hlow
  set e := writeSlot (d.splice low data) sel low data.length with he
  have hw : ∀ {a n : Nat}, 8 ≤ a →
      ((if sel < slots.length then e else e.writeNat 4 2 (slots.length + 1)).writeNat 6 2 low).bytes
        a n = e.bytes a n := by
    intro a n hd
    rw [Image.bytes_writeNat_of_disjoint _ (by decide) (by omega)]
    split
    · rfl
    · exact Image.bytes_writeNat_of_disjoint _ (by decide) (by omega)
  have ho : readSlotRecordOffset e sel = low :=
    slotOffset_writeSlot_same _ (by omega) (by omega)
  have hl : readSlotRecordLength e sel = data.length :=
    slotLength_writeSlot_same _ (by omega) (by omega)
  have hheld : SlotHolds e low sel (some data) := by
    refine ⟨hne, by omega, by omega, hl, ?_⟩
    rw [ho, bytes_writeSlot _ (by omega) (by omega)]
    exact Image.bytes_splice_same _ (show _ ≤ 4096 by omega)
  have hoff := Image.readNat_congr (hw (a := slotOffset sel) (n := 2) (by unfold slotOffset; omega))
  exact ⟨hoff.trans ho, hheld.congr (le_refl _) (hw (by omega)) (hw (by omega))⟩

theorem Stores.inserted (h : Stores d pid next slots) (hne : data ≠ [])
    (hroom : HasRoom slots data.length) :
    Stores (inserted d slots data) pid next (putRecord slots data) := by
  have hpos := List.length_pos_iff.mpr hne
  have hfit := h.fits
  have hle := freeSlot_le slots
  obtain ⟨-, hsel⟩ := slotHolds_inserted (d := d) hfit hroom hne
  have hkeep := fun {a n : Nat} => bytes_inserted (d := d) hfit hroom (a := a) (n := n)
  have hroom' := hroom
  unfold HasRoom at hroom'
  refine ⟨?_, ?_, ?_, ?_, ?_, fun i o hi => ?_⟩
  · refine (PageData.readPageId_congr (Image.readNat_congr ?_)).trans h.pageId
    exact hkeep (by omega) (by omega) (by omega)
  · unfold SlottedPage.inserted
    rw [Image.readNat_congr (Image.bytes_writeNat_of_disjoint _ (by decide) (by decide)),
      length_putRecord]
    by_cases hlt : freeSlot slots < slots.length
    · rw [if_pos hlt, if_pos hlt, Nat.add_zero, ← h.count]
      apply Image.readNat_congr
      rw [bytes_writeSlot _ (by omega) (by omega)]
      exact Image.bytes_splice_of_disjoint _ (show _ ≤ 4096 by omega) (by omega)
    · rw [if_neg hlt, if_neg hlt, Image.readNat_writeNat_same _ (by decide),
        Nat.mod_eq_of_lt (by omega)]
  · unfold SlottedPage.inserted
    rw [Image.readNat_writeNat_same _ (by decide), liveBytes_putRecord, Nat.mod_eq_of_lt (by omega)]
    omega
  · refine (PageData.readPageId_congr (Image.readNat_congr ?_)).trans h.next
    exact hkeep (by omega) (by omega) (by split at hroom' <;> omega)
  · rw [length_putRecord, liveBytes_putRecord]
    split at hroom' <;> rename_i hc <;> simp only [hc, if_true, if_false] <;> omega
  · rw [liveBytes_putRecord, Nat.sub_add_eq]
    have hio : recordAt (putRecord slots data) i = o := by
      rw [recordAt, List.getD_eq_getElem?_getD, hi]
      rfl
    rw [recordAt_putRecord] at hio
    by_cases hisel : i = freeSlot slots
    · rw [if_pos hisel] at hio
      subst hio
      rw [hisel]
      exact hsel
    · rw [if_neg hisel] at hio
      have hlen : i < (putRecord slots data).length := (List.getElem?_eq_some_iff.mp hi).1
      rw [length_putRecord] at hlen
      have hilt : i < slots.length := by
        split at hlen <;> omega
      have hold : slots[i]? = some o := by
        rw [recordAt, List.getD_eq_getElem?_getD, List.getElem?_eq_getElem hilt] at hio
        rw [List.getElem?_eq_getElem hilt]
        exact congrArg some hio
      refine (h.slots i o hold).congr (by omega) ?_ ?_
      · exact hkeep (by omega) (by omega) (by split at hroom' <;> omega)
      · exact hkeep (by omega) (by split at hroom' <;> omega) (by omega)

/-- A record that has room goes into the first free slot. -/
theorem insertRecord_room (page : Page) (h : Stores page.data page.pageId next slots)
    (hid : page.pageId ≠ invalidPageId) (hne : data ≠ []) (hroom : HasRoom slots data.length) :
    ∃ d, insertRecord page data =
        (.ok (UInt16.ofNat (freeSlot slots)), { page with data := d, isDirty := true }) ∧
      Stores d page.pageId next (putRecord slots data) :=
  ⟨_, insertRecord_eq page h hid hne hroom, h.inserted hne hroom⟩

/-! ## Reading, updating and deleting -/

theorem loadedSlot (h : recordAt slots i = some data) : slots.getD i none = some data := h

theorem readRecord_stores (h : Stores page.data page.pageId next slots)
    (hid : page.pageId ≠ invalidPageId) (hrec : recordAt slots slot.toNat = some data) :
    readRecord page slot = .ok { rid := ⟨page.pageId, slot⟩, data := data } := by
  have hlt := lt_of_recordAt hrec
  obtain ⟨hne, h1, h2, h3, h4⟩ := h.slots _ _ (recordAt_eq_some.mp hrec)
  have hpos := List.length_pos_iff.mpr hne
  have hfit := h.fits
  unfold readRecord
  rw [h.isInitialized hid, if_neg (by decide), h.getSlotCount, if_neg (by omega)]
  simp only [h3]
  rw [if_neg (by omega), if_neg (by rw [pageSize_eq, directoryEnd]; omega), h4]

theorem readRecord_free (h : Stores page.data page.pageId next slots)
    (hid : page.pageId ≠ invalidPageId) (hrec : recordAt slots slot.toNat = none) :
    ∃ e, readRecord page slot = .error e ∧ e.code = .notFound := by
  unfold readRecord
  rw [h.isInitialized hid, if_neg (by decide), h.getSlotCount]
  split
  · exact ⟨_, rfl, rfl⟩
  · rename_i hge
    have hget : slots[slot.toNat]? = some none := by
      rw [recordAt, List.getD_eq_getElem?_getD, List.getElem?_eq_getElem (by omega)] at hrec
      rw [List.getElem?_eq_getElem (by omega)]
      exact congrArg some hrec
    obtain ⟨hoff, hlen⟩ := h.slots _ _ hget
    simp only
    rw [if_pos ⟨hoff, hlen⟩]
    exact ⟨_, rfl, rfl⟩

theorem updateRecord_eq (h : Stores page.data page.pageId next slots)
    (hid : page.pageId ≠ invalidPageId) (hne : data ≠ []) (hle : data.length ≤ 4096) {old : Bytes}
    (hrec : recordAt slots slot.toNat = some old) :
    updateRecord page slot data = rewriteRecords page (slots.set slot.toNat (some data)) := by
  have hlt := lt_of_recordAt hrec
  have hpos := List.length_pos_iff.mpr hne
  unfold updateRecord
  rw [h.isInitialized hid, if_neg (by decide), if_neg (by rw [pageSize_eq]; omega),
    if_neg (by omega), h.getSlotCount, if_neg (by omega), h.loadRecords]
  dsimp only
  rw [loadedSlot hrec]

/-- An updated record that has room replaces the old one in its slot. -/
theorem updateRecord_fits (h : Stores page.data page.pageId next slots)
    (hid : page.pageId ≠ invalidPageId) (hne : data ≠ []) {old : Bytes}
    (hrec : recordAt slots slot.toNat = some old)
    (hroom : 16 + slots.length * 4 + liveBytes slots - old.length + data.length ≤ 4096) :
    ∃ d, updateRecord page slot data = (.ok (), { page with data := d, isDirty := true }) ∧
      Stores d page.pageId next (slots.set slot.toNat (some data)) := by
  have hlive := liveBytes_set (recordAt_eq_some.mp hrec) (some data)
  simp only [Option.getD_some] at hlive
  rw [updateRecord_eq h hid hne (by omega) hrec]
  refine rewriteRecords_fits h ?_ fun b hb => ?_
  · rw [List.length_set]
    omega
  · rcases List.mem_or_eq_of_mem_set hb with hb | hb
    · exact h.ne_nil hb
    · cases hb
      exact hne

theorem updateRecord_full (h : Stores page.data page.pageId next slots)
    (hid : page.pageId ≠ invalidPageId) (hne : data ≠ []) (hle : data.length ≤ 4096) {old : Bytes}
    (hrec : recordAt slots slot.toNat = some old)
    (hfull : 4096 < 16 + slots.length * 4 + liveBytes slots - old.length + data.length) :
    updateRecord page slot data =
      (.error (.outOfMemory "Not enough free space in page"), page) := by
  have hlive := liveBytes_set (recordAt_eq_some.mp hrec) (some data)
  simp only [Option.getD_some] at hlive
  rw [updateRecord_eq h hid hne hle hrec]
  apply rewriteRecords_full
  rw [List.length_set]
  omega

theorem updateRecord_free (h : Stores page.data page.pageId next slots)
    (hid : page.pageId ≠ invalidPageId) (hne : data ≠ []) (hle : data.length ≤ 4096)
    (hrec : recordAt slots slot.toNat = none) :
    ∃ e, updateRecord page slot data = (.error e, page) ∧ e.code = .notFound := by
  have hpos := List.length_pos_iff.mpr hne
  unfold updateRecord
  rw [h.isInitialized hid, if_neg (by decide), if_neg (by rw [pageSize_eq]; omega),
    if_neg (by omega), h.getSlotCount]
  split
  · exact ⟨_, rfl, rfl⟩
  · rw [h.loadRecords]
    dsimp only
    rw [show slots.getD slot.toNat none = none from hrec]
    exact ⟨_, rfl, rfl⟩

theorem deleteRecord_eq (h : Stores page.data page.pageId next slots)
    (hid : page.pageId ≠ invalidPageId) (hrec : recordAt slots slot.toNat = some data) :
    deleteRecord page slot =
      rewriteRecords page ((slots.set slot.toNat none).rdropWhile Option.isNone) := by
  have hlt := lt_of_recordAt hrec
  unfold deleteRecord
  rw [h.isInitialized hid, if_neg (by decide), h.getSlotCount, if_neg (by omega), h.loadRecords]
  dsimp only
  rw [loadedSlot hrec]

/-- Deleting a record frees its slot, and drops free slots at the end of the directory. -/
theorem deleteRecord_live (h : Stores page.data page.pageId next slots)
    (hid : page.pageId ≠ invalidPageId) (hrec : recordAt slots slot.toNat = some data) :
    ∃ d, deleteRecord page slot = (.ok (), { page with data := d, isDirty := true }) ∧
      Stores d page.pageId next ((slots.set slot.toNat none).rdropWhile Option.isNone) := by
  have hfit := h.fits
  have hlive := liveBytes_set (recordAt_eq_some.mp hrec) none
  have hlen := length_rdropWhile_le (slots.set slot.toNat none)
  rw [List.length_set] at hlen
  simp only [Option.getD_some, Option.getD_none, List.length_nil] at hlive
  rw [deleteRecord_eq h hid hrec]
  refine rewriteRecords_fits h ?_ fun b hb => ?_
  · rw [liveBytes_rdropWhile]
    omega
  · rcases List.mem_or_eq_of_mem_set ((List.rdropWhile_prefix Option.isNone _).subset hb) with
      hb | hb
    · exact h.ne_nil hb
    · cases hb

theorem deleteRecord_free (h : Stores page.data page.pageId next slots)
    (hid : page.pageId ≠ invalidPageId) (hrec : recordAt slots slot.toNat = none) :
    ∃ e, deleteRecord page slot = (.error e, page) ∧ e.code = .notFound := by
  unfold deleteRecord
  rw [h.isInitialized hid, if_neg (by decide), h.getSlotCount]
  split
  · exact ⟨_, rfl, rfl⟩
  · rw [h.loadRecords]
    dsimp only
    rw [show slots.getD slot.toNat none = none from hrec]
    exact ⟨_, rfl, rfl⟩

end

end SlottedPage

end MiniDbms
