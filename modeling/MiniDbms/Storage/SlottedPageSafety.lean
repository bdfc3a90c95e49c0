import MiniDbms.Lib.CheckedMemory
import MiniDbms.Storage.SlottedPageContents

/-!
# Slotted pages with arbitrary bytes

The four operations of a slotted page once more, as checked computations on the image of the page:
each access to the page is made as the source makes it, and fails if it leaves the image; each
16-bit difference fails if it wraps. On every image they give what the operations of
`SlottedPage` give.
-/

namespace MiniDbms

open Lib Checked

namespace SlottedPage

/-! ## The accesses -/

/-- `ReadSlotRecordOffset` and `ReadSlotRecordLength`. -/
def readSlotChecked (slot : Nat) : Checked pageSize (Nat × Nat) := do
  let recordOffset ← loadNat (slotOffset slot) 2
  let recordLength ← loadNat (slotOffset slot + 2) 2
  return (recordOffset, recordLength)

/-- `WriteSlot`. -/
def writeSlotChecked (slot recordOffset recordLength : Nat) : Checked pageSize Unit := do
  storeNat (slotOffset slot) 2 recordOffset
  storeNat (slotOffset slot + 2) 2 recordLength

/-- `IsInitialized`. -/
def isInitializedChecked (pageId : PageId) : Checked pageSize Bool :=
  if pageId = invalidPageId then return false
  else do
    let storedPageId ← loadNat 0 4
    let slotCount ← loadNat 4 2
    let freeSpacePointer ← loadNat 6 2
    return (UInt32.ofNat storedPageId).toInt32 = pageId ∧ directoryEnd slotCount ≤ pageSize ∧
      directoryEnd slotCount ≤ freeSpacePointer ∧ freeSpacePointer ≤ pageSize

/-- `GetFreeSpace`. -/
def getFreeSpaceChecked (pageId : PageId) : Checked pageSize Nat := do
  if ← isInitializedChecked pageId then
    let slotCount ← loadNat 4 2
    let freeSpacePointer ← loadNat 6 2
    sub16 freeSpacePointer (directoryEnd slotCount)
  else return 0

/-- The loop of `InsertRecord`. -/
def findFreeSlotChecked : List Nat → Checked pageSize (Option Nat)
  | [] => return none
  | slot :: slots => do
    let (recordOffset, recordLength) ← readSlotChecked slot
    if recordOffset = 0 ∧ recordLength = 0 then return some slot
    else findFreeSlotChecked slots

/-- A slot that was not there before is counted. -/
def countSlotChecked (reused : Option Nat) (slotCount : Nat) : Checked pageSize Unit :=
  if reused.isSome then return () else storeNat 4 2 (slotCount + 1)

/-- `InsertRecord`. -/
def insertRecordChecked (pageId : PageId) (data : Bytes) :
    Checked pageSize (Except Status SlotId) := do
  if !(← isInitializedChecked pageId) then
    return .error (.invalidArgument "Slotted page is not initialized")
  else if data.length = 0 ∨ pageSize < data.length then
    return .error (.invalidArgument "Invalid record size")
  else if 65535 < data.length then return .error (.invalidArgument "Record is too large")
  else
    let slotCount ← loadNat 4 2
    let freeSpacePointer ← loadNat 6 2
    let reused ← findFreeSlotChecked (List.range slotCount)
    let selectedSlot := reused.getD slotCount
    let requiredSpace := data.length + if reused.isSome then 0 else 4
    let freeSpace ← getFreeSpaceChecked pageId
    if freeSpace < requiredSpace then
      return .error (.outOfMemory "Not enough free space in page")
    else
      let recordOffset ← sub16 freeSpacePointer data.length
      store recordOffset data
      writeSlotChecked selectedSlot recordOffset data.length
      countSlotChecked reused slotCount
      storeNat 6 2 recordOffset
      return .ok (UInt16.ofNat selectedSlot)

/-- `ReadRecord`. -/
def readRecordChecked (pageId : PageId) (slot : SlotId) :
    Checked pageSize (Except Status Record) := do
  if !(← isInitializedChecked pageId) then
    return .error (.invalidArgument "Slotted page is not initialized")
  else
    let slotCount ← loadNat 4 2
    if slotCount ≤ slot.toNat then return .error (.notFound "Slot does not exist")
    else
      let (recordOffset, recordLength) ← readSlotChecked slot.toNat
      if recordOffset = 0 ∧ recordLength = 0 then
        return .error (.notFound "Record was deleted or slot is empty")
      else if recordOffset < directoryEnd slotCount ∨ pageSize < recordOffset + recordLength then
        return .error (.ioError "Corrupted slot entry")
      else
        let data ← load recordOffset recordLength
        return .ok { rid := ⟨pageId, slot⟩, data }

/-- The body of the loop of `LoadRecords`. -/
def loadSlotChecked (slotCount slot : Nat) : Checked pageSize (Except Status (Option Bytes)) := do
  let (recordOffset, recordLength) ← readSlotChecked slot
  if recordOffset = 0 ∧ recordLength = 0 then return .ok none
  else if recordOffset = 0 ∨ recordLength = 0 then return .error (.ioError "Corrupted slot entry")
  else if recordOffset < directoryEnd slotCount ∨ pageSize < recordOffset + recordLength then
    return .error (.ioError "Corrupted record bounds")
  else
    let data ← load recordOffset recordLength
    return .ok (some data)

/-- The loop of `LoadRecords`. -/
def loadSlotsChecked (slotCount : Nat) :
    List Nat → Checked pageSize (Except Status (List (Option Bytes)))
  | [] => return .ok []
  | slot :: slots => do
    match ← loadSlotChecked slotCount slot with
    | .error e => return .error e
    | .ok record =>
      match ← loadSlotsChecked slotCount slots with
      | .error e => return .error e
      | .ok records => return .ok (record :: records)

/-- `LoadRecords`. -/
def loadRecordsChecked (slotCount : Nat) : Checked pageSize (Except Status (List (Option Bytes))) :=
  if pageSize < directoryEnd slotCount then return .error (.ioError "Corrupted slot directory")
  else loadSlotsChecked slotCount (List.range slotCount)

/-- The loop of `RewriteRecords`. -/
def rewriteSlotsChecked (slot freeSpacePointer : Nat) : List (Option Bytes) → Checked pageSize Nat
  | [] => return freeSpacePointer
  | none :: rest => do
    writeSlotChecked slot 0 0
    rewriteSlotsChecked (slot + 1) freeSpacePointer rest
  | some data :: rest => do
    let pointer ← sub16 freeSpacePointer data.length
    store pointer data
    writeSlotChecked slot pointer data.length
    rewriteSlotsChecked (slot + 1) pointer rest

/-- `RewriteRecords`. -/
def rewriteRecordsChecked (slots : List (Option Bytes)) : Checked pageSize (Except Status Unit) :=
  if pageSize < directoryEnd slots.length + liveBytes slots then
    return .error (.outOfMemory "Not enough free space in page")
  else do
    fillZero 16 (pageSize - 16)
    storeNat 4 2 slots.length
    let freeSpacePointer ← rewriteSlotsChecked 0 pageSize slots
    storeNat 6 2 freeSpacePointer
    return .ok ()

/-- `UpdateRecord`. -/
def updateRecordChecked (pageId : PageId) (slot : SlotId) (data : Bytes) :
    Checked pageSize (Except Status Unit) := do
  if !(← isInitializedChecked pageId) then
    return .error (.invalidArgument "Slotted page is not initialized")
  else if data.length = 0 ∨ pageSize < data.length then
    return .error (.invalidArgument "Invalid updated record")
  else if 65535 < data.length then return .error (.invalidArgument "Updated record is too large")
  else
    let slotCount ← loadNat 4 2
    if slotCount ≤ slot.toNat then return .error (.notFound "Slot does not exist")
    else
      match ← loadRecordsChecked slotCount with
      | .error e => return .error e
      | .ok slots =>
        match slots.getD slot.toNat none with
        | none => return .error (.notFound "Record was deleted or slot is empty")
        | some _ => rewriteRecordsChecked (slots.set slot.toNat (some data))

/-- `DeleteRecord`. -/
def deleteRecordChecked (pageId : PageId) (slot : SlotId) :
    Checked pageSize (Except Status Unit) := do
  if !(← isInitializedChecked pageId) then
    return .error (.invalidArgument "Slotted page is not initialized")
  else
    let slotCount ← loadNat 4 2
    if slotCount ≤ slot.toNat then return .error (.notFound "Slot does not exist")
    else
      match ← loadRecordsChecked slotCount with
      | .error e => return .error e
      | .ok slots =>
        match slots.getD slot.toNat none with
        | none => return .error (.notFound "Record was already deleted")
        | some _ => rewriteRecordsChecked ((slots.set slot.toNat none).rdropWhile Option.isNone)

/-! ## No access leaves the page -/

variable {d : PageData} {page : Page} {slot slotCount : Nat}

theorem gives_readSlot (h : directoryEnd (slot + 1) ≤ pageSize) :
    Gives (readSlotChecked slot) d
    (readSlotRecordOffset d slot, readSlotRecordLength d slot) d := by
  have hfit : 16 + (slot + 1) * 4 ≤ 4096 := h
  apply (gives_loadNat (show slotOffset slot + 2 ≤ 4096 by unfold slotOffset; omega)).bind
  exact (gives_loadNat (show slotOffset slot + 2 + 2 ≤ 4096 by unfold slotOffset; omega)).bind
    (.pure _ _)

theorem gives_writeSlot {recordOffset recordLength : Nat} (h : directoryEnd (slot + 1) ≤ pageSize)
    (ho : recordOffset < 65536) (hl : recordLength < 65536) :
    Gives (writeSlotChecked slot recordOffset recordLength) d ()
      (writeSlot d slot recordOffset recordLength) := by
  have hfit : 16 + (slot + 1) * 4 ≤ 4096 := h
  apply (gives_storeNat (show slotOffset slot + 2 ≤ 4096 by unfold slotOffset; omega) ho).bind
  exact gives_storeNat (show slotOffset slot + 2 + 2 ≤ 4096 by unfold slotOffset; omega) hl

theorem gives_isInitialized (page : Page) :
    Gives (isInitializedChecked page.pageId) page.data (isInitialized page) page.data := by
  unfold isInitializedChecked isInitialized
  split
  · rename_i hid
    rw [decide_eq_false fun h => h.1 hid]
    exact .pure _ _
  · rename_i hid
    apply (gives_loadNat (by decide)).bind
    apply (gives_loadNat (by decide)).bind
    apply (gives_loadNat (by decide)).bind
    have hiff : isInitialized page = decide (PageData.readPageId page.data 0 = page.pageId ∧
        directoryEnd (getSlotCount page) ≤ pageSize ∧
        directoryEnd (getSlotCount page) ≤ freeSpacePointer page ∧
        freeSpacePointer page ≤ pageSize) := by
      unfold isInitialized
      rw [decide_eq_decide]
      exact ⟨fun h => h.2, fun h => ⟨hid, h⟩⟩
    unfold isInitialized at hiff
    rw [hiff]
    exact .pure _ _

theorem gives_slotCount (page : Page) :
    Gives (loadNat 4 2) page.data (getSlotCount page) page.data := gives_loadNat (by decide)

theorem gives_freeSpacePointer (page : Page) :
    Gives (loadNat 6 2) page.data (freeSpacePointer page) page.data := gives_loadNat (by decide)

/-- What `IsInitialized` has checked. -/
theorem bounds_of_isInitialized (h : isInitialized page = true) :
    16 + getSlotCount page * 4 ≤ freeSpacePointer page ∧ freeSpacePointer page ≤ 4096 := by
  simp only [isInitialized, decide_eq_true_eq] at h
  exact ⟨h.2.2.2.1, h.2.2.2.2⟩

theorem getFreeSpace_eq (h : isInitialized page = true) :
    getFreeSpace page = freeSpacePointer page - directoryEnd (getSlotCount page) := by
  obtain ⟨hlo, hup⟩ := bounds_of_isInitialized h
  rw [getFreeSpace, if_pos h]
  apply toU16_sub hlo
  omega

theorem gives_getFreeSpace (page : Page) :
    Gives (getFreeSpaceChecked page.pageId) page.data (getFreeSpace page) page.data := by
  apply (gives_isInitialized page).bind
  cases h : isInitialized page with
  | false =>
    rw [getFreeSpace, h]
    exact .pure _ _
  | true =>
    obtain ⟨hlo, hup⟩ := bounds_of_isInitialized h
    rw [getFreeSpace_eq h]
    apply (gives_slotCount page).bind
    apply (gives_freeSpacePointer page).bind
    exact gives_sub16 hlo (by omega)

theorem gives_findFreeSlot (slots : List Nat)
    (h : ∀ slot ∈ slots, directoryEnd (slot + 1) ≤ pageSize) :
    Gives (findFreeSlotChecked slots) d (slots.find? fun slot =>
      readSlotRecordOffset d slot = 0 ∧ readSlotRecordLength d slot = 0) d := by
  induction slots with
  | nil => exact .pure _ _
  | cons slot slots ih =>
    apply (gives_readSlot (h slot List.mem_cons_self)).bind
    rw [List.find?_cons]
    dsimp only
    by_cases hfree : readSlotRecordOffset d slot = 0 ∧ readSlotRecordLength d slot = 0
    · rw [if_pos hfree, decide_eq_true hfree]
      exact .pure _ _
    · rw [if_neg hfree, decide_eq_false hfree]
      exact ih fun x hx => h x (List.mem_cons_of_mem slot hx)

theorem directory_of_mem_range (h : 16 + slotCount * 4 ≤ 4096)
    (hslot : slot ∈ List.range slotCount) :
    directoryEnd (slot + 1) ≤ pageSize := by
  have hlt := List.mem_range.mp hslot
  show 16 + (slot + 1) * 4 ≤ 4096
  omega

theorem findFreeSlot_lt {reused : Nat} (h : findFreeSlot d slotCount = some reused) :
    reused < slotCount :=
  List.mem_range.mp (List.mem_of_find?_eq_some h)

/-- The space that an insertion needs is there: behind the directory and the new slot. -/
theorem insertRecord_bounds {data : Bytes} (hinit : isInitialized page = true)
    (hspace : ¬ getFreeSpace page < data.length +
      if (findFreeSlot page.data (getSlotCount page)).isSome then 0 else 4) :
    data.length ≤ freeSpacePointer page ∧ freeSpacePointer page ≤ 4096 ∧
      16 + ((findFreeSlot page.data (getSlotCount page)).getD (getSlotCount page) + 1) * 4 ≤
        freeSpacePointer page - data.length ∧
      16 + getSlotCount page * 4 ≤ freeSpacePointer page - data.length := by
  obtain ⟨hlo, hup⟩ := bounds_of_isInitialized hinit
  rw [getFreeSpace_eq hinit, directoryEnd] at hspace
  cases hfree : findFreeSlot page.data (getSlotCount page) with
  | none =>
    rw [hfree] at hspace
    simp only [Option.isSome_none, Bool.false_eq_true, if_false] at hspace
    rw [Option.getD_none]
    omega
  | some reused =>
    rw [hfree] at hspace
    simp only [Option.isSome_some, if_true] at hspace
    have hlt := findFreeSlot_lt hfree
    rw [Option.getD_some]
    omega

theorem gives_insertRecord (page : Page) (data : Bytes) :
    Gives (insertRecordChecked page.pageId data) page.data (insertRecord page data).1
      (insertRecord page data).2.data := by
  unfold insertRecord
  apply (gives_isInitialized page).bind
  cases hinit : isInitialized page with
  | false => exact .pure _ _
  | true =>
    simp only [Bool.not_true, Bool.false_eq_true, if_false]
    split
    · exact .pure _ _
    split
    · exact .pure _ _
    rename_i hlarge
    obtain ⟨hlo, hup⟩ := bounds_of_isInitialized hinit
    apply (gives_slotCount page).bind
    apply (gives_freeSpacePointer page).bind
    have hfind : Gives (findFreeSlotChecked (List.range (getSlotCount page))) page.data
        (findFreeSlot page.data (getSlotCount page)) page.data :=
      gives_findFreeSlot _ fun slot hslot => directory_of_mem_range (by omega) hslot
    apply hfind.bind
    apply (gives_getFreeSpace page).bind
    by_cases hspace : getFreeSpace page < data.length +
        if (findFreeSlot page.data (getSlotCount page)).isSome then 0 else 4
    · simp only [if_pos hspace]
      exact .pure _ _
    obtain ⟨hle, -, hslot, hdir⟩ := insertRecord_bounds hinit hspace
    have hoff : toU16 ((freeSpacePointer page : Int) - data.length) =
        freeSpacePointer page - data.length := toU16_sub hle (by omega)
    simp only [if_neg hspace, hoff]
    apply (gives_sub16 hle (show freeSpacePointer page - data.length < 65536 by omega)).bind
    apply (gives_store
      (show freeSpacePointer page - data.length + data.length ≤ 4096 by omega)).bind
    apply (gives_writeSlot (show 16 + _ * 4 ≤ 4096 by omega)
      (show freeSpacePointer page - data.length < 65536 by omega) (by omega)).bind
    have hcount : ∀ d, Gives (countSlotChecked (findFreeSlot page.data (getSlotCount page))
        (getSlotCount page)) d () (if (findFreeSlot page.data (getSlotCount page)).isSome then d
          else d.writeNat 4 2 (getSlotCount page + 1)) := by
      intro d
      unfold countSlotChecked
      split
      · exact .pure _ _
      · exact gives_storeNat (by decide) (show getSlotCount page + 1 < 65536 by omega)
    apply (hcount _).bind
    apply (gives_storeNat (show 6 + 2 ≤ pageSize by decide)
      (show freeSpacePointer page - data.length < 65536 by omega)).bind
    exact .pure _ _

theorem gives_readRecord (page : Page) (slot : SlotId) :
    Gives (readRecordChecked page.pageId slot) page.data (readRecord page slot) page.data := by
  unfold readRecord
  apply (gives_isInitialized page).bind
  cases hinit : isInitialized page with
  | false => exact .pure _ _
  | true =>
    obtain ⟨hlo, hup⟩ := bounds_of_isInitialized hinit
    simp only [Bool.not_true, Bool.false_eq_true, if_false]
    apply (gives_slotCount page).bind
    split
    · exact .pure _ _
    rename_i hslot
    apply (gives_readSlot (show 16 + (slot.toNat + 1) * 4 ≤ 4096 by omega)).bind
    dsimp only
    split
    · exact .pure _ _
    split
    · exact .pure _ _
    rename_i hbounds
    exact (gives_load (show _ ≤ pageSize by omega)).bind (.pure _ _)

/-! ## Updates and deletions -/

theorem gives_loadSlot (h : directoryEnd (slot + 1) ≤ pageSize) :
    Gives (loadSlotChecked slotCount slot) d (loadSlot d slotCount slot) d := by
  unfold loadSlot
  apply (gives_readSlot h).bind
  dsimp only
  split
  · exact .pure _ _
  split
  · exact .pure _ _
  split
  · exact .pure _ _
  rename_i hbounds
  exact (gives_load (show _ ≤ pageSize by omega)).bind (.pure _ _)

theorem gives_loadSlots (slots : List Nat)
    (h : ∀ slot ∈ slots, directoryEnd (slot + 1) ≤ pageSize) :
    Gives (loadSlotsChecked slotCount slots) d (slots.mapM (loadSlot d slotCount)) d := by
  induction slots with
  | nil => exact .pure _ _
  | cons slot slots ih =>
    rw [List.mapM_cons]
    apply (gives_loadSlot (h slot List.mem_cons_self)).bind
    cases loadSlot d slotCount slot with
    | error e => exact .pure _ _
    | ok record =>
      apply (ih fun x hx => h x (List.mem_cons_of_mem slot hx)).bind
      cases slots.mapM (loadSlot d slotCount) with
      | error e => exact .pure _ _
      | ok records => exact .pure _ _

theorem gives_loadRecords (d : PageData) (slotCount : Nat) :
    Gives (loadRecordsChecked slotCount) d (loadRecords d slotCount) d := by
  unfold loadRecordsChecked loadRecords
  split
  · exact .pure _ _
  · rename_i hfit
    exact gives_loadSlots _ fun slot hslot =>
      directory_of_mem_range (show 16 + slotCount * 4 ≤ 4096 from Nat.not_lt.mp hfit) hslot

theorem gives_rewriteSlots (rest : List (Option Bytes)) : ∀ (d : PageData) (slot pointer : Nat),
    16 + (slot + rest.length) * 4 + liveBytes rest ≤ pointer → pointer ≤ 4096 →
      Gives (rewriteSlotsChecked slot pointer rest) d (rewriteSlots d slot pointer rest).2
        (rewriteSlots d slot pointer rest).1 := by
  induction rest with
  | nil => exact fun d slot pointer _ _ => .pure _ _
  | cons o rest ih =>
    intro d slot pointer hfit hle
    rw [List.length_cons, liveBytes_cons] at hfit
    cases o with
    | none =>
      rw [Option.getD_none, List.length_nil] at hfit
      apply (gives_writeSlot (show 16 + (slot + 1) * 4 ≤ 4096 by omega) (by omega) (by omega)).bind
      exact ih _ (slot + 1) pointer (by omega) hle
    | some data =>
      rw [Option.getD_some] at hfit
      have hptr : toU16 ((pointer : Int) - data.length) = pointer - data.length :=
        toU16_sub (by omega) (by omega)
      rw [rewriteSlots, hptr]
      apply (gives_sub16 (show data.length ≤ pointer by omega) (by omega)).bind
      apply (gives_store (show pointer - data.length + data.length ≤ 4096 by omega)).bind
      apply (gives_writeSlot (show 16 + (slot + 1) * 4 ≤ 4096 by omega) (by omega) (by omega)).bind
      exact ih _ (slot + 1) (pointer - data.length) (by omega) (by omega)

theorem rewriteSlots_pointer (rest : List (Option Bytes)) : ∀ (d : PageData) (slot pointer : Nat),
    16 + (slot + rest.length) * 4 + liveBytes rest ≤ pointer → pointer < 65536 →
      (rewriteSlots d slot pointer rest).2 ≤ pointer := by
  induction rest with
  | nil => exact fun d slot pointer _ _ => le_refl _
  | cons o rest ih =>
    intro d slot pointer hfit hlt
    rw [List.length_cons, liveBytes_cons] at hfit
    cases o with
    | none =>
      rw [Option.getD_none, List.length_nil] at hfit
      exact ih _ (slot + 1) pointer (by omega) hlt
    | some data =>
      rw [Option.getD_some] at hfit
      have hptr : toU16 ((pointer : Int) - data.length) = pointer - data.length :=
        toU16_sub (by omega) hlt
      rw [rewriteSlots, hptr]
      exact (ih _ (slot + 1) (pointer - data.length) (by omega) (by omega)).trans (Nat.sub_le _ _)

theorem gives_rewriteRecords (page : Page) (slots : List (Option Bytes)) :
    Gives (rewriteRecordsChecked slots) page.data (rewriteRecords page slots).1
      (rewriteRecords page slots).2.data := by
  unfold rewriteRecordsChecked rewriteRecords
  split
  · exact .pure _ _
  · rename_i hfit
    have hfit : 16 + slots.length * 4 + liveBytes slots ≤ 4096 := Nat.not_lt.mp hfit
    apply (gives_fillZero (show 16 + (4096 - 16) ≤ 4096 by omega)).bind
    apply (gives_storeNat (show 4 + 2 ≤ pageSize by decide)
      (show slots.length < 65536 by omega)).bind
    have hslots : 16 + (0 + slots.length) * 4 + liveBytes slots ≤ pageSize := by
      rw [Nat.zero_add]
      exact hfit
    apply (gives_rewriteSlots slots _ 0 pageSize hslots (le_refl _)).bind
    have hpointer := rewriteSlots_pointer slots
      ((page.data.clear 16 (pageSize - 16)).writeNat 4 2 slots.length) 0 pageSize hslots (by decide)
    apply (gives_storeNat (show 6 + 2 ≤ pageSize by decide) (Nat.lt_of_le_of_lt hpointer _)).bind
    · exact .pure _ _
    · decide

theorem gives_updateRecord (page : Page) (slot : SlotId) (data : Bytes) :
    Gives (updateRecordChecked page.pageId slot data) page.data (updateRecord page slot data).1
      (updateRecord page slot data).2.data := by
  unfold updateRecord
  apply (gives_isInitialized page).bind
  cases hinit : isInitialized page with
  | false => exact .pure _ _
  | true =>
    simp only [Bool.not_true, Bool.false_eq_true, if_false]
    split
    · exact .pure _ _
    split
    · exact .pure _ _
    apply (gives_slotCount page).bind
    split
    · exact .pure _ _
    apply (gives_loadRecords page.data (getSlotCount page)).bind
    cases loadRecords page.data (getSlotCount page) with
    | error e => exact .pure _ _
    | ok slots =>
      dsimp only
      cases slots.getD slot.toNat none with
      | none => exact .pure _ _
      | some old => exact gives_rewriteRecords page _

theorem gives_deleteRecord (page : Page) (slot : SlotId) :
    Gives (deleteRecordChecked page.pageId slot) page.data (deleteRecord page slot).1
      (deleteRecord page slot).2.data := by
  unfold deleteRecord
  apply (gives_isInitialized page).bind
  cases hinit : isInitialized page with
  | false => exact .pure _ _
  | true =>
    simp only [Bool.not_true, Bool.false_eq_true, if_false]
    apply (gives_slotCount page).bind
    split
    · exact .pure _ _
    apply (gives_loadRecords page.data (getSlotCount page)).bind
    cases loadRecords page.data (getSlotCount page) with
    | error e => exact .pure _ _
    | ok slots =>
      dsimp only
      cases slots.getD slot.toNat none with
      | none => exact .pure _ _
      | some old => exact gives_rewriteRecords page _

/-! ## What stays -/

/-- The page id, the link to the next page and the LSN are those of `d`. -/
structure KeepsHeader (d d' : PageData) : Prop where
  pageId : d'.bytes 0 4 = d.bytes 0 4
  nextPageId : d'.bytes 8 4 = d.bytes 8 4
  lsn : d'.bytes 12 4 = d.bytes 12 4

theorem KeepsHeader.refl (d : PageData) : KeepsHeader d d := ⟨rfl, rfl, rfl⟩

theorem KeepsHeader.of_bytes {d d' : PageData}
    (h : ∀ {a n : Nat}, a + n ≤ 16 → a + n ≤ 4 ∨ 8 ≤ a → d'.bytes a n = d.bytes a n) :
    KeepsHeader d d' :=
  ⟨h (by omega) (by omega), h (by omega) (by omega), h (by omega) (by omega)⟩

theorem keepsHeader_rewriteRecords (page : Page) {slots : List (Option Bytes)}
    (hne : ∀ b, some b ∈ slots → b ≠ []) :
    KeepsHeader page.data (rewriteRecords page slots).2.data := by
  by_cases hfit : 16 + slots.length * 4 + liveBytes slots ≤ 4096
  · rw [rewriteRecords_eq hfit]
    exact .of_bytes (bytes_rewritten hfit hne)
  · rw [rewriteRecords_full (by omega)]
    exact .refl _

/-- `LoadRecords` accepts no empty record. -/
theorem ne_nil_of_loadSlots : ∀ {l : List Nat} {slots : List (Option Bytes)},
    l.mapM (loadSlot d slotCount) = .ok slots → ∀ b, some b ∈ slots → b ≠ [] := by
  intro l
  induction l with
  | nil =>
    intro slots h b hb
    cases h
    cases hb
  | cons slot l ih =>
    intro slots h b hb
    rw [List.mapM_cons] at h
    cases hslot : loadSlot d slotCount slot with
    | error e =>
      rw [hslot] at h
      cases h
    | ok record =>
      cases hrest : l.mapM (loadSlot d slotCount) with
      | error e =>
        rw [hslot, hrest] at h
        cases h
      | ok records =>
        rw [hslot, hrest] at h
        cases h
        rcases List.mem_cons.mp hb with rfl | hb
        · unfold loadSlot at hslot
          dsimp only at hslot
          split at hslot
          · cases hslot
          split at hslot
          · cases hslot
          split at hslot
          · cases hslot
          cases hslot
          rename_i hzero _
          apply List.ne_nil_of_length_pos
          rw [Image.length_bytes]
          omega
        · exact ih hrest b hb

theorem ne_nil_of_loadRecords {slots : List (Option Bytes)}
    (h : loadRecords d slotCount = .ok slots) : ∀ b, some b ∈ slots → b ≠ [] := by
  unfold loadRecords at h
  split at h
  · cases h
  · exact ne_nil_of_loadSlots h

theorem keepsHeader_updateRecord (page : Page) (slot : SlotId) (data : Bytes) :
    KeepsHeader page.data (updateRecord page slot data).2.data := by
  unfold updateRecord
  split
  · exact .refl _
  split
  · exact .refl _
  rename_i hsize
  split
  · exact .refl _
  split
  · exact .refl _
  cases hload : loadRecords page.data (getSlotCount page) with
  | error e => exact .refl _
  | ok slots =>
    dsimp only
    cases slots.getD slot.toNat none with
    | none => exact .refl _
    | some old =>
      apply keepsHeader_rewriteRecords
      intro b hb
      rcases List.mem_or_eq_of_mem_set hb with hb | hb
      · exact ne_nil_of_loadRecords hload b hb
      · cases hb
        exact List.ne_nil_of_length_pos (by omega)

theorem keepsHeader_deleteRecord (page : Page) (slot : SlotId) :
    KeepsHeader page.data (deleteRecord page slot).2.data := by
  unfold deleteRecord
  split
  · exact .refl _
  split
  · exact .refl _
  cases hload : loadRecords page.data (getSlotCount page) with
  | error e => exact .refl _
  | ok slots =>
    dsimp only
    cases slots.getD slot.toNat none with
    | none => exact .refl _
    | some old =>
      apply keepsHeader_rewriteRecords
      intro b hb
      have hset := (List.rdropWhile_prefix _ _).subset hb
      rcases List.mem_or_eq_of_mem_set hset with hb | hb
      · exact ne_nil_of_loadRecords hload b hb
      · cases hb

/-- What an insertion writes: the record, its slot, and the count and the free space pointer of the
header. -/
theorem bytes_insertRecord (page : Page) (data : Bytes) {a n : Nat} (hhead : a + n ≤ 4 ∨ 8 ≤ a)
    (hdir : a + n ≤ 16 + getSlotCount page * 4)
    (hslot : ∀ slot, (insertRecord page data).1 = .ok slot →
      a + n ≤ slotOffset slot.toNat ∨ slotOffset slot.toNat + 4 ≤ a) :
    (insertRecord page data).2.data.bytes a n = page.data.bytes a n := by
  unfold insertRecord at hslot ⊢
  cases hinit : isInitialized page with
  | false => rfl
  | true =>
    rw [hinit] at hslot
    simp only [Bool.not_true, Bool.false_eq_true, if_false] at hslot ⊢
    split
    · rfl
    rename_i hsize
    rw [if_neg hsize] at hslot
    split
    · rfl
    rename_i hlarge
    rw [if_neg hlarge] at hslot
    by_cases hspace : getFreeSpace page < data.length +
        if (findFreeSlot page.data (getSlotCount page)).isSome then 0 else 4
    · rw [if_pos hspace]
    obtain ⟨hle, hup, hselected, hdirectory⟩ := insertRecord_bounds hinit hspace
    rw [if_neg hspace] at hslot ⊢
    have hoff : toU16 ((freeSpacePointer page : Int) - data.length) =
        freeSpacePointer page - data.length := toU16_sub hle (by omega)
    rw [hoff]
    dsimp only
    generalize hsel : (findFreeSlot page.data (getSlotCount page)).getD (getSlotCount page) =
      selected
      at hslot hselected ⊢
    have hapart := hslot _ rfl
    rw [UInt16.toNat_ofNat_of_lt' (show selected < 65536 by omega)] at hapart
    unfold slotOffset at hapart
    have hrecord : (page.data.splice (freeSpacePointer page - data.length) data).bytes a n =
        page.data.bytes a n :=
      Image.bytes_splice_of_disjoint _ (show _ ≤ 4096 by omega) (by omega)
    rw [Image.bytes_writeNat_of_disjoint _ (by decide) (by omega)]
    split
    · rw [bytes_writeSlot _ (by omega) (by omega), hrecord]
    · rw [Image.bytes_writeNat_of_disjoint _ (by decide) (by omega),
        bytes_writeSlot _ (by omega) (by omega), hrecord]

theorem keepsHeader_insertRecord (page : Page) (data : Bytes) :
    KeepsHeader page.data (insertRecord page data).2.data := by
  apply KeepsHeader.of_bytes
  intro a n hle hhead
  apply bytes_insertRecord page data hhead (by omega)
  intro slot _
  unfold slotOffset
  omega

theorem readRecord_bounds {slot : SlotId} {record : Record}
    (h : readRecord page slot = .ok record) :
    ∃ off len, directoryEnd (getSlotCount page) ≤ off ∧ off + len ≤ pageSize ∧
      record.data = page.data.bytes off len := by
  unfold readRecord at h
  split at h
  · cases h
  split at h
  · cases h
  dsimp only at h
  split at h
  · cases h
  split at h
  · cases h
  rename_i hbounds
  cases h
  exact ⟨_, _, by omega, by omega, rfl⟩

/-- The operations of a slotted page stay inside the page, whatever it holds. -/
structure Safe (page : Page) : Prop where
  insert : ∀ data, Gives (insertRecordChecked page.pageId data) page.data
    (insertRecord page data).1 (insertRecord page data).2.data
  read : ∀ slot,
    Gives (readRecordChecked page.pageId slot) page.data (readRecord page slot) page.data
  update : ∀ slot data, Gives (updateRecordChecked page.pageId slot data) page.data
    (updateRecord page slot data).1 (updateRecord page slot data).2.data
  delete : ∀ slot, Gives (deleteRecordChecked page.pageId slot) page.data
    (deleteRecord page slot).1 (deleteRecord page slot).2.data
  insert_header : ∀ data, KeepsHeader page.data (insertRecord page data).2.data
  update_header : ∀ slot data, KeepsHeader page.data (updateRecord page slot data).2.data
  delete_header : ∀ slot, KeepsHeader page.data (deleteRecord page slot).2.data
  /-- The entries of the directory, except the one that is assigned. -/
  insert_slots : ∀ data i, i < getSlotCount page →
    (∀ slot, (insertRecord page data).1 = .ok slot → slot.toNat ≠ i) →
      (insertRecord page data).2.data.bytes (slotOffset i) 4 = page.data.bytes (slotOffset i) 4
  read_range : ∀ slot record, readRecord page slot = .ok record →
    ∃ off len, directoryEnd (getSlotCount page) ≤ off ∧ off + len ≤ pageSize ∧
      record.data = page.data.bytes off len

theorem slottedPage_safe (page : Page) : Safe page where
  insert := gives_insertRecord page
  read := gives_readRecord page
  update := gives_updateRecord page
  delete := gives_deleteRecord page
  insert_header := keepsHeader_insertRecord page
  update_header := keepsHeader_updateRecord page
  delete_header := keepsHeader_deleteRecord page
  insert_slots data i hi hother := by
    apply bytes_insertRecord page data
    · unfold slotOffset
      omega
    · unfold slotOffset
      omega
    · intro slot hslot
      have hne := hother slot hslot
      unfold slotOffset
      omega
  read_range _ _ h := readRecord_bounds h

end SlottedPage

end MiniDbms
