import MiniDbms.Index.BucketPageContents

/-!
# Removing from a damaged bucket page

`HashIndexBucketPage::Remove` on an arbitrary image. The loop overwrites a matching entry
by the last one and blanks the last one before it looks at the next entry, and the entry
count is written at the very end. An entry that cannot be read therefore ends the call in
the middle of its work.

* `removeLoop_damaged`: without a `RecordID` the loop fails as soon as one of its entries
  is damaged;
* `removeLoop_frame`: it touches the entries that it still has to see only;
* `remove_failure_iff`: the exact images on which a failed removal leaves the bytes alone.
-/

namespace MiniDbms

open Lib

namespace HashIndexBucketPage

/-- `ReadEntry` refuses the entry: its key length is out of range. -/
def Damaged (d : PageData) (i : Nat) : Prop := maxKeyLength < d.readNat (entryOffset i) 2

instance (d : PageData) (i : Nat) : Decidable (Damaged d i) :=
  inferInstanceAs (Decidable (_ < _))

/-- All 76 bytes of the entry are zero. -/
def Blank (d : PageData) (i : Nat) : Prop := d.bytes (entryOffset i) 76 = List.replicate 76 0

/-- What `ReadEntry` reads of an entry that is not damaged. -/
def entryAt (d : PageData) (i : Nat) : Entry :=
  (d.bytes (entryOffset i + 4) (d.readNat (entryOffset i) 2),
    ⟨PageData.readPageId d (entryOffset i + 68), UInt16.ofNat (d.readNat (entryOffset i + 72) 2)⟩)

/-- The entry of zeros: the empty key and the `RecordID` (0, 0). -/
def blankEntry : Entry := ([], ⟨0, 0⟩)

variable {page page' : Page} {key : Bytes} {value : Option RecordID} {d d' : PageData} {i j : Nat}

/-! ## One entry -/

theorem Damaged.congr (h : d'.bytes (entryOffset i) 76 = d.bytes (entryOffset i) 76) :
    Damaged d' i ↔ Damaged d i := by
  unfold Damaged
  rw [Image.readNat_congr (Image.bytes_sub h (le_refl _) (by omega))]

/-- What a part of a blank entry reads. -/
theorem Blank.bytes (h : Blank d i) {off len : Nat} (hlo : entryOffset i ≤ off)
    (hup : off + len ≤ entryOffset i + 76) : d.bytes off len = List.replicate len 0 := by
  have hzero : d.bytes (entryOffset i) 76 = (Image.zero : PageData).bytes (entryOffset i) 76 := by
    rw [Image.bytes_zero]
    exact h
  rw [Image.bytes_sub hzero hlo hup, Image.bytes_zero]

theorem Blank.readNat (h : Blank d i) {off len : Nat} (hlo : entryOffset i ≤ off)
    (hup : off + len ≤ entryOffset i + 76) : d.readNat off len = 0 := by
  rw [Image.readNat, h.bytes hlo hup, leNat_replicate_zero]

theorem Blank.not_damaged (h : Blank d i) : ¬ Damaged d i := by
  unfold Damaged
  rw [h.readNat (le_refl _) (by omega)]
  exact Nat.not_lt_zero _

theorem Blank.entryAt (h : Blank d i) : entryAt d i = blankEntry := by
  unfold HashIndexBucketPage.entryAt PageData.readPageId
  rw [h.readNat (le_refl _) (by omega), h.readNat (by omega) (by omega),
    h.readNat (by omega) (by omega)]
  rfl

theorem readEntry_damaged (hinit : isInitialized page = true) (hi : i < getEntryCount page)
    (h : Damaged page.data i) :
    readEntry page i = .error (.ioError "Corrupted hash bucket key length") := by
  unfold readEntry
  rw [if_neg (by rw [hinit]; simp only [Bool.true_eq_false, false_or]; omega)]
  exact if_pos h

theorem readEntry_readable (hinit : isInitialized page = true) (hi : i < getEntryCount page)
    (h : ¬ Damaged page.data i) : readEntry page i = .ok (entryAt page.data i) := by
  unfold readEntry
  rw [if_neg (by rw [hinit]; simp only [Bool.true_eq_false, false_or]; omega)]
  exact if_neg h

theorem getEntryCount_le (page : Page) : getEntryCount page ≤ entryCapacity := by
  unfold getEntryCount
  split
  · rename_i h
    simp only [isInitialized, decide_eq_true_eq] at h
    exact h.2.2
  · exact Nat.zero_le _

/-! ## One removal -/

/-- `page'` has the header of `page`, and the entries that `P` does not speak of. -/
structure Touches (P : Nat → Prop) (page page' : Page) : Prop where
  header : page'.data.bytes 0 16 = page.data.bytes 0 16
  entry : ∀ j, ¬ P j → page'.data.bytes (entryOffset j) 76 = page.data.bytes (entryOffset j) 76

variable {P Q : Nat → Prop}

theorem Touches.refl (P : Nat → Prop) (page : Page) : Touches P page page :=
  ⟨rfl, fun _ _ => rfl⟩

theorem Touches.trans {page'' : Page} (h : Touches P page page') (h' : Touches P page' page'') :
    Touches P page page'' :=
  ⟨h'.header.trans h.header, fun j hj => (h'.entry j hj).trans (h.entry j hj)⟩

theorem Touches.mono (h : Touches P page page') (hPQ : ∀ i, P i → Q i) : Touches Q page page' :=
  ⟨h.header, fun j hj => h.entry j fun hP => hj (hPQ j hP)⟩

theorem Touches.isInitialized (h : Touches P page page') :
    isInitialized page' = isInitialized page := by
  have hsub : ∀ {off len : Nat}, off + len ≤ 16 →
      page'.data.readNat off len = page.data.readNat off len := fun hup =>
    Image.readNat_congr (Image.bytes_sub h.header (Nat.zero_le _) (by omega))
  unfold HashIndexBucketPage.isInitialized
  rw [hsub (by omega), hsub (by omega), hsub (by omega)]

theorem Touches.getEntryCount (h : Touches P page page') :
    getEntryCount page' = getEntryCount page := by
  unfold HashIndexBucketPage.getEntryCount
  rw [h.isInitialized, Image.readNat_congr (Image.bytes_sub h.header (Nat.zero_le _) (by omega))]

theorem Touches.damaged (h : Touches P page page') (hj : ¬ P j) :
    Damaged page'.data j ↔ Damaged page.data j :=
  Damaged.congr (h.entry j hj)

theorem Touches.blank (h : Touches P page page') (hj : ¬ P j) :
    Blank page'.data j ↔ Blank page.data j := by
  unfold Blank
  rw [h.entry j hj]

theorem disjoint_entryOffset (h : i ≠ j) :
    entryOffset i + 76 ≤ entryOffset j ∨ entryOffset j + 76 ≤ entryOffset i := by
  unfold entryOffset
  omega

theorem header_le_entryOffset (i : Nat) : 0 + 16 ≤ entryOffset i := by
  unfold entryOffset
  omega

theorem touches_clearEntry (hi : i < entryCapacity) :
    Touches (fun k => k = i) page (clearEntry page i) :=
  ⟨clearEntry_bytes hi (.inl (header_le_entryOffset i)),
    fun _ hj => clearEntry_bytes hi (disjoint_entryOffset hj)⟩

theorem blank_clearEntry (hi : i < entryCapacity) : Blank (clearEntry page i).data i := by
  have hfit := entryOffset_le hi
  rw [clearEntry, if_neg (by omega)]
  exact Image.bytes_clear_same _ hfit

theorem clearEntry_blank (hi : i < entryCapacity) (h : Blank page.data i) :
    (clearEntry page i).data = page.data := by
  have hfit := entryOffset_le hi
  rw [clearEntry, if_neg (by omega)]
  exact Image.clear_self hfit h

theorem stores_nil (hinit : isInitialized page = true) :
    Stores page.data (PageData.readPageId page.data 8) (getEntryCount page) [] := by
  have hinit' := hinit
  simp only [isInitialized, decide_eq_true_eq] at hinit'
  refine ⟨hinit'.1, hinit'.2.1, ?_, rfl, Nat.zero_le _, getEntryCount_le page,
    fun i e he => by cases he⟩
  rw [getEntryCount, if_pos hinit]

theorem touches_writeEntry (hinit : isInitialized page = true) (hi : i < entryCapacity)
    (hk : key.length ≤ maxKeyLength) (value : RecordID) :
    ∃ page', writeEntry page i key value = (.ok (), page') ∧ ¬ Damaged page'.data i ∧
      Touches (fun k => k = i) page page' := by
  obtain ⟨d, hwrite, hholds, hsame⟩ := writeEntry_stores (stores_nil hinit) hi hk value
  refine ⟨_, hwrite, ?_, hsame (.inl (header_le_entryOffset i)), fun j hj => ?_⟩
  · have hlen : d.readNat (entryOffset i) 2 = key.length := hholds.length
    show ¬ maxKeyLength < d.readNat (entryOffset i) 2
    omega
  · exact hsame (disjoint_entryOffset hj)

/-- Writing the blank entry blanks an entry. -/
theorem writeEntry_blankEntry (hinit : isInitialized page = true) (hi : i < entryCapacity) :
    writeEntry page i blankEntry.1 blankEntry.2 = (.ok (),
      { page with data := page.data.clear (entryOffset i) 76, isDirty := true }) := by
  have hfit : entryOffset i + 76 ≤ pageSize := entryOffset_le hi
  unfold writeEntry
  rw [validateKey_ok (Nat.zero_le _), hinit]
  dsimp only
  rw [if_neg (by simp only [Bool.true_eq_false, false_or]; omega)]
  -- each of the four writes puts zeros where zeros are
  have hblank : Blank (page.data.clear (entryOffset i) 76) i := Image.bytes_clear_same _ hfit
  have hlength : (page.data.clear (entryOffset i) 76).writeNat (entryOffset i) 2 0 =
      page.data.clear (entryOffset i) 76 :=
    Image.writeNat_zero_self (by omega) (hblank.bytes (le_refl _) (by omega))
  have hkey : (page.data.clear (entryOffset i) 76).splice (entryOffset i + 4) [] =
      page.data.clear (entryOffset i) 76 :=
    Image.splice_self (show _ + 0 ≤ pageSize by omega) rfl
  have hpage : PageData.writePageId (page.data.clear (entryOffset i) 76) (entryOffset i + 68) 0 =
      page.data.clear (entryOffset i) 76 :=
    Image.writeNat_zero_self (by omega) (hblank.bytes (by omega) (by omega))
  have hslot : (page.data.clear (entryOffset i) 76).writeNat (entryOffset i + 72) 2 0 =
      page.data.clear (entryOffset i) 76 :=
    Image.writeNat_zero_self (by omega) (hblank.bytes (by omega) (by omega))
  show (Except.ok (), { page with
    data := (PageData.writePageId (((page.data.clear (entryOffset i) 76).writeNat (entryOffset i) 2
      0).splice (entryOffset i + 4) []) (entryOffset i + 68) 0).writeNat (entryOffset i + 72) 2 0
    isDirty := true }) = _
  rw [hlength, hkey, hpage, hslot]

variable {index last left removed : Nat}

/-- An entry is removed when the last one can be read. -/
theorem removeEntry_readable (hinit : isInitialized page = true) (hle : index ≤ last)
    (hlast : last < getEntryCount page) (hread : index ≠ last → ¬ Damaged page.data last) :
    ∃ page', removeEntry page index last = (.ok (), page') ∧
      Touches (fun k => k = index ∨ k = last) page page' ∧ ¬ Damaged page'.data index ∧
      Blank page'.data last := by
  have hcap : last < entryCapacity := Nat.lt_of_lt_of_le hlast (getEntryCount_le page)
  unfold removeEntry
  split
  · rename_i he
    have hblank : Blank (clearEntry page last).data last := blank_clearEntry hcap
    refine ⟨_, rfl, (touches_clearEntry hcap).mono fun _ => Or.inr, ?_, hblank⟩
    rw [he]
    exact hblank.not_damaged
  · rename_i hne
    have hshort : (entryAt page.data last).1.length ≤ maxKeyLength := by
      rw [entryAt, Image.length_bytes]
      exact Nat.not_lt.mp (hread hne)
    obtain ⟨page₁, hwrite, hmoved, htouch⟩ := touches_writeEntry hinit
      (Nat.lt_of_le_of_lt hle hcap) hshort (entryAt page.data last).2
    rw [readEntry_readable hinit hlast (hread hne)]
    dsimp only
    rw [hwrite]
    have hclear : Touches (fun k => k = last) page₁ (clearEntry page₁ last) :=
      touches_clearEntry hcap
    refine ⟨_, rfl, ?_, ?_, blank_clearEntry hcap⟩
    · exact (htouch.mono fun _ => Or.inl).trans (hclear.mono fun _ => Or.inr)
    · rwa [hclear.damaged hne]

/-- A blank entry that moves blanks the entry that it overwrites, and nothing else changes. -/
theorem removeEntry_blank (hinit : isInitialized page = true) (hlt : index < last)
    (hlast : last < getEntryCount page) (hblank : Blank page.data last) :
    ∃ page', removeEntry page index last = (.ok (), page') ∧
      page'.data = page.data.clear (entryOffset index) 76 := by
  have hcap : last < entryCapacity := Nat.lt_of_lt_of_le hlast (getEntryCount_le page)
  unfold removeEntry
  rw [if_neg (Nat.ne_of_lt hlt), readEntry_readable hinit hlast hblank.not_damaged, hblank.entryAt]
  have hwrite := writeEntry_blankEntry hinit (Nat.lt_trans hlt hcap)
  unfold blankEntry at hwrite ⊢
  dsimp only at hwrite ⊢
  rw [hwrite]
  refine ⟨_, rfl, clearEntry_blank hcap ?_⟩
  have htouch : Touches (fun k => k = index) page (clearEntry page index) :=
    touches_clearEntry (Nat.lt_trans hlt hcap)
  have hfit := entryOffset_le (Nat.lt_trans hlt hcap)
  rw [clearEntry, if_neg (by omega)] at htouch
  exact (htouch.blank (Nat.ne_of_gt hlt)).mpr hblank

/-! ## The loop -/

/-- Entries that can be read and do not match are passed over. -/
theorem removeLoop_skip (hinit : isInitialized page = true) {k : Nat}
    (hle : index + k + left ≤ getEntryCount page)
    (hskip : ∀ j, index ≤ j → j < index + k →
      ¬ Damaged page.data j ∧ ¬ Matches key value (entryAt page.data j)) :
    removeLoop key value (k + left) page index removed =
      removeLoop key value left page (index + k) removed := by
  induction k generalizing index with
  | zero => rw [Nat.zero_add, Nat.add_zero]
  | succ k ih =>
    obtain ⟨hread, hmatch⟩ := hskip index (le_refl _) (by omega)
    rw [show k + 1 + left = (k + left) + 1 by omega, removeLoop,
      readEntry_readable hinit (by omega) hread]
    dsimp only
    rw [if_pos hmatch, ih (by omega) fun j hlo hup => hskip j (by omega) (by omega)]
    congr 1
    omega

/-- The loop at an entry that matches, behind which the last one can be read. -/
theorem removeLoop_match (removed : Nat) (hinit : isInitialized page = true)
    (hle : index + (left + 1) ≤ getEntryCount page) (hread : ¬ Damaged page.data index)
    (hmatch : Matches key none (entryAt page.data index))
    (hlast : left ≠ 0 → ¬ Damaged page.data (index + left)) :
    ∃ page', removeEntry page index (index + left) = (.ok (), page') ∧
      Touches (fun k => k = index ∨ k = index + left) page page' ∧ ¬ Damaged page'.data index ∧
      Blank page'.data (index + left) ∧
      removeLoop key none (left + 1) page index removed =
        removeLoop key none left page' index (removed + 1) := by
  obtain ⟨page', hremove, htouch, hmoved, hblank⟩ := removeEntry_readable hinit
    (show index ≤ index + left by omega) (by omega) fun hne => hlast (by omega)
  refine ⟨page', hremove, htouch, hmoved, hblank, ?_⟩
  rw [removeLoop, readEntry_readable hinit (by omega) hread]
  dsimp only
  rw [if_neg (not_not.mpr hmatch), hremove]
  rfl

/-- The loop at an entry that matches, when the last one cannot be read. -/
theorem removeLoop_last_damaged (removed : Nat) (hinit : isInitialized page = true)
    (hle : index + (left + 1) ≤ getEntryCount page) (hread : ¬ Damaged page.data index)
    (hmatch : Matches key value (entryAt page.data index)) (hleft : left ≠ 0)
    (hlast : Damaged page.data (index + left)) :
    ∃ e, removeLoop key value (left + 1) page index removed = (.error e, page) := by
  rw [removeLoop, readEntry_readable hinit (by omega) hread]
  dsimp only
  rw [if_neg (not_not.mpr hmatch), removeEntry, if_neg (by omega),
    readEntry_damaged hinit (by omega) hlast]
  exact ⟨_, rfl⟩

theorem removeLoop_first_damaged (key : Bytes) (value : Option RecordID) (removed : Nat)
    (hinit : isInitialized page = true) (hle : index + (left + 1) ≤ getEntryCount page)
    (h : Damaged page.data index) :
    ∃ e, removeLoop key value (left + 1) page index removed = (.error e, page) := by
  rw [removeLoop, readEntry_damaged hinit (by omega) h]
  exact ⟨_, rfl⟩

/-- The loop touches the entries that it still has to see only. -/
theorem removeLoop_frame (left : Nat) : ∀ (page : Page) (index removed : Nat),
    isInitialized page = true → index + left ≤ getEntryCount page →
      Touches (fun k => index ≤ k ∧ k < index + left) page
        (removeLoop key none left page index removed).2 := by
  induction left with
  | zero => exact fun page _ _ _ _ => .refl _ page
  | succ left ih =>
    intro page index removed hinit hle
    by_cases hdamaged : Damaged page.data index
    · obtain ⟨e, hloop⟩ := removeLoop_first_damaged key none removed hinit hle hdamaged
      rw [hloop]
      exact .refl _ page
    by_cases hmatch : Matches key none (entryAt page.data index)
    · by_cases hlast : left ≠ 0 ∧ Damaged page.data (index + left)
      · obtain ⟨e, hloop⟩ := removeLoop_last_damaged removed hinit hle hdamaged hmatch hlast.1
          hlast.2
        rw [hloop]
        exact .refl _ page
      · obtain ⟨page', -, htouch, -, -, hloop⟩ := removeLoop_match removed hinit hle
          hdamaged hmatch fun h0 hd => hlast ⟨h0, hd⟩
        rw [hloop]
        have hrest := ih page' index (removed + 1) (by rw [htouch.isInitialized, hinit])
          (by rw [htouch.getEntryCount]; omega)
        exact (htouch.mono (by omega)).trans (hrest.mono (by omega))
    · rw [show left + 1 = 1 + left by omega, removeLoop_skip hinit (by omega)]
      · exact (ih page (index + 1) removed hinit (by omega)).mono (by omega)
      · intro j hlo hup
        obtain rfl : j = index := by omega
        exact ⟨hdamaged, hmatch⟩

/-- Without a `RecordID`, the loop fails if one of its entries is damaged. -/
theorem removeLoop_damaged (left : Nat) : ∀ (page : Page) (index removed : Nat),
    isInitialized page = true → index + left ≤ getEntryCount page →
      (∃ j, index ≤ j ∧ j < index + left ∧ Damaged page.data j) →
      ∃ e, (removeLoop key none left page index removed).1 = .error e := by
  induction left with
  | zero =>
    intro page index removed _ _ h
    obtain ⟨j, hlo, hup, -⟩ := h
    omega
  | succ left ih =>
    intro page index removed hinit hle h
    obtain ⟨j, hlo, hup, hj⟩ := h
    by_cases hdamaged : Damaged page.data index
    · obtain ⟨e, hloop⟩ := removeLoop_first_damaged key none removed hinit hle hdamaged
      exact ⟨e, by rw [hloop]⟩
    have hne : j ≠ index := by
      intro he
      subst he
      exact hdamaged hj
    by_cases hmatch : Matches key none (entryAt page.data index)
    · by_cases hlast : left ≠ 0 ∧ Damaged page.data (index + left)
      · obtain ⟨e, hloop⟩ := removeLoop_last_damaged removed hinit hle hdamaged hmatch hlast.1
          hlast.2
        exact ⟨e, by rw [hloop]⟩
      · obtain ⟨page', -, htouch, -, -, hloop⟩ := removeLoop_match removed hinit hle
          hdamaged hmatch fun h0 hd => hlast ⟨h0, hd⟩
        have hinside : j ≠ index + left := by
          intro he
          subst he
          exact hlast ⟨by omega, hj⟩
        rw [hloop]
        apply ih page' index (removed + 1) (by rw [htouch.isInitialized, hinit])
          (by rw [htouch.getEntryCount]; omega)
        exact ⟨j, hlo, by omega, (htouch.damaged (by omega)).mpr hj⟩
    · rw [show left + 1 = 1 + left by omega, removeLoop_skip hinit (by omega)]
      · exact ih page (index + 1) removed hinit (by omega) ⟨j, by omega, by omega, hj⟩
      · intro k hlo hup
        obtain rfl : k = index := by omega
        exact ⟨hdamaged, hmatch⟩

/-- If all its entries can be read, the loop ends well. -/
theorem removeLoop_readable (left : Nat) : ∀ (page : Page) (index removed : Nat),
    isInitialized page = true → index + left ≤ getEntryCount page →
      (∀ j, index ≤ j → j < index + left → ¬ Damaged page.data j) →
      ∃ count k page', removeLoop key none left page index removed =
        (.ok (count, removed + k), page') := by
  induction left with
  | zero => exact fun page index removed _ _ _ => ⟨index, 0, page, rfl⟩
  | succ left ih =>
    intro page index removed hinit hle h
    have hread := h index (le_refl _) (by omega)
    by_cases hmatch : Matches key none (entryAt page.data index)
    · obtain ⟨page', -, htouch, hmoved, -, hloop⟩ := removeLoop_match removed hinit hle
        hread hmatch fun _ => h _ (by omega) (by omega)
      have hrest : ∀ j, index ≤ j → j < index + left → ¬ Damaged page'.data j := by
        intro j hlo hup
        by_cases he : j = index
        · rwa [he]
        · rw [htouch.damaged (by omega)]
          exact h j hlo (by omega)
      obtain ⟨count, k, page'', hend⟩ := ih page' index (removed + 1)
        (by rw [htouch.isInitialized, hinit]) (by rw [htouch.getEntryCount]; omega) hrest
      exact ⟨count, 1 + k, page'', by rw [hloop, hend, Nat.add_assoc]⟩
    · rw [show left + 1 = 1 + left by omega, removeLoop_skip hinit (by omega)]
      · exact ih page (index + 1) removed hinit (by omega) fun j hlo hup =>
          h j (by omega) (by omega)
      · intro j hlo hup
        obtain rfl : j = index := by omega
        exact ⟨hread, hmatch⟩

/-- The loop with the empty key at a blank entry, up to the last damaged one. It takes the entries
behind the damaged one from the end; blank ones leave no trace. -/
theorem removeLoop_blank (left : Nat) : ∀ (page : Page) (index removed damaged : Nat),
    isInitialized page = true → index + left ≤ getEntryCount page → Blank page.data index →
      index < damaged → damaged < index + left → Damaged page.data damaged →
      (∀ j, damaged < j → j < index + left → ¬ Damaged page.data j) →
      ((∀ j, damaged < j → j < index + left → Blank page.data j) →
        (removeLoop [] none left page index removed).2.data = page.data) ∧
      ∀ j, damaged < j → j < index + left → ¬ Blank page.data j →
        ∃ k, damaged < k ∧ k < index + left ∧ ¬ Blank page.data k ∧
          Blank (removeLoop [] none left page index removed).2.data k := by
  induction left with
  | zero =>
    intro page index removed damaged _ _ _ hlt hdlt
    omega
  | succ left ih =>
    intro page index removed damaged hinit hle hblank hlt hdlt hdamaged hbehind
    have hmatch : Matches [] none (entryAt page.data index) := by
      rw [hblank.entryAt]
      exact ⟨rfl, nofun⟩
    by_cases hlast : damaged = index + left
    · subst hlast
      obtain ⟨e, hloop⟩ := removeLoop_last_damaged removed hinit hle hblank.not_damaged hmatch
        (by omega) hdamaged
      rw [hloop]
      exact ⟨fun _ => rfl, fun j hlo hup => by omega⟩
    obtain ⟨page', hremove, htouch, -, hend, hloop⟩ := removeLoop_match removed hinit hle
      hblank.not_damaged hmatch fun _ => hbehind _ (by omega) (by omega)
    have hinit' : isInitialized page' = true := by rw [htouch.isInitialized, hinit]
    have hle' : index + left ≤ getEntryCount page' := by
      rw [htouch.getEntryCount]
      omega
    rw [hloop]
    by_cases hlastBlank : Blank page.data (index + left)
    · -- zeros have been written over zeros
      obtain ⟨page'', hremove', hdata⟩ :=
        removeEntry_blank hinit (show index < index + left by omega)
        (by omega) hlastBlank
      obtain rfl : page' = page'' := by
        rw [hremove] at hremove'
        cases hremove'
        rfl
      have hfit := entryOffset_le (i := index) (by have := getEntryCount_le page; omega)
      have hsame : page'.data = page.data := hdata.trans (Image.clear_self hfit hblank)
      have hrest := ih page' index (removed + 1) damaged hinit' hle' (by rwa [hsame]) hlt (by omega)
        (by rwa [hsame]) (by rw [hsame]; exact fun j hlo hup => hbehind j hlo (by omega))
      rw [hsame] at hrest
      refine ⟨fun h => hrest.1 fun j hlo hup => h j hlo (by omega), fun j hlo hup hj => ?_⟩
      have hne : j ≠ index + left := fun he => hj (he ▸ hlastBlank)
      obtain ⟨k, hlo', hup', hk⟩ := hrest.2 j hlo (by omega) hj
      exact ⟨k, hlo', by omega, hk⟩
    · -- the last entry is lost where it was
      have hframe : Touches _ page' (removeLoop [] none left page' index (removed + 1)).2 :=
        removeLoop_frame left page' index (removed + 1) hinit' hle'
      refine ⟨fun h => absurd (h _ (by omega) (by omega)) hlastBlank, fun _ _ _ _ => ?_⟩
      exact ⟨index + left, by omega, by omega, hlastBlank, (hframe.blank (by omega)).mpr hend⟩

/-! ## The removal -/

/-- The removal of all entries with the key `key` begins at the entry `first`, the last entry can
be read, and `damaged` is the last of the entries that cannot: the call fails when it gets there, if
not before. -/
structure Interrupted (page : Page) (key : Bytes) (value : Option RecordID) (first damaged : Nat) :
    Prop where
  all : value = none
  short : key.length ≤ maxKeyLength
  init : isInitialized page = true
  before : ∀ j, j < first → ¬ Damaged page.data j ∧ (entryAt page.data j).1 ≠ key
  readable : ¬ Damaged page.data first
  found : (entryAt page.data first).1 = key
  lt : first < damaged
  broken : Damaged page.data damaged
  behind : ∀ j, damaged < j → j < getEntryCount page → ¬ Damaged page.data j
  last : damaged + 1 < getEntryCount page

/-- The removals that were made before the failure wrote zeros over zeros only. -/
def NoTrace (page : Page) (first damaged : Nat) : Prop :=
  Blank page.data first ∧ ∀ j, damaged < j → j < getEntryCount page → Blank page.data j

theorem matches_none {e : Entry} : Matches key none e ↔ e.1 = key := by
  unfold Matches
  simp

/-- A removal that is interrupted fails, and leaves a trace unless all it wrote were zeros over
zeros. -/
theorem Interrupted.removeLoop {first damaged : Nat}
    (h : Interrupted page key value first damaged) :
    (∃ e, (removeLoop key value (getEntryCount page) page 0 0).1 = .error e) ∧
      ((removeLoop key value (getEntryCount page) page 0 0).2.data = page.data ↔
        NoTrace page first damaged) := by
  obtain ⟨rfl, -, hinit, hbefore, hread, hfound, hlt, hdamaged, hbehind, hlast⟩ := h
  refine ⟨removeLoop_damaged _ page 0 0 hinit (by omega) ⟨damaged, by omega, by omega, hdamaged⟩,
    ?_⟩
  obtain ⟨left, hleft⟩ : ∃ left, getEntryCount page = first + (left + 1) :=
    ⟨getEntryCount page - first - 1, by omega⟩
  have hskip : HashIndexBucketPage.removeLoop key none (first + (left + 1)) page 0 0 =
      HashIndexBucketPage.removeLoop key none (left + 1) page (0 + first) 0 := by
    apply removeLoop_skip hinit (by omega)
    intro j _ hj
    rw [matches_none]
    exact hbefore j (by omega)
  rw [hleft, hskip, Nat.zero_add]
  obtain ⟨page', hremove, htouch, hmoved, hend, hloop⟩ := removeLoop_match 0 hinit
    (show first + (left + 1) ≤ getEntryCount page by omega) hread (matches_none.mpr hfound)
    fun _ => hbehind _ (by omega) (by omega)
  have hinit' : isInitialized page' = true := by rw [htouch.isInitialized, hinit]
  have hle' : first + left ≤ getEntryCount page' := by
    rw [htouch.getEntryCount]
    omega
  rw [hloop]
  have hframe : Touches _ page'
    (HashIndexBucketPage.removeLoop key none left page' first (0 + 1)).2 :=
    removeLoop_frame left page' first (0 + 1) hinit' hle'
  by_cases hlastBlank : Blank page.data (first + left)
  swap
  · refine iff_of_false (fun hdata => hlastBlank ?_) fun h =>
      hlastBlank (h.2 _ (by omega) (by omega))
    rw [← hdata, hframe.blank (by omega)]
    exact hend
  obtain ⟨page'', hremove', hdata⟩ := removeEntry_blank hinit (show first < first + left by omega)
    (by omega) hlastBlank
  obtain rfl : page' = page'' := by
    rw [hremove] at hremove'
    cases hremove'
    rfl
  have hfit := entryOffset_le (i := first) (by have := getEntryCount_le page; omega)
  have hfirst : Blank page'.data first := by
    rw [hdata]
    exact Image.bytes_clear_same _ hfit
  have hother : ∀ j, damaged < j → j < first + left → (Blank page'.data j ↔ Blank page.data j) :=
    fun j hlo hup => htouch.blank (by omega)
  by_cases hkey : key = []
  · subst hkey
    have hbehind' : ∀ j, damaged < j → j < first + left → ¬ Damaged page'.data j := by
      intro j hlo hup
      rw [htouch.damaged (by omega)]
      exact hbehind j hlo (by omega)
    obtain ⟨hnone, hsome⟩ :=
      removeLoop_blank left page' first (0 + 1) damaged hinit' hle' hfirst hlt
      (by omega) ((htouch.damaged (by omega)).mpr hdamaged) hbehind'
    by_cases hall : ∀ j, damaged < j → j < first + left → Blank page.data j
    · rw [hnone fun j hlo hup => (hother j hlo hup).mpr (hall j hlo hup), hdata]
      constructor
      · intro hsame
        refine ⟨?_, fun j hlo hup => ?_⟩
        · rwa [← hsame, ← hdata]
        · by_cases he : j = first + left
          · rwa [he]
          · exact hall j hlo (by omega)
      · exact fun h => Image.clear_self hfit h.1
    · refine iff_of_false (fun hsame => hall fun j hlo hup => ?_) fun h => hall fun j hlo hup =>
        h.2 j hlo (by omega)
      by_contra hj
      obtain ⟨k, hlo', hup', hk, hlost⟩ := hsome j hlo hup ((hother j hlo hup).not.mpr hj)
      rw [hsame] at hlost
      exact hk ((hother k hlo' hup').mpr hlost)
  · -- the blank entry does not match, but what it has overwritten did
    have hnot : ¬ Blank page.data first := by
      intro hblank
      rw [hblank.entryAt] at hfound
      exact hkey hfound.symm
    refine iff_of_false (fun hsame => hnot ?_) fun h => hnot h.1
    have hpass : HashIndexBucketPage.removeLoop key none (1 + (left - 1)) page' first (0 + 1) =
        HashIndexBucketPage.removeLoop key none (left - 1) page' (first + 1) (0 + 1) := by
      apply removeLoop_skip hinit' (by omega)
      intro j hlo hup
      obtain rfl : j = first := by omega
      refine ⟨hfirst.not_damaged, ?_⟩
      rw [matches_none, hfirst.entryAt]
      exact fun he => hkey he.symm
    have hrest : Touches _ page'
        (HashIndexBucketPage.removeLoop key none (left - 1) page' (first + 1) (0 + 1)).2 :=
      removeLoop_frame (left - 1) page' (first + 1) (0 + 1) hinit' (by omega)
    rw [← hpass, show 1 + (left - 1) = left by omega] at hrest
    rw [← hsame, hrest.blank (by omega)]
    exact hfirst

/-- The last damaged entry of a page, when the last entry is not damaged. -/
theorem exists_last_damaged {n j : Nat} (hj : j < n) (h : Damaged d j)
    (hlast : ¬ Damaged d (n - 1)) :
    ∃ k, j ≤ k ∧ k + 1 < n ∧ Damaged d k ∧ ∀ i, k < i → i < n → ¬ Damaged d i := by
  have hle : j ≤ n - 1 := by omega
  have hspec : Damaged d (Nat.findGreatest (Damaged d) (n - 1)) := Nat.findGreatest_spec hle h
  have hup : Nat.findGreatest (Damaged d) (n - 1) ≤ n - 1 := Nat.findGreatest_le _
  have hne : Nat.findGreatest (Damaged d) (n - 1) ≠ n - 1 := by
    intro he
    rw [he] at hspec
    exact hlast hspec
  refine ⟨_, Nat.le_findGreatest hle h, by omega, hspec, fun i hlo hi => ?_⟩
  exact Nat.findGreatest_is_greatest hlo (by omega)

/-- How the loop of a removal goes that is not interrupted: it fails or finds nothing and has not
written, or it succeeds. -/
theorem removeLoop_cases (hinit : isInitialized page = true) (hk : key.length ≤ maxKeyLength)
    (value : Option RecordID) :
    (∃ e, removeLoop key value (getEntryCount page) page 0 0 = (.error e, page)) ∨
      removeLoop key value (getEntryCount page) page 0 0 = (.ok (getEntryCount page, 0), page) ∨
      (∃ count k page', removeLoop key value (getEntryCount page) page 0 0 =
        (.ok (count, 1 + k), page')) ∨
      ∃ first damaged, Interrupted page key value first damaged := by
  by_cases hstop : ∃ j, j < getEntryCount page ∧
      (Damaged page.data j ∨ Matches key value (entryAt page.data j))
  swap
  · have hskip : removeLoop key value (getEntryCount page + 0) page 0 0 =
        removeLoop key value 0 page (0 + getEntryCount page) 0 := by
      apply removeLoop_skip hinit (by omega)
      intro j _ hj
      exact ⟨fun hd => hstop ⟨j, by omega, .inl hd⟩, fun hm => hstop ⟨j, by omega, .inr hm⟩⟩
    rw [Nat.add_zero, Nat.zero_add] at hskip
    exact .inr (.inl hskip)
  obtain ⟨first, ⟨hfirst, hwhy⟩, hbefore⟩ : ∃ first, (first < getEntryCount page ∧
      (Damaged page.data first ∨ Matches key value (entryAt page.data first))) ∧
      ∀ j, j < first → ¬ Damaged page.data j ∧ ¬ Matches key value (entryAt page.data j) := by
    refine ⟨Nat.find hstop, Nat.find_spec hstop, fun j hj => ?_⟩
    have hnot := Nat.find_min hstop hj
    have hlt := (Nat.find_spec hstop).1
    exact ⟨fun hd => hnot ⟨by omega, .inl hd⟩, fun hm => hnot ⟨by omega, .inr hm⟩⟩
  obtain ⟨left, hleft⟩ : ∃ left, getEntryCount page = first + (left + 1) :=
    ⟨getEntryCount page - first - 1, by omega⟩
  have hskip : removeLoop key value (first + (left + 1)) page 0 0 =
      removeLoop key value (left + 1) page (0 + first) 0 :=
    removeLoop_skip hinit (by omega) fun j _ hj => hbefore j (by omega)
  rw [Nat.zero_add, ← hleft] at hskip
  rw [hskip]
  by_cases hdamaged : Damaged page.data first
  · exact .inl (removeLoop_first_damaged key value 0 hinit (by omega) hdamaged)
  have hmatch := hwhy.resolve_left hdamaged
  by_cases hlast : left ≠ 0 ∧ Damaged page.data (first + left)
  · exact .inl (removeLoop_last_damaged 0 hinit (by omega) hdamaged hmatch hlast.1 hlast.2)
  cases value with
  | some v =>
    -- one entry at most is removed
    obtain ⟨page', hremove, -⟩ := removeEntry_readable hinit (show first ≤ first + left by omega)
      (by omega) fun hne hd => hlast ⟨by omega, hd⟩
    refine .inr (.inr (.inl ⟨first + left, 0, page', ?_⟩))
    rw [removeLoop, readEntry_readable hinit hfirst hdamaged]
    dsimp only
    rw [if_neg (not_not.mpr hmatch), hremove]
    rfl
  | none =>
    by_cases hall : ∀ j, first < j → j < getEntryCount page → ¬ Damaged page.data j
    · obtain ⟨page', -, htouch, hmoved, -, hloop⟩ := removeLoop_match 0 hinit
        (show first + (left + 1) ≤ getEntryCount page by omega) hdamaged hmatch
        fun h0 hd => hlast ⟨h0, hd⟩
      have hrest : ∀ j, first ≤ j → j < first + left → ¬ Damaged page'.data j := by
        intro j hlo hup
        by_cases he : j = first
        · rwa [he]
        · rw [htouch.damaged (by omega)]
          exact hall j (by omega) (by omega)
      rw [hloop]
      exact .inr (.inr (.inl (removeLoop_readable left page' first (0 + 1)
        (by rw [htouch.isInitialized, hinit]) (by rw [htouch.getEntryCount]; omega) hrest)))
    · obtain ⟨j, hj⟩ := not_forall.mp hall
      simp only [Classical.not_imp, not_not] at hj
      have hend : ¬ Damaged page.data (getEntryCount page - 1) := by
        intro hd
        rw [show getEntryCount page - 1 = first + left by omega] at hd
        exact hlast ⟨by omega, hd⟩
      obtain ⟨damaged, hlo, hup, hbroken, hbehind⟩ := exists_last_damaged hj.2.1 hj.2.2 hend
      refine .inr (.inr (.inr ⟨first, damaged, ?_⟩))
      exact {
        all := rfl
        short := hk
        init := hinit
        before := fun j hj => ⟨(hbefore j hj).1, fun he => (hbefore j hj).2 (matches_none.mpr he)⟩
        readable := hdamaged
        found := matches_none.mp hmatch
        lt := Nat.lt_of_lt_of_le hj.1 hlo
        broken := hbroken
        behind := hbehind
        last := hup }

/-- A failed removal leaves the bytes of the page alone, except when it is interrupted by a damaged
entry after it has moved or blanked an entry. -/
theorem remove_failure_iff (page : Page) (key : Bytes) (value : Option RecordID) :
    (∀ e, (remove page key value).1 = .error e → (remove page key value).2.data = page.data) ↔
      ∀ first damaged, Interrupted page key value first damaged → NoTrace page first damaged := by
  constructor
  · intro h first damaged hint
    obtain ⟨⟨e, herror⟩, hdata⟩ := hint.removeLoop
    have hremove : remove page key value =
        (.error e, (removeLoop key value (getEntryCount page) page 0 0).2) := by
      rw [remove, validateKey_ok hint.short, hint.init]
      dsimp only
      rcases hloop : removeLoop key value (getEntryCount page) page 0 0 with ⟨r, page'⟩
      rw [hloop] at herror
      dsimp only at herror
      subst herror
      rfl
    rw [hremove] at h
    exact hdata.mp (h e rfl)
  · intro h e
    unfold remove
    split
    · exact fun _ => rfl
    · rename_i hvalid
      have hk : key.length ≤ maxKeyLength := by
        unfold validateKey at hvalid
        split at hvalid
        · cases hvalid
        · omega
      cases hinit : isInitialized page with
      | false => exact fun _ => rfl
      | true =>
        rw [if_neg (by decide)]
        rcases removeLoop_cases hinit hk value with ⟨e', hloop⟩ | hloop | ⟨count, k, page', hloop⟩ |
          ⟨first, damaged, hint⟩
        · rw [hloop]
          exact fun _ => rfl
        · rw [hloop]
          exact fun _ => rfl
        · rw [hloop]
          dsimp only
          rw [if_neg (by omega)]
          nofun
        · obtain ⟨⟨e', herror⟩, hdata⟩ := hint.removeLoop
          have hsame := hdata.mpr (h first damaged hint)
          rcases hloop : removeLoop key value (getEntryCount page) page 0 0 with ⟨r, page'⟩
          rw [hloop] at herror hsame
          dsimp only at herror
          subst herror
          exact fun _ => hsame

/-- A bucket page with entries for "a", "b" and "c", of which the second has the key length 65. -/
def damagedPage : Page :=
  let page := (init { pageId := 2 }).2
  let page := (insert page [97] ⟨3, 0⟩).2
  let page := (insert page [98] ⟨3, 1⟩).2
  let page := (insert page [99] ⟨3, 2⟩).2
  { page with data := page.data.writeNat (entryOffset 1) 2 65 }

/-- The removal of "a" fails on it and has lost the entry, although the page counts three. -/
theorem remove_damagedPage :
    ∃ e, (remove damagedPage [97] none).1 = .error e ∧
      (remove damagedPage [97] none).2.data ≠ damagedPage.data ∧
      getEntryCount (remove damagedPage [97] none).2 = 3 ∧
      entryAt (remove damagedPage [97] none).2.data 0 = ([99], ⟨3, 2⟩) ∧
      Blank (remove damagedPage [97] none).2.data 2 := by
  refine ⟨.ioError "Corrupted hash bucket key length", by decide +kernel, fun he => ?_,
    by decide +kernel, by decide +kernel, by unfold Blank; decide +kernel⟩
  have hkey : (remove damagedPage [97] none).2.data.get (entryOffset 0 + 4) = 99 := by
    decide +kernel
  rw [he] at hkey
  exact absurd hkey (by decide +kernel)

end HashIndexBucketPage

end MiniDbms
