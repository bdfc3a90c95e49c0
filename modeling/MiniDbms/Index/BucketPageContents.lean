import MiniDbms.Index.BucketPage

/-!
# What a bucket page holds

`Stores d overflow count entries`: the image `d` is an initialised bucket page with the link
`overflow` and the entry count `count`, whose first entries are `entries`. Between two
operations the count is the number of entries; the loop of `remove` works below it.

* `insert_absent`: a pair that is not there is written after the others;
* `getValue_stores`: the values of a key;
* `remove_stores`: exactly the matching entries go, in whatever order the others end up.
-/

namespace MiniDbms

open Lib

namespace HashIndexBucketPage

/-- The entry `i` of the page. -/
structure EntryHolds (d : PageData) (i : Nat) (e : Entry) : Prop where
  short : e.1.length ≤ maxKeyLength
  length : d.readNat (entryOffset i) 2 = e.1.length
  key : d.bytes (entryOffset i + 4) e.1.length = e.1
  pageId : PageData.readPageId d (entryOffset i + 68) = e.2.pageId
  slotId : d.readNat (entryOffset i + 72) 2 = e.2.slotId.toNat

/-- The image of an initialised bucket page. -/
structure Stores (d : PageData) (overflow : PageId) (count : Nat) (entries : List Entry) :
    Prop where
  magic : d.readNat 0 4 = magic
  capacity : d.readNat 6 2 = entryCapacity
  entryCount : d.readNat 4 2 = count
  link : PageData.readPageId d 8 = overflow
  le : entries.length ≤ count
  bound : count ≤ entryCapacity
  entry : ∀ i e, entries[i]? = some e → EntryHolds d i e

theorem EntryHolds.congr {d d' : PageData} {i : Nat} {e : Entry} (h : EntryHolds d i e)
    (hsame : d'.bytes (entryOffset i) 76 = d.bytes (entryOffset i) 76) : EntryHolds d' i e := by
  have hshort : e.1.length ≤ 64 := h.short
  have hsub : ∀ {off len : Nat}, entryOffset i ≤ off → off + len ≤ entryOffset i + 76 →
      d'.bytes off len = d.bytes off len := fun hlo hup => Image.bytes_sub hsame hlo hup
  exact {
    short := h.short
    length := (Image.readNat_congr (hsub (by omega) (by omega))).trans h.length
    key := (hsub (by omega) (by omega)).trans h.key
    pageId := (PageData.readPageId_congr (Image.readNat_congr (hsub (by omega) (by omega)))).trans
      h.pageId
    slotId := (Image.readNat_congr (hsub (by omega) (by omega))).trans h.slotId }

section

variable {d : PageData} {overflow : PageId} {count : Nat} {entries : List Entry} {page : Page}
  {key : Bytes} {value : RecordID} {e : Entry} {i : Nat}

/-! ## Reading -/

theorem Stores.isInitialized (h : Stores page.data overflow count entries) :
    isInitialized page = true := by
  simp only [HashIndexBucketPage.isInitialized, decide_eq_true_eq]
  exact ⟨h.magic, h.capacity, by rw [h.entryCount]; exact h.bound⟩

theorem Stores.getEntryCount (h : Stores page.data overflow count entries) :
    getEntryCount page = count := by
  rw [HashIndexBucketPage.getEntryCount, if_pos h.isInitialized, h.entryCount]

theorem Stores.getOverflowPageId (h : Stores page.data overflow count entries) :
    getOverflowPageId page = overflow := by
  rw [HashIndexBucketPage.getOverflowPageId, if_pos h.isInitialized, h.link]

/-- An image that agrees on the header and on the entries holds the same. -/
theorem Stores.congr {d' : PageData} (h : Stores d overflow count entries)
    (hhead : d'.bytes 0 12 = d.bytes 0 12)
    (hsame : ∀ i, i < entries.length → d'.bytes (entryOffset i) 76 = d.bytes (entryOffset i) 76) :
    Stores d' overflow count entries := by
  have hsub : ∀ {off len : Nat}, off + len ≤ 12 → d'.bytes off len = d.bytes off len :=
    fun hup => Image.bytes_sub hhead (Nat.zero_le _) (by omega)
  exact {
    magic := (Image.readNat_congr (hsub (by omega))).trans h.magic
    capacity := (Image.readNat_congr (hsub (by omega))).trans h.capacity
    entryCount := (Image.readNat_congr (hsub (by omega))).trans h.entryCount
    link := (PageData.readPageId_congr (Image.readNat_congr (hsub (by omega)))).trans h.link
    le := h.le
    bound := h.bound
    entry := fun i e hi => (h.entry i e hi).congr (hsame i (List.getElem?_eq_some_iff.mp hi).1) }

theorem Stores.sub {entries' : List Entry} (h : Stores d overflow count (entries ++ entries')) :
    Stores d overflow count entries where
  magic := h.magic
  capacity := h.capacity
  entryCount := h.entryCount
  link := h.link
  le := by
    have := h.le
    rw [List.length_append] at this
    omega
  bound := h.bound
  entry i e hi := by
    apply h.entry
    rw [List.getElem?_append_left (List.getElem?_eq_some_iff.mp hi).1, hi]

theorem Stores.readEntry (h : Stores page.data overflow count entries) (hi : entries[i]? = some e) :
    readEntry page i = .ok e := by
  obtain ⟨hshort, hlen, hkey, hpage, hslot⟩ := h.entry i e hi
  have hlt : i < entries.length := (List.getElem?_eq_some_iff.mp hi).1
  have hle := h.le
  unfold HashIndexBucketPage.readEntry
  rw [if_neg]
  · simp only [hlen, hkey, hpage, hslot]
    rw [if_neg (by omega), UInt16.ofNat_toNat]
  · rw [h.isInitialized, h.getEntryCount]
    simp only [Bool.true_eq_false, false_or]
    omega

/-- The search for a pair, over the entries that are left. -/
theorem findPair_stores (rest : List Entry) :
    ∀ pre, Stores page.data overflow count (pre ++ rest) →
      findPair page key value rest.length pre.length = .ok (decide ((key, value) ∈ rest)) := by
  induction rest with
  | nil =>
    intro pre _
    simp [findPair]
  | cons e rest ih =>
    intro pre h
    have hread : HashIndexBucketPage.readEntry page pre.length = .ok e := h.readEntry (by simp)
    have hrest := ih (pre ++ [e]) (by rwa [← List.append_cons])
    rw [List.length_append, List.length_singleton] at hrest
    obtain ⟨existingKey, existingValue⟩ := e
    rw [List.length_cons, findPair, hread]
    dsimp only
    rw [hrest]
    split
    · rename_i he
      obtain ⟨rfl, rfl⟩ := he
      simp
    · rename_i hne
      have hmem : (key, value) ∈ (existingKey, existingValue) :: rest ↔ (key, value) ∈ rest := by
        rw [List.mem_cons, or_iff_right]
        rintro he
        cases he
        exact hne ⟨rfl, rfl⟩
      simp only [hmem]

/-- The values of a key, over the entries that are left. -/
theorem collectValues_stores (rest : List Entry) :
    ∀ pre, Stores page.data overflow count (pre ++ rest) →
      collectValues page key rest.length pre.length =
        .ok ((rest.filter fun e => e.1 = key).map Prod.snd) := by
  induction rest with
  | nil =>
    intro pre _
    rfl
  | cons e rest ih =>
    intro pre h
    have hread : HashIndexBucketPage.readEntry page pre.length = .ok e := h.readEntry (by simp)
    have hrest := ih (pre ++ [e]) (by rwa [← List.append_cons])
    rw [List.length_append, List.length_singleton] at hrest
    obtain ⟨existingKey, existingValue⟩ := e
    rw [List.length_cons, collectValues, hread]
    dsimp only
    rw [hrest]
    by_cases he : existingKey = key <;> simp [he]

/-- The values of a key in a page, or `NOT_FOUND` if there are none. -/
theorem getValue_stores (h : Stores page.data overflow entries.length entries)
    (hk : key.length ≤ maxKeyLength) :
    getValue page key = .ok ((entries.filter fun e => e.1 = key).map Prod.snd) ∨
      ((entries.filter fun e => e.1 = key) = [] ∧
        ∃ e, getValue page key = .error e ∧ e.code = .notFound) := by
  have hcollect : collectValues page key entries.length 0 =
      .ok ((entries.filter fun e => e.1 = key).map Prod.snd) := collectValues_stores entries [] h
  unfold getValue
  rw [validateKey_ok hk, h.isInitialized, h.getEntryCount]
  dsimp only
  rw [hcollect]
  cases hv : entries.filter fun e => e.1 = key with
  | nil => exact .inr ⟨rfl, _, rfl, rfl⟩
  | cons e rest => exact .inl rfl

/-! ## Writing -/

theorem entryOffset_le (hi : i < entryCapacity) : entryOffset i + 76 ≤ 4096 := by
  unfold entryCapacity at hi
  unfold entryOffset
  omega

/-- A written entry is held, and nothing else of the page is changed. -/
theorem writeEntry_stores (h : Stores page.data overflow count entries) (hi : i < entryCapacity)
    (hk : key.length ≤ maxKeyLength) (value : RecordID) :
    ∃ d, writeEntry page i key value = (.ok (), { page with data := d, isDirty := true }) ∧
      EntryHolds d i (key, value) ∧
      ∀ {off len : Nat}, off + len ≤ entryOffset i ∨ entryOffset i + 76 ≤ off →
        d.bytes off len = page.data.bytes off len := by
  have hfit := entryOffset_le hi
  have hkey : key.length ≤ 64 := hk
  unfold writeEntry
  rw [validateKey_ok hk, h.isInitialized]
  dsimp only
  rw [if_neg (by simp only [Bool.true_eq_false, false_or]; omega)]
  refine ⟨_, rfl, ?_, fun hd => ?_⟩
  · unfold PageData.writePageId
    refine ⟨hk, ?_, ?_, ?_, ?_⟩
    · rw [Image.readNat_writeNat_of_disjoint _ (by rw [pageSize_eq]; omega) (by omega),
        Image.readNat_writeNat_of_disjoint _ (by rw [pageSize_eq]; omega) (by omega),
        Image.readNat_splice_of_disjoint _ (by rw [pageSize_eq]; omega) (by omega),
        Image.readNat_writeNat_same _ (by rw [pageSize_eq]; omega), Nat.mod_eq_of_lt (by omega)]
    · dsimp only
      rw [Image.bytes_writeNat_of_disjoint _ (by rw [pageSize_eq]; omega) (by omega),
        Image.bytes_writeNat_of_disjoint _ (by rw [pageSize_eq]; omega) (by omega),
        Image.bytes_splice_same _ (by rw [pageSize_eq]; omega)]
    · refine (PageData.readPageId_congr (Image.readNat_writeNat_of_disjoint _
        (by rw [pageSize_eq]; omega) (by omega))).trans ?_
      exact PageData.readPageId_writePageId_same _ _ (by rw [pageSize_eq]; omega)
    · rw [Image.readNat_writeNat_same _ (by rw [pageSize_eq]; omega)]
      exact Nat.mod_eq_of_lt value.slotId.toNat_lt
  · unfold PageData.writePageId
    rw [Image.bytes_writeNat_of_disjoint _ (by rw [pageSize_eq]; omega) (by omega),
      Image.bytes_writeNat_of_disjoint _ (by rw [pageSize_eq]; omega) (by omega),
      Image.bytes_splice_of_disjoint _ (by rw [pageSize_eq]; omega) (by omega),
      Image.bytes_writeNat_of_disjoint _ (by rw [pageSize_eq]; omega) (by omega),
      Image.bytes_clear_of_disjoint _ (by rw [pageSize_eq]; omega) (by omega)]

/-- Writing the entry count. -/
theorem Stores.setCount (h : Stores d overflow count entries) {n : Nat} (hle : entries.length ≤ n)
    (hn : n ≤ entryCapacity) : Stores (d.writeNat 4 2 n) overflow n entries := by
  have hlt : n < 65536 := Nat.lt_of_le_of_lt hn (by decide)
  have hdis : ∀ {off len : Nat}, off + len ≤ 4 ∨ 6 ≤ off →
      (d.writeNat 4 2 n).bytes off len = d.bytes off len := fun hd =>
    Image.bytes_writeNat_of_disjoint _ (by decide) (by omega)
  refine ⟨?_, ?_, ?_, ?_, hle, hn, fun i e hi => (h.entry i e hi).congr (hdis ?_)⟩
  · exact (Image.readNat_congr (hdis (by omega))).trans h.magic
  · exact (Image.readNat_congr (hdis (by omega))).trans h.capacity
  · rw [Image.readNat_writeNat_same _ (by decide)]
    exact Nat.mod_eq_of_lt hlt
  · exact (PageData.readPageId_congr (Image.readNat_congr (hdis (by omega)))).trans h.link
  · unfold entryOffset
    omega

/-- A page with one more entry written behind its entries. -/
theorem Stores.snoc {d' : PageData} (h : Stores d overflow entries.length entries)
    (hlt : entries.length < entryCapacity) (he : EntryHolds d' entries.length e)
    (hsame : ∀ {off len : Nat}, off + len ≤ entryOffset entries.length ∨
      entryOffset entries.length + 76 ≤ off → d'.bytes off len = d.bytes off len) :
    Stores (d'.writeNat 4 2 (entries.length + 1)) overflow (entries ++ [e]).length
      (entries ++ [e]) := by
  have hd' : Stores d' overflow entries.length entries := by
    apply h.congr
    · exact hsame (.inl (by unfold entryOffset; omega))
    · intro i hi
      exact hsame (.inl (by unfold entryOffset; omega))
  have hcount := hd'.setCount (show entries.length ≤ entries.length + 1 by omega) (by omega)
  rw [List.length_append, List.length_singleton]
  refine { hcount with le := by simp, entry := fun i x hi => ?_ }
  rcases Nat.lt_or_ge i entries.length with hlt | hge
  · rw [List.getElem?_append_left hlt] at hi
    exact hcount.entry i x hi
  · have hlen := (List.getElem?_eq_some_iff.mp hi).1
    rw [List.length_append, List.length_singleton] at hlen
    obtain rfl : i = entries.length := by omega
    rw [List.getElem?_append_right (le_refl _), Nat.sub_self] at hi
    cases hi
    apply he.congr
    exact Image.bytes_writeNat_of_disjoint _ (by decide) (by unfold entryOffset; omega)

theorem init_stores (page : Page) (hid : page.pageId ≠ invalidPageId) :
    ∃ d, init page = (.ok (), { page with data := d, isDirty := true }) ∧
      Stores d invalidPageId 0 [] := by
  unfold init
  rw [if_neg hid]
  refine ⟨_, rfl, ⟨?_, ?_, ?_, ?_, le_refl _, by decide, nofun⟩⟩
  · unfold PageData.writePageId
    rw [Image.readNat_writeNat_of_disjoint _ (by decide) (by decide),
      Image.readNat_writeNat_of_disjoint _ (by decide) (by decide),
      Image.readNat_writeNat_of_disjoint _ (by decide) (by decide),
      Image.readNat_writeNat_of_disjoint _ (by decide) (by decide),
      Image.readNat_writeNat_same _ (by decide)]
    rfl
  · unfold PageData.writePageId
    rw [Image.readNat_writeNat_of_disjoint _ (by decide) (by decide),
      Image.readNat_writeNat_of_disjoint _ (by decide) (by decide),
      Image.readNat_writeNat_same _ (by decide)]
    rfl
  · unfold PageData.writePageId
    rw [Image.readNat_writeNat_of_disjoint _ (by decide) (by decide),
      Image.readNat_writeNat_of_disjoint _ (by decide) (by decide),
      Image.readNat_writeNat_of_disjoint _ (by decide) (by decide),
      Image.readNat_writeNat_same _ (by decide)]
    rfl
  · refine (PageData.readPageId_congr
      (Image.readNat_writeNat_of_disjoint _ (by decide) (by decide))).trans ?_
    exact PageData.readPageId_writePageId_same _ _ (by decide)

theorem setOverflowPageId_stores {next : PageId} (h : Stores page.data overflow count entries)
    (hpos : 0 < next.toInt) :
    ∃ d, setOverflowPageId page next = (.ok (), { page with data := d, isDirty := true }) ∧
      Stores d next count entries := by
  have hcond : ¬ (next = 0 ∨ next.toInt < invalidPageId.toInt) := by
    rw [toInt_invalidPageId]
    rintro (rfl | hlt)
    · exact absurd hpos (by decide)
    · omega
  refine ⟨_, by rw [setOverflowPageId, h.isInitialized, if_neg (by decide), if_neg hcond], ?_⟩
  have hdis : ∀ {off len : Nat}, off + len ≤ 8 ∨ 12 ≤ off →
      (PageData.writePageId page.data 8 next).bytes off len = page.data.bytes off len := fun hd =>
    Image.bytes_writeNat_of_disjoint _ (by decide) (by omega)
  refine ⟨?_, ?_, ?_, PageData.readPageId_writePageId_same _ _ (by decide), h.le, h.bound,
    fun i e hi => (h.entry i e hi).congr (hdis ?_)⟩
  · exact (Image.readNat_congr (hdis (by omega))).trans h.magic
  · exact (Image.readNat_congr (hdis (by omega))).trans h.capacity
  · exact (Image.readNat_congr (hdis (by omega))).trans h.entryCount
  · unfold entryOffset
    omega

/-- A new pair is written behind the entries. -/
theorem insert_absent (h : Stores page.data overflow entries.length entries)
    (hk : key.length ≤ maxKeyLength) (hv : 0 < value.pageId.toInt) (hnot : (key, value) ∉ entries)
    (hroom : entries.length < entryCapacity) :
    ∃ d, insert page key value = (.ok true, { page with data := d, isDirty := true }) ∧
      Stores d overflow (entries ++ [(key, value)]).length (entries ++ [(key, value)]) := by
  have hfind : findPair page key value entries.length 0 = .ok (decide ((key, value) ∈ entries)) :=
    findPair_stores entries [] h
  obtain ⟨d, hwrite, hd, hsame⟩ := writeEntry_stores h hroom hk value
  refine ⟨d.writeNat 4 2 (entries.length + 1), ?_, h.snoc hroom hd hsame⟩
  unfold insert
  rw [validateKey_ok hk, h.isInitialized, h.getEntryCount]
  dsimp only
  rw [if_neg (by decide), if_neg (by omega)]
  rw [hfind, decide_eq_false hnot]
  dsimp only
  rw [if_neg (by omega), hwrite]

/-! ## Removal -/

theorem clearEntry_bytes (hi : i < entryCapacity) {off len : Nat}
    (hd : off + len ≤ entryOffset i ∨ entryOffset i + 76 ≤ off) :
    (clearEntry page i).data.bytes off len = page.data.bytes off len := by
  have hfit := entryOffset_le hi
  rw [clearEntry, if_neg (by omega)]
  exact Image.bytes_clear_of_disjoint _ (show _ ≤ 4096 by omega) hd

/-- The last entry of a page is removed. -/
theorem removeEntry_last {pre : List Entry} {page : Page}
    (h : Stores page.data overflow count (pre ++ [e])) :
    ∃ page', removeEntry page pre.length pre.length = (.ok (), page') ∧ page'.isDirty = true ∧
      Stores page'.data overflow count pre := by
  have hbound := Nat.le_trans h.le h.bound
  simp only [List.length_append, List.length_cons, List.length_nil] at hbound
  have hlt : pre.length < entryCapacity := by omega
  refine ⟨clearEntry page pre.length, by rw [removeEntry, if_pos rfl], ?_, ?_⟩
  · rw [clearEntry, if_neg (by omega)]
  · apply h.sub.congr
    · exact clearEntry_bytes hlt (.inl (by unfold entryOffset; omega))
    · intro i hi
      exact clearEntry_bytes hlt (.inl (by unfold entryOffset; omega))

/-- An entry that is not the last one is removed: the last entry takes its place. -/
theorem removeEntry_inner {pre tail : List Entry} {last : Entry} {page : Page}
    (h : Stores page.data overflow count (pre ++ e :: (tail ++ [last]))) :
    ∃ page', removeEntry page pre.length (pre.length + (tail.length + 1)) = (.ok (), page') ∧
      page'.isDirty = true ∧ Stores page'.data overflow count (pre ++ last :: tail) := by
  have hbound := Nat.le_trans h.le h.bound
  simp only [List.length_append, List.length_cons, List.length_nil] at hbound
  have hget : (pre ++ e :: (tail ++ [last]))[pre.length + (tail.length + 1)]? = some last := by
    rw [List.getElem?_append_right (by omega), Nat.add_sub_cancel_left, List.getElem?_cons_succ,
      List.getElem?_append_right (le_refl _), Nat.sub_self]
    rfl
  have hread := h.readEntry hget
  have hshort := (h.entry _ _ hget).short
  obtain ⟨lastKey, lastValue⟩ := last
  obtain ⟨d, hwrite, hd, hsame⟩ := writeEntry_stores h
    (show pre.length < entryCapacity by omega) hshort lastValue
  set page₁ : Page := { page with data := d, isDirty := true } with hpage₁
  have hlast : pre.length + (tail.length + 1) < entryCapacity := by omega
  have hclear : ∀ {off len : Nat}, off + len ≤ entryOffset (pre.length + (tail.length + 1)) →
      (clearEntry page₁ (pre.length + (tail.length + 1))).data.bytes off len = d.bytes off len :=
    fun hd => clearEntry_bytes hlast (.inl hd)
  refine ⟨clearEntry page₁ (pre.length + (tail.length + 1)), ?_, ?_, ?_⟩
  · rw [removeEntry, if_neg (by omega), hread]
    dsimp only
    rw [hwrite]
  · rw [clearEntry, if_neg (by omega)]
  have hold : Stores (clearEntry page₁ (pre.length + (tail.length + 1))).data overflow
      count [] := by
    have hempty : Stores page.data overflow count ([] : List Entry) :=
      Stores.sub (show Stores _ _ _ ([] ++ (pre ++ e :: (tail ++ [(lastKey, lastValue)]))) from h)
    apply hempty.congr
    · rw [hclear (by unfold entryOffset; omega), hsame (.inl (by unfold entryOffset; omega))]
    · nofun
  refine { hold with le := ?_, entry := fun i x hi => ?_ }
  · have := h.le
    simp only [List.length_append, List.length_cons, List.length_nil] at this ⊢
    omega
  have hlt := (List.getElem?_eq_some_iff.mp hi).1
  simp only [List.length_append, List.length_cons] at hlt
  -- the entries before and after the removed one are where they were
  have hother : (pre ++ e :: (tail ++ [(lastKey, lastValue)]))[i]? = some x → i ≠ pre.length →
      EntryHolds (clearEntry page₁ (pre.length + (tail.length + 1))).data i x := by
    intro hx hne
    apply (h.entry i x hx).congr
    rw [hclear (by unfold entryOffset; omega), hsame (by unfold entryOffset; omega)]
  rcases Nat.lt_trichotomy i pre.length with hlo | rfl | hhi
  · apply hother _ (by omega)
    rw [List.getElem?_append_left hlo] at hi ⊢
    exact hi
  · rw [List.getElem?_append_right (le_refl _), Nat.sub_self] at hi
    cases hi
    exact hd.congr (hclear (by unfold entryOffset; omega))
  · apply hother _ (by omega)
    rw [List.getElem?_append_right (by omega)] at hi ⊢
    obtain ⟨k, hk⟩ := Nat.exists_eq_succ_of_ne_zero (show i - pre.length ≠ 0 by omega)
    rw [hk, List.getElem?_cons_succ] at hi ⊢
    rw [List.getElem?_append_left (by omega), hi]

/-- An entry of the page is removed; the others stay, in some order. -/
theorem removeEntry_stores {pre tail : List Entry} {page : Page}
    (h : Stores page.data overflow count (pre ++ e :: tail)) :
    ∃ page' tail', removeEntry page pre.length (pre.length + tail.length) = (.ok (), page') ∧
      page'.isDirty = true ∧ tail'.Perm tail ∧ Stores page'.data overflow count (pre ++ tail') := by
  rcases List.eq_nil_or_concat tail with rfl | ⟨tail, last, rfl⟩
  · obtain ⟨page', hr, hdirty, hst⟩ := removeEntry_last h
    exact ⟨page', [], hr, hdirty, .refl _, by rwa [List.append_nil]⟩
  · rw [List.concat_eq_append] at h ⊢
    obtain ⟨page', hr, hdirty, hst⟩ := removeEntry_inner h
    refine ⟨page', last :: tail, ?_, hdirty, ?_, hst⟩
    · rw [List.length_append, List.length_singleton]
      exact hr
    · exact (List.perm_append_singleton last tail).symm

/-- What the loop of `remove` leaves of the entries `rest` behind `pre`: the entries, the number of
entries removed and the page. -/
structure Removes (key : Bytes) (value : Option RecordID) (overflow : PageId) (count : Nat)
    (page : Page) (pre rest entries' : List Entry) (removed : Nat) (page' : Page) : Prop where
  perm : entries'.Perm (pre ++ rest.filter fun e => ¬ Matches key value e)
  stores : Stores page'.data overflow count entries'
  none : removed = 0 → page' = page ∧ ∀ e ∈ rest, ¬ Matches key value e
  some : removed ≠ 0 → page'.isDirty = true ∧ ∃ e ∈ rest, Matches key value e

theorem removeLoop_stores (value : Option RecordID) (n : Nat) :
    ∀ (page : Page) (pre rest : List Entry) (removed : Nat), rest.length = n →
      Stores page.data overflow count (pre ++ rest) → rest.Nodup →
      ∃ entries' k page', removeLoop key value n page pre.length removed =
          (.ok (entries'.length, removed + k), page') ∧
        Removes key value overflow count page pre rest entries' k page' := by
  induction n with
  | zero =>
    intro page pre rest removed hlen h hn
    cases List.length_eq_zero_iff.mp hlen
    rw [List.append_nil] at h
    exact ⟨pre, 0, page, rfl, by simp, h, fun _ => ⟨rfl, nofun⟩, fun h0 => absurd rfl h0⟩
  | succ n ih =>
    intro page pre rest removed hlen h hn
    obtain ⟨e, tail, rfl⟩ : ∃ e tail, rest = e :: tail := List.exists_cons_of_length_eq_add_one hlen
    rw [List.length_cons, Nat.add_right_cancel_iff] at hlen
    subst hlen
    have hread : HashIndexBucketPage.readEntry page pre.length = .ok e := h.readEntry (by simp)
    obtain ⟨hnot, hntail⟩ := List.nodup_cons.mp hn
    rw [removeLoop, hread]
    dsimp only
    by_cases hm : Matches key value e
    · obtain ⟨page₁, tail', hr, hdirty, hperm, hst⟩ := removeEntry_stores h
      rw [if_neg (not_not.mpr hm), hr]
      dsimp only
      have hfilter : ((e :: tail).filter fun e => ¬ Matches key value e) =
          tail.filter fun e => ¬ Matches key value e := by
        rw [List.filter_cons_of_neg (by simpa using hm)]
      cases value with
      | some v =>
        -- a pair occurs once, so the rest of the entries stays
        have hrest : (tail.filter fun e => ¬ Matches key (some v) e) = tail := by
          rw [List.filter_eq_self]
          intro x hx
          have hne : ¬ Matches key (some v) x := by
            intro hmx
            apply hnot
            have he : e = x := Prod.ext (hm.1.trans hmx.1.symm)
              ((hm.2 v rfl).trans (hmx.2 v rfl).symm)
            rwa [he]
          simpa using hne
        refine ⟨pre ++ tail', 1, page₁, ?_, ?_, hst, nofun, fun _ =>
          ⟨hdirty, e, List.mem_cons_self, hm⟩⟩
        · rw [List.length_append, hperm.length_eq]
          rfl
        · rw [hfilter, hrest]
          exact hperm.append_left pre
      | none =>
        obtain ⟨entries', k, page', hloop, hrem⟩ :=
          ih page₁ pre tail' (removed + 1) hperm.length_eq hst
          (hperm.nodup_iff.mpr hntail)
        refine ⟨entries', k + 1, page', ?_, ?_, hrem.stores, nofun, fun _ =>
          ⟨?_, e, List.mem_cons_self, hm⟩⟩
        · rw [← Nat.add_assoc, Nat.add_right_comm]
          exact hloop
        · rw [hfilter]
          exact hrem.perm.trans ((hperm.filter _).append_left pre)
        · by_cases hk : k = 0
          · rw [(hrem.none hk).1, hdirty]
          · exact (hrem.some hk).1
    · rw [if_pos hm]
      obtain ⟨entries', k, page', hloop, hrem⟩ := ih page (pre ++ [e]) tail removed rfl
        (by rwa [← List.append_cons]) hntail
      rw [List.length_append, List.length_singleton] at hloop
      refine ⟨entries', k, page', hloop, ?_, hrem.stores, fun hk => ?_, fun hk => ?_⟩
      · rw [List.filter_cons_of_pos (by simpa using hm), List.append_cons]
        exact hrem.perm
      · refine ⟨(hrem.none hk).1, fun x hx => ?_⟩
        rcases List.mem_cons.mp hx with rfl | hx
        · exact hm
        · exact (hrem.none hk).2 x hx
      · obtain ⟨hdirty, x, hx, hmx⟩ := hrem.some hk
        exact ⟨hdirty, x, List.mem_cons_of_mem _ hx, hmx⟩

/-- `remove` takes out exactly the matching entries, or says `NOT_FOUND` and changes nothing. -/
theorem remove_stores (h : Stores page.data overflow entries.length entries) (hn : entries.Nodup)
    (hk : key.length ≤ maxKeyLength) (value : Option RecordID) :
    (∃ removed page' entries', remove page key value = (.ok removed, page') ∧ removed ≠ 0 ∧
      page'.isDirty = true ∧ (∃ e ∈ entries, Matches key value e) ∧
      entries'.Perm (entries.filter fun e => ¬ Matches key value e) ∧
      Stores page'.data overflow entries'.length entries') ∨
    ((∀ e ∈ entries, ¬ Matches key value e) ∧
      ∃ e, remove page key value = (.error e, page) ∧ e.code = .notFound) := by
  obtain ⟨entries', k, page', hloop, hrem⟩ := removeLoop_stores value _ page [] entries 0 rfl h hn
  rw [List.length_nil, Nat.zero_add] at hloop
  have hremove : remove page key value =
      if k = 0 then (.error (.notFound "Hash key/RID entry was not found"), page')
      else (.ok k,
        { page' with data := page'.data.writeNat 4 2 entries'.length, isDirty := true }) := by
    unfold remove
    rw [validateKey_ok hk, h.isInitialized, h.getEntryCount]
    dsimp only
    rw [if_neg (by decide), hloop]
  have hperm := hrem.perm
  rw [List.nil_append] at hperm
  by_cases hk : k = 0
  · obtain ⟨rfl, hnone⟩ := hrem.none hk
    rw [hremove, if_pos hk]
    exact .inr ⟨hnone, _, rfl, rfl⟩
  · obtain ⟨-, hsome⟩ := hrem.some hk
    rw [hremove, if_neg hk]
    have hle : entries'.length ≤ entries.length := by
      rw [hperm.length_eq]
      exact List.length_filter_le _ _
    exact .inl ⟨k, _, entries', rfl, hk, rfl, hsome, hperm,
      hrem.stores.setCount (le_refl _) (Nat.le_trans hle h.bound)⟩

end

end HashIndexBucketPage

end MiniDbms
