import MiniDbms.Database.Contents
import MiniDbms.Storage.TableStorage

/-!
# The keys of one record

`KeysAre s c c' rid o`: in each index, `c'` has the pairs of `c` for the other records, and for the
record `rid` the key `o` gives, if any. The loops of `TableStorage` over the indexes of a table
change `o` at one index after the other (`assign`), and their rollbacks change it back:
`insertKeys_runs`, `applyChanges_runs`, `rollbackChanges_runs`, `removeKeys_runs`.
-/

namespace MiniDbms

open Lib PagedProgram Program HashIndex

namespace TableStorage

/-- The pairs for `rid` are those of `o`, the others are those of `c`. -/
def KeysAre (s : Parts) (c c' : Contents) (rid : RecordID) (o : PageId → Option Bytes) : Prop :=
  ∀ x, s.indexes x → ∀ e, e ∈ (c'.buckets x).pairs ↔
    if e.2 = rid then o x = some e.1 else e ∈ (c.buckets x).pairs

/-- `o` with new keys for some indexes, one after the other. -/
def assign (o : PageId → Option Bytes) (l : List (PageId × Option Bytes)) : PageId → Option Bytes :=
  l.foldl (fun o e => Function.update o e.1 e.2) o

section

variable {o : PageId → Option Bytes} {l : List (PageId × Option Bytes)} {x : PageId}

@[simp] theorem assign_nil : assign o [] = o := rfl

@[simp] theorem assign_cons (e : PageId × Option Bytes) :
    assign o (e :: l) = assign (Function.update o e.1 e.2) l := rfl

theorem assign_of_notMem (h : x ∉ l.map Prod.fst) : assign o l x = o x := by
  induction l generalizing o with
  | nil => rfl
  | cons e l ih =>
    rw [List.map_cons, List.mem_cons, not_or] at h
    rw [assign_cons, ih h.2, Function.update_of_ne h.1]

theorem assign_of_mem {e : PageId × Option Bytes} (hn : (l.map Prod.fst).Nodup) (h : e ∈ l) :
    assign o l e.1 = e.2 := by
  induction l generalizing o with
  | nil => cases h
  | cons y l ih =>
    obtain ⟨hnot, hn'⟩ := List.nodup_cons.mp hn
    rw [assign_cons]
    rcases List.mem_cons.mp h with rfl | h
    · rw [assign_of_notMem hnot, Function.update_self]
    · exact ih hn' h

end

/-- An operation on the bucket of `key` in the index `x`. -/
structure IndexStep (c : Contents) (x : PageId) (key : Bytes) (c' : Contents) : Prop where
  chain : c'.chain = c.chain
  others : ∀ y, y ≠ x → c'.buckets y = c.buckets y
  count : (c'.buckets x).count = (c.buckets x).count
  space : ∀ other, bucketOf (c.buckets x).count other ≠ bucketOf (c.buckets x).count key →
    HasSpace (c.buckets x) other → HasSpace (c'.buckets x) other

section

variable {ext : PageId → Nat} {h : Pages} {s : Parts} {c c' : Contents} {rid : RecordID}
  {o o' : PageId → Option Bytes} {x : PageId} {key : Bytes}

theorem indexStep_setBuckets {h' : Pages} {b : Buckets}
    (hc : HashIndex.Changes h x (c.buckets x) (bucketOf (c.buckets x).count key) h' b) :
    IndexStep c x key (c.setBuckets x b) where
  chain := rfl
  others _ hy := Contents.buckets_setBuckets_of_ne hy
  count := by rw [Contents.buckets_setBuckets_self, hc.count]
  space other hne hs := by
    rw [Contents.buckets_setBuckets_self]
    exact hc.hasSpace hne hs

/-- The pairs after a change of the key of `rid` in one index. -/
theorem KeysAre.update {b : Buckets} {k : Option Bytes} (hk : KeysAre s c c' rid o)
    (hb : ∀ e, e ∈ b.pairs ↔ if e.2 = rid then k = some e.1 else e ∈ (c'.buckets x).pairs) :
    KeysAre s c (c'.setBuckets x b) rid (Function.update o x k) := by
  intro y hy e
  by_cases hyx : y = x
  · subst hyx
    rw [Contents.buckets_setBuckets_self, hb, Function.update_self]
    split
    · rfl
    · rename_i hrid
      rw [hk y hy e, if_neg hrid]
  · rw [Contents.buckets_setBuckets_of_ne hyx, Function.update_of_ne hyx]
    exact hk y hy e

/-- Removing the key of the record from an index. -/
theorem removeKey_runs (hs : StorageHolds h s c') (hk : KeysAre s c c' rid o) (hx : s.indexes x)
    (ho : o x = some key) (hlen : key.length ≤ HashIndexBucketPage.maxKeyLength) :
    Runs (poolContext ext) (HashIndex.remove x key (some rid)) (fun r h' => r = .ok () ∧
      ∃ c'', StorageHolds h' s c'' ∧ KeysAre s c c'' rid (Function.update o x none) ∧
        IndexStep c' x key c'' ∧ HasSpace (c''.buckets x) key) h := by
  have hin : (key, rid) ∈ (c'.buckets x).pairs := (hk x hx _).mpr (by rw [if_pos rfl, ho])
  refine (remove_changes (hs.index x hx) hlen hin).mono fun r h' hr => ?_
  obtain ⟨rfl, b, hc, hpairs, hspace⟩ := hr
  refine ⟨rfl, _, hs.changeIndex hx hc, hk.update fun e => ?_, indexStep_setBuckets hc, ?_⟩
  · rw [hpairs, Set.mem_sdiff, Set.mem_singleton_iff, hk x hx e]
    split
    · rename_i hrid
      rw [ho]
      constructor
      · rintro ⟨he, hne⟩
        exact absurd (Prod.ext (Option.some.inj he).symm hrid) hne
      · exact fun he => nomatch he
    · rename_i hrid
      exact and_iff_left fun he => hrid (congrArg Prod.snd he)
  · rw [Contents.buckets_setBuckets_self]
    exact hspace

/-- Inserting a key for the record into an index that has none: only without room can it fail. -/
theorem insertKey_runs (hs : StorageHolds h s c') (hk : KeysAre s c c' rid o) (hx : s.indexes x)
    (ho : o x = none) (hv : ValidPair (key, rid)) :
    Runs (poolContext ext) (HashIndex.insert x key rid) (fun r h' =>
      (r = .ok () ∧ ∃ c'', StorageHolds h' s c'' ∧
        KeysAre s c c'' rid (Function.update o x (some key)) ∧ IndexStep c' x key c'') ∨
      (∃ e, r = .error e ∧ e.code = .outOfMemory ∧ StorageHolds h' s c' ∧
        ¬ HasSpace (c'.buckets x) key)) h := by
  refine (insert_changes (hs.index x hx) hv).mono fun r h' hr => ?_
  rcases hr with ⟨rfl, b, hc, hpairs⟩ | ⟨e, rfl, hcode, hpage, hfull⟩
  · refine .inl ⟨rfl, _, hs.changeIndex hx hc, hk.update fun e => ?_, indexStep_setBuckets hc⟩
    rw [hpairs, Set.mem_insert_iff]
    split
    · rename_i hrid
      have hnot : e ∉ (c'.buckets x).pairs := by
        rw [hk x hx, if_pos hrid, ho]
        nofun
      rw [or_iff_left hnot]
      constructor
      · rintro rfl
        rfl
      · intro he
        exact Prod.ext (Option.some.inj he).symm hrid
    · rename_i hrid
      refine or_iff_right fun he => hrid ?_
      rw [he]
  · exact .inr ⟨e, rfl, hcode, hs.of_page_eq hpage, hfull⟩

/-! ## Insertion -/

/-- The index of an encoded key, and the key. -/
def EncodedIndexKey.entry (encoded : EncodedIndexKey) : PageId × Option Bytes :=
  (encoded.binding.index, encoded.key)

/-- A key that an index can hold, for an index of the database. -/
def Usable (s : Parts) (rid : RecordID) (x : PageId) (key : Option Bytes) : Prop :=
  s.indexes x ∧ ∀ k, key = some k → ValidPair (k, rid)

theorem rollbackInsertedIndexEntries_runs : ∀ (inserted : List EncodedIndexKey) (h : Pages)
    (c' : Contents) (o : PageId → Option Bytes), StorageHolds h s c' → KeysAre s c c' rid o →
    (inserted.map fun i => i.binding.index).Nodup →
    (∀ i ∈ inserted, Usable s rid i.binding.index i.key ∧ o i.binding.index = i.key) →
    Runs (poolContext ext) (rollbackInsertedIndexEntries rid inserted) (fun r h' => r = .ok () ∧
      ∃ c'', StorageHolds h' s c'' ∧ c''.chain = c'.chain ∧
        KeysAre s c c'' rid (assign o (inserted.map fun i => (i.binding.index, none)))) h := by
  intro inserted
  induction inserted with
  | nil => exact fun h c' o hs hk _ _ => runs_pure ⟨rfl, c', hs, rfl, hk⟩
  | cons i inserted ih =>
    intro h c' o hs hk hnodup hall
    rw [List.map_cons] at hnodup
    obtain ⟨hnot, hnodup'⟩ := List.nodup_cons.mp hnodup
    obtain ⟨⟨hx, hvalid⟩, ho⟩ := hall i List.mem_cons_self
    rw [rollbackInsertedIndexEntries, List.map_cons, assign_cons]
    cases hkey : i.key with
    | none =>
      have hsame : Function.update o i.binding.index none = o := by
        rw [← hkey, ← ho, Function.update_eq_self]
      rw [hsame]
      exact ih h c' o hs hk hnodup' fun j hj => hall j (List.mem_cons_of_mem _ hj)
    | some key =>
      rw [hkey] at ho hvalid
      refine ((removeKey_runs hs hk hx ho (hvalid key rfl).2.1).mono fun r h' hr => ?_).bind
      obtain ⟨rfl, c₁, hs₁, hk₁, hstep, -⟩ := hr
      refine (ih h' c₁ _ hs₁ hk₁ hnodup' fun j hj => ?_).mono fun r h'' hr => ?_
      · have hne : j.binding.index ≠ i.binding.index := fun he =>
          hnot (he ▸ List.mem_map_of_mem hj)
        rw [Function.update_of_ne hne]
        exact hall j (List.mem_cons_of_mem _ hj)
      · obtain ⟨rfl, c₂, hs₂, hchain, hk₂⟩ := hr
        exact ⟨rfl, c₂, hs₂, hchain.trans hstep.chain, hk₂⟩

/-- The record `rid` of the heap file at `p` becomes `r`; the other heap files stay. -/
structure RowChanged (chains : PageId → Chain) (p : PageId) (rid : RecordID) (r : Option Bytes)
    (chains' : PageId → Chain) : Prop where
  changed : ChangedAt (chains p) rid r (chains' p)
  others : ∀ q, q ≠ p → chains' q = chains q
  member : rid.pageId ∈ (chains' p).ids

/-- A second change of the same record. -/
theorem RowChanged.trans {chains chains' chains'' : PageId → Chain} {p : PageId} {rid : RecordID}
    {r r' : Option Bytes} (h : RowChanged chains p rid r chains')
    (h' : RowChanged chains' p rid r' chains'') : RowChanged chains p rid r' chains'' where
  changed rid' := by
    rw [h'.changed]
    split
    · rfl
    · rename_i hne
      rw [h.changed, if_neg hne]
  others q hq := (h'.others q hq).trans (h.others q hq)
  member := h'.member

theorem rowChanged_setChain {h' : Pages} {p : PageId} {r : Option Bytes} {chain : Chain}
    (hc : HeapFile.Changes h p (c.chain p) rid r h' chain) :
    RowChanged c.chain p rid r (c.setChain p chain).chain where
  changed := by
    rw [Contents.chain_setChain_self]
    exact hc.changed
  others _ hq := Contents.chain_setChain_of_ne hq
  member := by
    rw [Contents.chain_setChain_self]
    exact hc.member

/-- Deleting a live record from its heap file. -/
theorem deleteRow_runs {p : PageId} {data : Bytes} (hs : StorageHolds h s c') (hp : s.tables p)
    (hk : KeysAre s c c' rid o) (hr : (c'.chain p).record rid = some data) :
    Runs (poolContext ext) (HeapFile.deleteRecord rid) (fun r h' => r = .ok () ∧
      ∃ c'', StorageHolds h' s c'' ∧ KeysAre s c c'' rid o ∧
        RowChanged c'.chain p rid none c''.chain) h := by
  refine (HeapFile.deleteRecord_changes (hs.heap p hp) (HeapFile.mem_ids_of_record hr) hr).mono
    fun r h' hr => ?_
  obtain ⟨rfl, chain, hc⟩ := hr
  exact ⟨rfl, _, hs.changeHeap hp hc, hk, rowChanged_setChain hc⟩

/-- A failed insertion is undone: the record and its keys are removed. -/
theorem rollbackInsert_runs {p : PageId} {data : Bytes} {inserted : List EncodedIndexKey}
    {e : Status} (hp : s.tables p) (hs : StorageHolds h s c') (hk : KeysAre s c c' rid o)
    (hr : (c'.chain p).record rid = some data)
    (hnodup : (inserted.map fun i => i.binding.index).Nodup)
    (hall : ∀ i ∈ inserted, Usable s rid i.binding.index i.key ∧ o i.binding.index = i.key) :
    Runs (poolContext ext) (rollbackInsert rid e inserted) (fun r h' => r = e ∧
      ∃ c'', StorageHolds h' s c'' ∧ RowChanged c'.chain p rid none c''.chain ∧
        KeysAre s c c'' rid (assign o (inserted.map fun i => (i.binding.index, none)))) h := by
  refine ((rollbackInsertedIndexEntries_runs inserted h c' o hs hk hnodup hall).mono
    fun r h' hrun => ?_).bind
  obtain ⟨rfl, c₁, hs₁, hchain, hk₁⟩ := hrun
  refine ((deleteRow_runs hs₁ hp hk₁ (by rw [hchain]; exact hr)).mono fun r h'' hrun => ?_).bind
  obtain ⟨rfl, c₂, hs₂, hk₂, hrow⟩ := hrun
  rw [hchain] at hrow
  exact runs_pure ⟨rfl, c₂, hs₂, hrow, hk₂⟩

theorem insertKeys_runs {p : PageId} {data : Bytes} {o₀ : PageId → Option Bytes} (hp : s.tables p) :
    ∀ (keys inserted : List EncodedIndexKey) (h : Pages) (c' : Contents)
      (o : PageId → Option Bytes), StorageHolds h s c' → KeysAre s c c' rid o →
      (c'.chain p).record rid = some data →
      ((keys ++ inserted).map fun i => i.binding.index).Nodup →
      (∀ i ∈ keys ++ inserted, Usable s rid i.binding.index i.key) →
      (∀ i ∈ keys, o i.binding.index = none) → (∀ i ∈ inserted, o i.binding.index = i.key) →
      assign o (inserted.map fun i => (i.binding.index, none)) = o₀ →
      Runs (poolContext ext) (insertKeys rid inserted keys) (fun r h' =>
        (r = .ok () ∧ ∃ c'', StorageHolds h' s c'' ∧ c''.chain = c'.chain ∧
          KeysAre s c c'' rid (assign o (keys.map EncodedIndexKey.entry))) ∨
        (∃ e c'', r = .error e ∧ e.code ≠ .ioError ∧ StorageHolds h' s c'' ∧
          RowChanged c'.chain p rid none c''.chain ∧ KeysAre s c c'' rid o₀)) h := by
  intro keys
  induction keys with
  | nil => exact fun inserted h c' o hs hk _ _ _ _ _ _ => runs_pure (.inl ⟨rfl, c', hs, rfl, hk⟩)
  | cons i keys ih =>
    intro inserted h c' o hs hk hr hnodup husable hnew hold hback
    have hperm : (keys ++ i :: inserted).Perm ((i :: keys) ++ inserted) := List.perm_middle
    have hnodup' : ((keys ++ i :: inserted).map fun i => i.binding.index).Nodup :=
      (hperm.map _).nodup_iff.mpr hnodup
    have husable' : ∀ j ∈ keys ++ i :: inserted, Usable s rid j.binding.index j.key := fun j hj =>
      husable j (hperm.mem_iff.mp hj)
    rw [List.cons_append, List.map_cons] at hnodup
    obtain ⟨hnot, hnodupTail⟩ := List.nodup_cons.mp hnodup
    obtain ⟨hx, hvalid⟩ := husable i List.mem_cons_self
    have ho := hnew i List.mem_cons_self
    have hne : ∀ j ∈ keys ++ inserted, j.binding.index ≠ i.binding.index := by
      intro j hj he
      apply hnot
      rw [← he]
      exact List.mem_map_of_mem hj
    have hback' : assign o ((i :: inserted).map fun i => (i.binding.index, none)) = o₀ := by
      rw [List.map_cons, assign_cons, ← hback]
      exact congrArg (assign · _) (by rw [← ho, Function.update_eq_self])
    rw [insertKeys, List.map_cons, assign_cons]
    cases hkey : i.key with
    | none =>
      have hsame : Function.update o i.entry.1 i.entry.2 = o := by
        show Function.update o i.binding.index i.key = o
        rw [hkey, ← ho, Function.update_eq_self]
      rw [hsame]
      refine ih (i :: inserted) h c' o hs hk hr hnodup' husable'
        (fun j hj => hnew j (List.mem_cons_of_mem _ hj)) (fun j hj => ?_) hback'
      rcases List.mem_cons.mp hj with rfl | hj
      · rw [ho, hkey]
      · exact hold j hj
    | some key =>
      rw [hkey] at hvalid
      refine ((insertKey_runs hs hk hx ho (hvalid key rfl)).mono fun r h' hrun => ?_).bind
      rcases hrun with ⟨rfl, c₁, hs₁, hk₁, hstep⟩ | ⟨e, rfl, hcode, hs₁, -⟩
      · have hentry : Function.update o i.entry.1 i.entry.2 =
            Function.update o i.binding.index (some key) := by rw [← hkey]; rfl
        rw [hentry]
        refine (ih (i :: inserted) h' c₁ _ hs₁ hk₁ (by rw [hstep.chain]; exact hr) hnodup' husable'
          (fun j hj => ?_) (fun j hj => ?_) ?_).mono fun r h'' hrun => ?_
        · rw [Function.update_of_ne (hne j (List.mem_append_left _ hj))]
          exact hnew j (List.mem_cons_of_mem _ hj)
        · rcases List.mem_cons.mp hj with rfl | hj
          · rw [Function.update_self, hkey]
          · rw [Function.update_of_ne (hne j (List.mem_append_right _ hj))]
            exact hold j hj
        · rw [List.map_cons, assign_cons, Function.update_idem]
          exact hback'
        · rw [hstep.chain] at hrun
          exact hrun
      · -- the bucket is full: the keys before and the record are removed again
        have hnodupInserted : (inserted.map fun i => i.binding.index).Nodup := by
          rw [List.map_append] at hnodupTail
          exact (List.nodup_append.mp hnodupTail).2.1
        refine ((rollbackInsert_runs hp hs₁ hk hr hnodupInserted fun j hj => ⟨?_, hold j hj⟩).mono
          fun r h'' hrun => ?_).bind
        · exact husable j (List.mem_cons_of_mem _ (List.mem_append_right _ hj))
        · obtain ⟨rfl, c₂, hs₂, hrow, hk₂⟩ := hrun
          rw [hback] at hk₂
          refine runs_pure (.inr ⟨_, c₂, rfl, ?_, hs₂, hrow, hk₂⟩)
          rw [hcode]
          nofun

/-! ## Update -/

/-- Without the new key there is room for the old one. -/
def Restorable (b : Buckets) (oldKey newKey : Option Bytes) : Prop :=
  ∀ old, oldKey = some old →
    (∀ new, newKey = some new → bucketOf b.count old ≠ bucketOf b.count new) → HasSpace b old

/-- A change of the key of `rid` that its indexes can hold. -/
structure KeyChange.Usable (s : Parts) (rid : RecordID) (change : KeyChange) : Prop where
  index : s.indexes change.binding.index
  oldKey : ∀ k, change.oldKey = some k → ValidPair (k, rid)
  newKey : ∀ k, change.newKey = some k → ValidPair (k, rid)

/-- The new key is in the index, and the change can be undone there. -/
structure AppliedChange.Undoable (s : Parts) (rid : RecordID) (c : Contents)
    (o : PageId → Option Bytes) (applied : AppliedChange) : Prop where
  usable : applied.change.Usable s rid
  current : o applied.change.binding.index = applied.change.newKey
  removedOld : applied.removedOld = applied.change.oldKey.isSome
  insertedNew : applied.insertedNew = applied.change.newKey.isSome
  restorable : Restorable (c.buckets applied.change.binding.index) applied.change.oldKey
    applied.change.newKey

theorem AppliedChange.Undoable.congr {applied : AppliedChange} {c'' : Contents}
    (h : applied.Undoable s rid c' o)
    (hb : c''.buckets applied.change.binding.index = c'.buckets applied.change.binding.index)
    (ho : o' applied.change.binding.index = o applied.change.binding.index) :
    applied.Undoable s rid c'' o' where
  usable := h.usable
  current := ho.trans h.current
  removedOld := h.removedOld
  insertedNew := h.insertedNew
  restorable := by rw [hb]; exact h.restorable

/-- What a step in the index `x` leaves alone. -/
structure Elsewhere (c : Contents) (x : PageId) (c' : Contents) : Prop where
  chain : c'.chain = c.chain
  others : ∀ y, y ≠ x → c'.buckets y = c.buckets y

theorem Elsewhere.refl (c : Contents) (x : PageId) : Elsewhere c x c := ⟨rfl, fun _ _ => rfl⟩

theorem Elsewhere.trans {c'' : Contents} (h : Elsewhere c x c') (h' : Elsewhere c' x c'') :
    Elsewhere c x c'' :=
  ⟨h'.chain.trans h.chain, fun y hy => (h'.others y hy).trans (h.others y hy)⟩

theorem IndexStep.elsewhere (h : IndexStep c x key c') : Elsewhere c x c' := ⟨h.chain, h.others⟩

theorem removeOldKey_runs {change : KeyChange} (hs : StorageHolds h s c')
    (hk : KeysAre s c c' rid o)
    (hu : change.Usable s rid) (ho : o change.binding.index = change.oldKey) :
    Runs (poolContext ext) (removeOldKey rid change) (fun r h' => r = .ok change.oldKey.isSome ∧
      ∃ c'', StorageHolds h' s c'' ∧
        KeysAre s c c'' rid (Function.update o change.binding.index none) ∧
        Elsewhere c' change.binding.index c'' ∧
        ∀ k, change.oldKey = some k → HasSpace (c''.buckets change.binding.index) k) h := by
  unfold removeOldKey
  cases hold : change.oldKey with
  | none =>
    have hsame : Function.update o change.binding.index none = o := by
      rw [← hold, ← ho, Function.update_eq_self]
    rw [hsame]
    exact runs_pure ⟨rfl, c', hs, hk, .refl _ _, nofun⟩
  | some old =>
    rw [hold] at ho
    refine ((removeKey_runs hs hk hu.index ho (hu.oldKey old hold).2.1).mono fun r h' hr => ?_).bind
    obtain ⟨rfl, c'', hs', hk', hstep, hspace⟩ := hr
    refine runs_pure ⟨rfl, c'', hs', hk', hstep.elsewhere, fun k hk => ?_⟩
    cases hk
    exact hspace

/-- The new key is inserted, or the old one is put back, for which there is room. -/
theorem insertNewKey_runs {change : KeyChange} (hs : StorageHolds h s c')
    (hk : KeysAre s c c' rid o) (hu : change.Usable s rid) (ho : o change.binding.index = none)
    (hspace : ∀ k, change.oldKey = some k → HasSpace (c'.buckets change.binding.index) k) :
    Runs (poolContext ext) (insertNewKey rid change change.oldKey.isSome) (fun r h' =>
      (r = .ok change.newKey.isSome ∧ ∃ c'', StorageHolds h' s c'' ∧
        KeysAre s c c'' rid (Function.update o change.binding.index change.newKey) ∧
        Elsewhere c' change.binding.index c'' ∧
        Restorable (c''.buckets change.binding.index) change.oldKey change.newKey) ∨
      (∃ e c'', r = .error e ∧ e.code ≠ .ioError ∧ StorageHolds h' s c'' ∧
        KeysAre s c c'' rid (Function.update o change.binding.index change.oldKey) ∧
        Elsewhere c' change.binding.index c'')) h := by
  unfold insertNewKey
  cases hnew : change.newKey with
  | none =>
    have hsame : Function.update o change.binding.index none = o := by
      rw [← ho, Function.update_eq_self]
    rw [hsame]
    exact runs_pure (.inl ⟨rfl, c', hs, hk, .refl _ _, fun old hold _ => hspace old hold⟩)
  | some new =>
    refine ((insertKey_runs hs hk hu.index ho (hu.newKey new hnew)).mono fun r h' hr => ?_).bind
    rcases hr with ⟨rfl, c'', hs', hk', hstep⟩ | ⟨e, rfl, hcode, hs', hfull⟩
    · refine runs_pure (.inl ⟨rfl, c'', hs', hk', hstep.elsewhere, fun old hold hne => ?_⟩)
      have hbucket := hne new rfl
      rw [hstep.count] at hbucket
      exact hstep.space old hbucket (hspace old hold)
    · have hio : e.code ≠ .ioError := by
        rw [hcode]
        nofun
      cases hold : change.oldKey with
      | none =>
        refine runs_pure (.inr ⟨e, c', rfl, hio, hs', ?_, .refl _ _⟩)
        rw [← ho, Function.update_eq_self]
        exact hk
      | some old =>
        -- the old key goes back to where it was
        refine ((insertKey_runs hs' hk hu.index ho (hu.oldKey old hold)).mono
          fun r h'' hr => ?_).bind
        rcases hr with ⟨rfl, c'', hs'', hk'', hstep⟩ | ⟨e', rfl, -, -, hfull'⟩
        · exact runs_pure (.inr ⟨e, c'', rfl, hio, hs'', hk'', hstep.elsewhere⟩)
        · exact absurd (hspace old hold) hfull'

theorem applyChanges_runs {o₀ : PageId → Option Bytes} :
    ∀ (changes : List KeyChange) (applied : List AppliedChange) (h : Pages) (c' : Contents)
      (o : PageId → Option Bytes), StorageHolds h s c' → KeysAre s c c' rid o →
      (changes.map (fun x => x.binding.index) ++
        applied.map fun a => a.change.binding.index).Nodup →
      (∀ x ∈ changes, x.Usable s rid ∧ o x.binding.index = x.oldKey) →
      (∀ a ∈ applied, a.Undoable s rid c' o) →
      assign o (applied.map fun a => (a.change.binding.index, a.change.oldKey)) = o₀ →
      Runs (poolContext ext) (applyChanges rid applied changes) (fun r h' =>
        (r.1 = .ok () ∧ ∃ c'', StorageHolds h' s c'' ∧ c''.chain = c'.chain ∧
          KeysAre s c c'' rid (assign o (changes.map fun x => (x.binding.index, x.newKey)))) ∨
        (∃ e c'' o', r.1 = .error e ∧ e.code ≠ .ioError ∧ StorageHolds h' s c'' ∧
          c''.chain = c'.chain ∧ KeysAre s c c'' rid o' ∧ (∀ a ∈ r.2, a.Undoable s rid c'' o') ∧
          (r.2.map fun a => a.change.binding.index).Nodup ∧
          assign o' (r.2.map fun a => (a.change.binding.index, a.change.oldKey)) = o₀)) h := by
  intro changes
  induction changes with
  | nil => exact fun applied h c' o hs hk _ _ _ _ => runs_pure (.inl ⟨rfl, c', hs, rfl, hk⟩)
  | cons x changes ih =>
    intro applied h c' o hs hk hnodup hall happlied hback
    obtain ⟨hu, ho⟩ := hall x List.mem_cons_self
    have hnodup₀ := hnodup
    rw [List.map_cons, List.cons_append] at hnodup
    obtain ⟨hnot, hnodupTail⟩ := List.nodup_cons.mp hnodup
    rw [List.mem_append, not_or] at hnot
    have hneChange : ∀ y ∈ changes, y.binding.index ≠ x.binding.index := by
      intro y hy he
      apply hnot.1
      rw [← he]
      exact List.mem_map_of_mem hy
    have hneApplied : ∀ a ∈ applied, a.change.binding.index ≠ x.binding.index := by
      intro a ha he
      apply hnot.2
      rw [← he]
      exact List.mem_map_of_mem ha
    have hnodupApplied := (List.nodup_append.mp hnodupTail).2.1
    rw [applyChanges, List.map_cons, assign_cons]
    by_cases hsameKey : x.oldKey = x.newKey
    · rw [if_pos hsameKey]
      have hsame : Function.update o x.binding.index x.newKey = o := by
        rw [← hsameKey, ← ho, Function.update_eq_self]
      rw [hsame]
      exact ih applied h c' o hs hk hnodupTail (fun y hy => hall y (List.mem_cons_of_mem _ hy))
        happlied hback
    rw [if_neg hsameKey]
    refine ((removeOldKey_runs hs hk hu ho).mono fun r h₁ hr => ?_).bind
    obtain ⟨rfl, c₁, hs₁, hk₁, helse₁, hspace₁⟩ := hr
    dsimp only
    refine ((insertNewKey_runs hs₁ hk₁ hu (Function.update_self _ _ _) hspace₁).mono
      fun r h₂ hr => ?_).bind
    rcases hr with ⟨rfl, c₂, hs₂, hk₂, helse₂, hrest⟩ | ⟨e, c₂, rfl, hcode, hs₂, hk₂, helse₂⟩
    · dsimp only
      rw [Function.update_idem] at hk₂
      have helse := helse₁.trans helse₂
      refine (ih _ h₂ c₂ _ hs₂ hk₂ ?_ (fun y hy => ?_) (fun a ha => ?_) ?_).mono
        fun r h₃ hr => ?_
      · rw [List.map_cons]
        exact (List.perm_middle.nodup_iff).mpr (by simpa using hnodup₀)
      · rw [Function.update_of_ne (hneChange y hy)]
        exact hall y (List.mem_cons_of_mem _ hy)
      · rcases List.mem_cons.mp ha with rfl | ha
        · exact ⟨hu, Function.update_self _ _ _, rfl, rfl, hrest⟩
        · exact (happlied a ha).congr (helse.others _ (hneApplied a ha))
            (Function.update_of_ne (hneApplied a ha) _ _)
      · rw [List.map_cons, assign_cons, Function.update_idem, ← hback, ← ho,
          Function.update_eq_self]
      · rw [helse.chain] at hr
        exact hr
    · have helse := helse₁.trans helse₂
      rw [Function.update_idem, ← ho, Function.update_eq_self] at hk₂
      refine runs_pure (.inr ⟨e, c₂, o, rfl, hcode, hs₂, helse.chain, hk₂, fun a ha => ?_,
        hnodupApplied, hback⟩)
      exact (happlied a ha).congr (helse.others _ (hneApplied a ha)) rfl

theorem undoInsert_runs {applied : AppliedChange} (hs : StorageHolds h s c')
    (hk : KeysAre s c c' rid o) (hu : applied.Undoable s rid c' o) :
    Runs (poolContext ext) (undoInsert rid applied (.ok ())) (fun r h' => r = .ok () ∧
      ∃ c'', StorageHolds h' s c'' ∧
        KeysAre s c c'' rid (Function.update o applied.change.binding.index none) ∧
        Elsewhere c' applied.change.binding.index c'' ∧
        ∀ old, applied.change.oldKey = some old →
          HasSpace (c''.buckets applied.change.binding.index) old) h := by
  have hcurrent := hu.current
  have hrest := hu.restorable
  unfold undoInsert
  rw [hu.insertedNew]
  cases hnew : applied.change.newKey with
  | none =>
    rw [hnew] at hcurrent hrest
    have hsame : Function.update o applied.change.binding.index none = o := by
      rw [← hcurrent, Function.update_eq_self]
    rw [hsame]
    exact runs_pure ⟨rfl, c', hs, hk, .refl _ _, fun old hold => hrest old hold nofun⟩
  | some new =>
    rw [hnew] at hcurrent hrest
    have hlen := (hu.usable.newKey new hnew).2.1
    refine ((removeKey_runs hs hk hu.usable.index hcurrent hlen).mono fun r h' hr => ?_).bind
    obtain ⟨rfl, c'', hs', hk', hstep, hspace⟩ := hr
    refine runs_pure ⟨rfl, c'', hs', hk', hstep.elsewhere, fun old hold => ?_⟩
    by_cases hbucket : bucketOf (c'.buckets applied.change.binding.index).count old =
        bucketOf (c'.buckets applied.change.binding.index).count new
    · exact hasSpace_congr (by rw [hstep.count]; exact hbucket) hspace
    · refine hstep.space old hbucket (hrest old hold fun k hk => ?_)
      cases hk
      exact hbucket

theorem undoRemove_runs {applied : AppliedChange} (hs : StorageHolds h s c')
    (hk : KeysAre s c c' rid o) (hu : applied.change.Usable s rid)
    (hold : applied.removedOld = applied.change.oldKey.isSome)
    (ho : o applied.change.binding.index = none)
    (hspace : ∀ old, applied.change.oldKey = some old →
      HasSpace (c'.buckets applied.change.binding.index) old) :
    Runs (poolContext ext) (undoRemove rid applied (.ok ())) (fun r h' => r = .ok () ∧
      ∃ c'', StorageHolds h' s c'' ∧
        KeysAre s c c'' rid
          (Function.update o applied.change.binding.index applied.change.oldKey) ∧
        Elsewhere c' applied.change.binding.index c'') h := by
  unfold undoRemove
  rw [hold]
  cases hkey : applied.change.oldKey with
  | none =>
    have hsame : Function.update o applied.change.binding.index none = o := by
      rw [← ho, Function.update_eq_self]
    rw [hsame]
    exact runs_pure ⟨rfl, c', hs, hk, .refl _ _⟩
  | some old =>
    refine ((insertKey_runs hs hk hu.index ho (hu.oldKey old hkey)).mono fun r h' hr => ?_).bind
    rcases hr with ⟨rfl, c'', hs', hk', hstep⟩ | ⟨e, rfl, -, -, hfull⟩
    · exact runs_pure ⟨rfl, c'', hs', hk', hstep.elsewhere⟩
    · exact absurd (hspace old hkey) hfull

/-- The rollback of an update needs no new page: it always succeeds. -/
theorem rollbackChanges_runs : ∀ (applied : List AppliedChange) (h : Pages) (c' : Contents)
    (o : PageId → Option Bytes), StorageHolds h s c' → KeysAre s c c' rid o →
    (applied.map fun a => a.change.binding.index).Nodup → (∀ a ∈ applied, a.Undoable s rid c' o) →
    Runs (poolContext ext) (rollbackChanges rid applied (.ok ())) (fun r h' => r = .ok () ∧
      ∃ c'', StorageHolds h' s c'' ∧ c''.chain = c'.chain ∧ KeysAre s c c'' rid
        (assign o (applied.map fun a => (a.change.binding.index, a.change.oldKey)))) h := by
  intro applied
  induction applied with
  | nil => exact fun h c' o hs hk _ _ => runs_pure ⟨rfl, c', hs, rfl, hk⟩
  | cons a applied ih =>
    intro h c' o hs hk hnodup hall
    rw [List.map_cons] at hnodup
    obtain ⟨hnot, hnodup'⟩ := List.nodup_cons.mp hnodup
    have hu := hall a List.mem_cons_self
    rw [rollbackChanges, List.map_cons, assign_cons]
    refine ((undoInsert_runs hs hk hu).mono fun r h₁ hr => ?_).bind
    obtain ⟨rfl, c₁, hs₁, hk₁, helse₁, hspace⟩ := hr
    refine ((undoRemove_runs hs₁ hk₁ hu.usable hu.removedOld (Function.update_self _ _ _)
      hspace).mono fun r h₂ hr => ?_).bind
    obtain ⟨rfl, c₂, hs₂, hk₂, helse₂⟩ := hr
    rw [Function.update_idem] at hk₂
    have helse := helse₁.trans helse₂
    refine (ih h₂ c₂ _ hs₂ hk₂ hnodup' fun b hb => ?_).mono fun r h₃ hr => ?_
    · have hne : b.change.binding.index ≠ a.change.binding.index := by
        intro he
        apply hnot
        rw [← he]
        exact List.mem_map_of_mem hb
      exact (hall b (List.mem_cons_of_mem _ hb)).congr (helse.others _ hne)
        (Function.update_of_ne hne _ _)
    · rw [helse.chain] at hr
      exact hr

/-- A failed update is undone: the old keys and the old record are put back. -/
theorem rollbackUpdate_runs {p : PageId} {chain : Chain} {old data : Bytes} {e : Status}
    {applied : List AppliedChange} (hp : s.tables p) (hs : StorageHolds h s c')
    (hk : KeysAre s c c' rid o) {h₀ : Pages} (hheap : HeapFile.HeapHolds h₀ p chain)
    (hold : chain.record rid = some old) (hrow : c'.chain p = HeapFile.replaced chain rid data)
    (hnodup : (applied.map fun a => a.change.binding.index).Nodup)
    (hall : ∀ a ∈ applied, a.Undoable s rid c' o) :
    Runs (poolContext ext) (rollbackUpdate { rid := rid, data := old } e applied)
    (fun r h' => r = e ∧
      ∃ c'', StorageHolds h' s c'' ∧ RowChanged c'.chain p rid (some old) c''.chain ∧
        KeysAre s c c'' rid
          (assign o (applied.map fun a => (a.change.binding.index, a.change.oldKey)))) h := by
  refine ((rollbackChanges_runs applied h c' o hs hk hnodup hall).mono fun r h₁ hr => ?_).bind
  obtain ⟨rfl, c₁, hs₁, hchain, hk₁⟩ := hr
  have hheap₁ := hs₁.heap p hp
  rw [hchain, hrow] at hheap₁
  have hrestore : Runs (poolContext ext) (HeapFile.updateRecord { rid := rid, data := old }) _ h₁ :=
    HeapFile.updateRecord_restores hheap (HeapFile.mem_ids_of_record hold) hold hheap₁
  refine (hrestore.mono fun r h₂ hr => ?_).bind
  obtain ⟨rfl, hc⟩ := hr
  rw [← hrow, ← hchain] at hc
  refine runs_pure ⟨rfl, _, hs₁.changeHeap hp hc, ?_, hk₁⟩
  rw [← hchain]
  exact rowChanged_setChain hc

/-! ## Deletion -/

/-- All keys of the record are removed; this cannot fail. -/
theorem removeKeys_runs : ∀ (keys removed : List EncodedIndexKey) (h : Pages) (c' : Contents)
    (o : PageId → Option Bytes), StorageHolds h s c' → KeysAre s c c' rid o →
    (keys.map fun i => i.binding.index).Nodup →
    (∀ i ∈ keys, Usable s rid i.binding.index i.key ∧ o i.binding.index = i.key) →
    Runs (poolContext ext) (removeKeys rid removed keys) (fun r h' => (∃ l, r = .ok l) ∧
      ∃ c'', StorageHolds h' s c'' ∧ c''.chain = c'.chain ∧
        KeysAre s c c'' rid (assign o (keys.map fun i => (i.binding.index, none)))) h := by
  intro keys
  induction keys with
  | nil => exact fun removed h c' o hs hk _ _ => runs_pure ⟨⟨_, rfl⟩, c', hs, rfl, hk⟩
  | cons i keys ih =>
    intro removed h c' o hs hk hnodup hall
    rw [List.map_cons] at hnodup
    obtain ⟨hnot, hnodup'⟩ := List.nodup_cons.mp hnodup
    obtain ⟨⟨hx, hvalid⟩, ho⟩ := hall i List.mem_cons_self
    rw [removeKeys, List.map_cons, assign_cons]
    cases hkey : i.key with
    | none =>
      have hsame : Function.update o i.binding.index none = o := by
        rw [← hkey, ← ho, Function.update_eq_self]
      rw [hsame]
      exact ih removed h c' o hs hk hnodup' fun j hj => hall j (List.mem_cons_of_mem _ hj)
    | some key =>
      rw [hkey] at ho hvalid
      refine ((removeKey_runs hs hk hx ho (hvalid key rfl).2.1).mono fun r h' hr => ?_).bind
      obtain ⟨rfl, c₁, hs₁, hk₁, hstep, -⟩ := hr
      refine (ih _ h' c₁ _ hs₁ hk₁ hnodup' fun j hj => ?_).mono fun r h'' hr => ?_
      · have hne : j.binding.index ≠ i.binding.index := by
          intro he
          apply hnot
          rw [← he]
          exact List.mem_map_of_mem hj
        rw [Function.update_of_ne hne]
        exact hall j (List.mem_cons_of_mem _ hj)
      · rw [hstep.chain] at hr
        exact hr

end

end TableStorage

end MiniDbms
