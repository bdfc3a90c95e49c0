import MiniDbms.Database.Consistency

/-!
# Changes of one row

`insertRecord_effect`, `updateRecord_effect` and `deleteRecord_effect`: on a consistent database
each call of `TableStorage` changes the one record that it should change, or none, and the database
is consistent again. Only allocations can fail in these runs, and no rollback does.
-/

namespace MiniDbms

open Lib PagedProgram Program HashIndex StringMap CatalogManager

namespace TableStorage

variable {ext : PageId → Nat} {h h' : Pages} {catalog : CatalogManager} {d : PageData}
  {c c' : Contents} {name : Bytes} {table : TableMetadata} {rid : RecordID} {data old : Bytes}
  {bindings : List IndexBinding} {keys : List EncodedIndexKey} {s : Parts}

/-! ## The keys of a record -/

/-- `o` is the key of the record in an index on the column `k`. -/
def KeyOf (schema : Schema) (k : Nat) (data : Bytes) (o : Option Bytes) : Prop :=
  ∃ v, RecordCodec.getValue schema data k = .ok v ∧
    ((v = .null ∧ o = none) ∨ ∃ key, IndexKey.encode v = .ok key ∧ o = some key)

theorem KeyOf.hasKey_iff {schema : Schema} {k : Nat} {o : Option Bytes} (h : KeyOf schema k data o)
    (key : Bytes) : HasKey schema k data key ↔ o = some key := by
  obtain ⟨v, hv, ⟨rfl, rfl⟩ | ⟨key', hkey, rfl⟩⟩ := h
  · refine iff_of_false ?_ nofun
    rintro ⟨v', hv', he⟩
    rw [hv] at hv'
    cases hv'
    exact IndexKey.ne_null_of_encode he rfl
  · constructor
    · rintro ⟨v', hv', he⟩
      rw [hv] at hv'
      cases hv'
      rw [hkey] at he
      cases he
      rfl
    · intro he
      cases he
      exact ⟨v, hv, hkey⟩

/-- The key that is encoded for a binding. -/
def EncodedOf (schema : Schema) (data : Bytes) (binding : IndexBinding)
    (encoded : EncodedIndexKey) :
    Prop :=
  encoded.binding = binding ∧ KeyOf schema binding.columnIndex data encoded.key

theorem encodeIndexKey_ok {schema : Schema} {binding : IndexBinding} {encoded : EncodedIndexKey}
    (he : encodeIndexKey schema data binding = .ok encoded) :
    EncodedOf schema data binding encoded := by
  unfold encodeIndexKey at he
  cases hv : RecordCodec.getValue schema data binding.columnIndex with
  | error e =>
    rw [hv] at he
    cases he
  | ok v =>
    rw [hv] at he
    dsimp only at he
    split at he
    · rename_i hnull
      cases he
      exact ⟨rfl, v, hv, .inl ⟨hnull, rfl⟩⟩
    · cases hkey : IndexKey.encode v with
      | error e =>
        rw [hkey] at he
        cases he
      | ok key =>
        rw [hkey] at he
        cases he
        exact ⟨rfl, v, hv, .inr ⟨key, hkey, rfl⟩⟩

theorem encodeIndexKey_of_encodable {schema : Schema} {binding : IndexBinding} {v : FieldValue}
    (hv : RecordCodec.getValue schema data binding.columnIndex = .ok v)
    (he : v = .null ∨ ∃ key, IndexKey.encode v = .ok key) :
    ∃ encoded, encodeIndexKey schema data binding = .ok encoded := by
  unfold encodeIndexKey
  rw [hv]
  dsimp only
  split
  · exact ⟨_, rfl⟩
  · rename_i hnull
    obtain ⟨key, hkey⟩ := he.resolve_left hnull
    rw [hkey]
    exact ⟨_, rfl⟩

theorem forall₂_of_mapM {α β : Type} {f : α → Except Status β} : ∀ {l : List α} {l' : List β},
    l.mapM f = .ok l' → List.Forall₂ (fun a b => f a = .ok b) l l' := by
  intro l
  induction l with
  | nil =>
    intro l' hl
    cases hl
    exact .nil
  | cons a l ih =>
    intro l' hl
    rw [List.mapM_cons] at hl
    cases ha : f a with
    | error e =>
      rw [ha] at hl
      cases hl
    | ok b =>
      rw [ha] at hl
      cases hrest : l.mapM f with
      | error e =>
        rw [hrest] at hl
        cases hl
      | ok bs =>
        rw [hrest] at hl
        cases hl
        exact .cons ha (ih hrest)

theorem exists_of_mapM_error {α β : Type} {f : α → Except Status β} {e : Status} :
    ∀ {l : List α}, l.mapM f = .error e → ∃ a ∈ l, f a = .error e := by
  intro l
  induction l with
  | nil => exact fun hl => nomatch hl
  | cons a l ih =>
    intro hl
    rw [List.mapM_cons] at hl
    cases ha : f a with
    | error e' =>
      rw [ha] at hl
      cases hl
      exact ⟨a, List.mem_cons_self, ha⟩
    | ok b =>
      rw [ha] at hl
      cases hrest : l.mapM f with
      | error e' =>
        rw [hrest] at hl
        cases hl
        obtain ⟨a', ha', he⟩ := ih hrest
        exact ⟨a', List.mem_cons_of_mem _ ha', he⟩
      | ok bs =>
        rw [hrest] at hl
        cases hl

/-- Keys of a record that can be decoded fail only for a text that is too long. -/
theorem encodeIndexKeys_error {schema : Schema} {values : List FieldValue} {e : Status}
    (hdec : RecordCodec.deserialize schema data = .ok values)
    (hcols : ∀ binding ∈ bindings, binding.columnIndex < schema.length)
    (hk : encodeIndexKeys schema data bindings = .error e) : e.code = .invalidArgument := by
  obtain ⟨binding, hb, he⟩ := exists_of_mapM_error hk
  obtain ⟨v, hv, -⟩ := RecordCodec.getValue_eq hdec (hcols binding hb)
  rw [encodeIndexKey, hv] at he
  dsimp only at he
  split at he
  · cases he
  · cases hkey : IndexKey.encode v with
    | ok key =>
      rw [hkey] at he
      cases he
    | error e' =>
      rw [hkey] at he
      cases he
      exact IndexKey.code_of_encode hkey

theorem encodeIndexKeys_ok {schema : Schema}
    (hk : encodeIndexKeys schema data bindings = .ok keys) :
    List.Forall₂ (EncodedOf schema data) bindings keys :=
  (forall₂_of_mapM hk).imp fun _ _ => encodeIndexKey_ok

/-- The indexes of the keys are those of the bindings. -/
theorem map_index {schema : Schema} (hk : List.Forall₂ (EncodedOf schema data) bindings keys) :
    (keys.map fun i => i.binding.index) = bindings.map IndexBinding.index := by
  induction hk with
  | nil => rfl
  | cons he _ ih => rw [List.map_cons, List.map_cons, he.1, ih]

theorem map_fst_entry {schema : Schema}
    (hk : List.Forall₂ (EncodedOf schema data) bindings keys) :
    (keys.map EncodedIndexKey.entry).map Prod.fst = bindings.map IndexBinding.index := by
  rw [List.map_map, ← map_index hk]
  rfl

/-! ## Rows and their pages -/

/-- Two heap files have no page in common. -/
theorem table_eq_of_page (hs : StorageHolds h s c) {p q : PageId} (hp : s.tables p)
    (hq : s.tables q)
    {y : PageId} (hy : y ∈ (c.chain p).ids) (hy' : y ∈ (c.chain q).ids) : q = p := by
  have hp' : s.owners (.table p) := hp
  have hq' : s.owners (.table q) := hq
  exact Owner.table.inj (hs.owned.unique _ _ y hq' hp' hy' hy)

theorem isFirstPage (ht : catalog.tables.lookup name = some table) :
    catalog.IsFirstPage table.firstPageId := ⟨name, table, ht, rfl⟩

/-- The database after a change of the record `rid` and of its keys. -/
theorem holds_changeRow {r : Option Bytes} {o : PageId → Option Bytes}
    (hd : DatabaseHolds h catalog d c) (ht : catalog.tables.lookup name = some table)
    (hs : StorageHolds h' (catalog.parts d) c')
    (hrow : RowChanged c.chain table.firstPageId rid r c'.chain)
    (hk : KeysAre (catalog.parts d) c c' rid o)
    (hser : ∀ data, r = some data → ∃ values, RecordCodec.serialize table.schema values = .ok data)
    (hkeys : ∀ binding, IsBinding catalog name table.schema binding →
      match r with
      | none => o binding.index = none
      | some data => KeyOf table.schema binding.columnIndex data (o binding.index))
    (hothers : ∀ x, catalog.IsHeader x →
      (∀ binding, IsBinding catalog name table.schema binding → binding.index ≠ x) → o x = none) :
    DatabaseHolds h' catalog d c' where
  wellFormed := hd.wellFormed
  storage := hs
  firstPages := hd.firstPages
  headers := hd.headers
  serialized {name' table'} ht' rid' data hdata := by
    by_cases hp : table'.firstPageId = table.firstPageId
    · cases hd.firstPages ht' ht hp
      cases ht.symm.trans ht'
      rw [hrow.changed] at hdata
      split at hdata
      · exact hser data hdata
      · exact hd.serialized ht rid' data hdata
    · rw [hrow.others _ hp] at hdata
      exact hd.serialized ht' rid' data hdata
  indexed {key index table' k} hi ht' hk' := by
    have hold := hd.indexed hi ht' hk'
    have hx : catalog.IsHeader index.headerPageId := ⟨key, index, hi, rfl⟩
    by_cases hname : index.tableName = name
    · -- an index on the table
      subst hname
      cases ht.symm.trans ht'
      have hb := hkeys _ ⟨key, index, hi, rfl, k, hk', rfl⟩
      refine ⟨fun rid' data hdata => ?_, fun e => ?_⟩
      · rw [hrow.changed] at hdata
        split at hdata
        · subst hdata
          obtain ⟨v, hv, ⟨hnull, -⟩ | ⟨key', hkey, -⟩⟩ := hb
          · exact ⟨v, hv, .inl hnull⟩
          · exact ⟨v, hv, .inr ⟨key', hkey⟩⟩
        · exact hold.encodable rid' data hdata
      · rw [hk _ hx, hrow.changed]
        split
        · cases r with
          | none => exact iff_of_false (by rw [hb]; nofun) (by simp)
          | some data =>
            rw [← hb.hasKey_iff]
            simp
        · exact hold.pairs e
    · -- an index on another table
      have hne : table'.firstPageId ≠ table.firstPageId := fun hp =>
        hname (hd.firstPages ht' ht hp)
      have hnone : o index.headerPageId = none := by
        apply hothers _ hx
        rintro binding ⟨key', index', hi', hname', k', -, rfl⟩ he
        cases hd.headers hi' hi he
        rw [hi] at hi'
        cases hi'
        exact hname hname'
      rw [hrow.others _ hne]
      refine ⟨hold.encodable, fun e => ?_⟩
      rw [hk _ hx]
      split
      · rename_i hrid
        refine iff_of_false (by rw [hnone]; nofun) ?_
        rintro ⟨data, hdata, -⟩
        apply hne
        have hmem := HeapFile.mem_ids_of_record hdata
        rw [hrid, ← hrow.others _ hne] at hmem
        exact table_eq_of_page hs (isFirstPage ht) (isFirstPage ht') hrow.member hmem
      · exact hold.pairs e

/-! ## The keys before and after -/

theorem isHeader_of_isBinding {binding : IndexBinding} {schema : Schema}
    (hb : IsBinding catalog name schema binding) : catalog.IsHeader binding.index := by
  obtain ⟨key, index, hi, -, k, -, rfl⟩ := hb
  exact ⟨key, index, hi, rfl⟩

/-- A key of a record of the table is one that its index can hold. -/
theorem validPair_of_keyOf {schema : Schema} {k : Nat} {o : Option Bytes}
    (hk : KeyOf schema k data o) (hpos : 0 < rid.pageId.toInt) :
    ∀ key, o = some key → ValidPair (key, rid) := by
  intro key he
  obtain ⟨v, -, ⟨-, rfl⟩ | ⟨key', hkey, rfl⟩⟩ := hk
  · cases he
  · cases he
    obtain ⟨hne, hlen⟩ := IndexKey.length_encode hkey
    exact ⟨hne, hlen, hpos⟩

/-- A record that is nowhere live has no keys. -/
theorem keysAre_none (hd : DatabaseHolds h catalog d c)
    (hnone : ∀ name table, catalog.tables.lookup name = some table →
      (c.chain table.firstPageId).record rid = none) :
    KeysAre (catalog.parts d) c c rid fun _ => none := by
  rintro x ⟨key, index, hi, rfl⟩ e
  split
  · rename_i hrid
    refine iff_of_false (fun he => ?_) nofun
    obtain ⟨table, k, ht, hk⟩ := hd.wellFormed.index_column hi
    obtain ⟨data, hdata, -⟩ := ((hd.indexed hi ht hk).pairs e).mp he
    rw [hrid, hnone _ _ ht] at hdata
    cases hdata
  · rfl

/-- A live record has the keys of its bytes in the indexes on its table, and none elsewhere. -/
theorem keysAre_of_live (hd : DatabaseHolds h catalog d c)
    (ht : catalog.tables.lookup name = some table)
    (hr : (c.chain table.firstPageId).record rid = some old)
    (hb : ∀ binding, binding ∈ bindings ↔ IsBinding catalog name table.schema binding)
    (hnodup : (bindings.map IndexBinding.index).Nodup)
    (hk : List.Forall₂ (EncodedOf table.schema old) bindings keys) :
    KeysAre (catalog.parts d) c c rid
    (assign (fun _ => none) (keys.map EncodedIndexKey.entry)) := by
  have hfst := map_fst_entry hk
  rintro x ⟨key, index, hi, rfl⟩ e
  split
  · rename_i hrid
    obtain ⟨table', k, ht', hcol⟩ := hd.wellFormed.index_column hi
    rw [(hd.indexed hi ht' hcol).pairs e, hrid]
    by_cases hname : index.tableName = name
    · subst hname
      cases ht.symm.trans ht'
      have hin : (⟨index.name, index.columnName, k, index.headerPageId⟩ : IndexBinding) ∈
          bindings :=
        (hb _).mpr ⟨key, index, hi, rfl, k, hcol, rfl⟩
      obtain ⟨encoded, hmem, henc⟩ := forall₂_exists_left hk.flip hin
      have hassign : assign (fun _ => none) (keys.map EncodedIndexKey.entry) index.headerPageId =
          encoded.key := by
        have hentry : encoded.entry.1 = index.headerPageId := by
          show encoded.binding.index = _
          rw [henc.1]
        rw [← hentry]
        exact assign_of_mem (by rw [hfst]; exact hnodup) (List.mem_map_of_mem hmem)
      rw [hassign, ← henc.2.hasKey_iff]
      constructor
      · rintro ⟨data, hdata, hkey⟩
        rw [hr] at hdata
        cases hdata
        exact hkey
      · exact fun hkey => ⟨old, hr, hkey⟩
    · have hnone : assign (fun _ => none) (keys.map EncodedIndexKey.entry) index.headerPageId =
          none := by
        apply assign_of_notMem
        rw [hfst]
        intro hin
        obtain ⟨binding, hbin, he⟩ := List.mem_map.mp hin
        obtain ⟨key', index', hi', hname', k', -, rfl⟩ := (hb binding).mp hbin
        cases hd.headers hi' hi he
        rw [hi] at hi'
        cases hi'
        exact hname hname'
      rw [hnone]
      refine iff_of_false ?_ nofun
      rintro ⟨data, hdata, -⟩
      have hp := table_eq_of_page hd.storage (isFirstPage ht) (isFirstPage ht')
        (HeapFile.mem_ids_of_record hr) (HeapFile.mem_ids_of_record hdata)
      exact hname (hd.firstPages ht' ht hp)
  · rfl

/-- The keys after all indexes on the table have been given those of `data`. -/
theorem keyOf_assign {schema : Schema} {o : PageId → Option Bytes}
    (hnodup : (bindings.map IndexBinding.index).Nodup)
    (hk : List.Forall₂ (EncodedOf schema data) bindings keys) {binding : IndexBinding}
    (hb : binding ∈ bindings) :
    KeyOf schema binding.columnIndex data
      (assign o (keys.map EncodedIndexKey.entry) binding.index) := by
  obtain ⟨encoded, hmem, rfl, hkey⟩ := forall₂_exists_left hk.flip hb
  have hfst := map_fst_entry hk
  have hassign : assign o (keys.map EncodedIndexKey.entry) encoded.entry.1 = encoded.entry.2 :=
    assign_of_mem (by rw [hfst]; exact hnodup) (List.mem_map_of_mem hmem)
  rw [show encoded.binding.index = encoded.entry.1 from rfl, hassign]
  exact hkey

/-- The other indexes keep their keys. -/
theorem assign_elsewhere {o : PageId → Option Bytes} {x : PageId}
    (hb : ∀ binding, binding ∈ bindings ↔ IsBinding catalog name table.schema binding)
    (hk : List.Forall₂ (EncodedOf table.schema data) bindings keys)
    (hno : ∀ binding, IsBinding catalog name table.schema binding → binding.index ≠ x) :
    assign o (keys.map EncodedIndexKey.entry) x = o x := by
  apply assign_of_notMem
  rw [List.map_map]
  intro hin
  obtain ⟨encoded, hmem, he⟩ := List.mem_map.mp hin
  obtain ⟨binding, hbin, rfl, -⟩ := forall₂_exists_left hk hmem
  exact hno _ ((hb _).mp hbin) he

/-- The same contents, seen through the records of the heap files. -/
def SameRows (c c' : Contents) : Prop :=
  ∀ q rid, (c'.chain q).record rid = (c.chain q).record rid

theorem sameRows_of_changed {p : PageId} {r : Option Bytes}
    (hrow : RowChanged c.chain p rid r c'.chain) (hr : (c.chain p).record rid = r) :
    SameRows c c' := by
  intro q rid'
  by_cases hq : q = p
  · rw [hq, hrow.changed]
    split
    · rename_i he
      rw [he, hr]
    · rfl
  · rw [hrow.others q hq]

theorem DatabaseHolds.of_page_eq (hd : DatabaseHolds h catalog d c) (hpage : h'.page = h.page) :
    DatabaseHolds h' catalog d c :=
  ⟨hd.wellFormed, hd.storage.of_page_eq hpage, hd.firstPages, hd.headers, hd.serialized, hd.indexed⟩

theorem lt_of_isBinding {binding : IndexBinding} {schema : Schema}
    (hb : IsBinding catalog name schema binding) : binding.columnIndex < schema.length := by
  obtain ⟨key, index, -, -, k, hk, rfl⟩ := hb
  exact Schema.lt_of_columnIndex hk

/-- The keys that are encoded can be held by their indexes. -/
theorem usable_of_encoded (hb : ∀ binding, binding ∈ bindings ↔
      IsBinding catalog name table.schema binding)
    (hk : List.Forall₂ (EncodedOf table.schema data) bindings keys) (hpos : 0 < rid.pageId.toInt)
    {encoded : EncodedIndexKey} (hin : encoded ∈ keys) :
    Usable (catalog.parts d) rid encoded.binding.index encoded.key := by
  obtain ⟨binding, hmem, rfl, hkey⟩ := forall₂_exists_left hk hin
  exact ⟨isHeader_of_isBinding ((hb _).mp hmem), validPair_of_keyOf hkey hpos⟩

/-! ## Insertion -/

/-- A record that has just been put into the heap file of a table was live nowhere. -/
theorem notLive_of_inserted (ht : catalog.tables.lookup name = some table)
    (hs : StorageHolds h' (catalog.parts d) c')
    (hrow : RowChanged c.chain table.firstPageId rid (some data) c'.chain)
    (hnone : (c.chain table.firstPageId).record rid = none) :
    ∀ name table, catalog.tables.lookup name = some table →
      (c.chain table.firstPageId).record rid = none := by
  intro name' table' ht'
  by_cases hp : table'.firstPageId = table.firstPageId
  · rw [hp, hnone]
  · by_contra hlive
    obtain ⟨data', hdata⟩ := Option.ne_none_iff_exists'.mp hlive
    rw [← hrow.others _ hp] at hdata
    exact hp (table_eq_of_page hs (isFirstPage ht) (isFirstPage ht') hrow.member
      (HeapFile.mem_ids_of_record hdata))

/-- `InsertRecord` adds one record with its keys, or changes nothing. -/
theorem insertRecord_effect (hd : DatabaseHolds h catalog d c)
    (ht : catalog.tables.lookup name = some table) (values : List FieldValue) :
    Runs (poolContext ext) (insertRecord catalog name values) (fun r h' =>
      (∃ rid data c', r = .ok rid ∧ RecordCodec.serialize table.schema values = .ok data ∧
        (c.chain table.firstPageId).record rid = none ∧ DatabaseHolds h' catalog d c' ∧
        RowChanged c.chain table.firstPageId rid (some data) c'.chain) ∨
      (∃ e c', r = .error e ∧ e.code ≠ .ioError ∧ DatabaseHolds h' catalog d c' ∧
        SameRows c c')) h := by
  obtain ⟨bindings, hload, hnodup, hb⟩ := loadTable_ok hd ht
  rw [insertRecord, hload]
  simp only [Bind.bind, Except.bind]
  cases hser : RecordCodec.serialize table.schema values with
  | error e =>
    exact runs_pure (.inr ⟨e, c, rfl, RecordCodec.serialize_error hser, hd, fun _ _ => rfl⟩)
  | ok data =>
  have hdec := RecordCodec.deserialize_serialize hser
  dsimp only
  cases henc : encodeIndexKeys table.schema data bindings with
  | error e =>
    have hcode := encodeIndexKeys_error hdec (fun b hin => lt_of_isBinding ((hb b).mp hin)) henc
    exact runs_pure (.inr ⟨e, c, rfl, by rw [hcode]; decide, hd, fun _ _ => rfl⟩)
  | ok keys =>
  have hkeys := encodeIndexKeys_ok henc
  have hp := isFirstPage ht
  refine ((HeapFile.insertRecord_changes (hd.storage.heap _ hp)
    (RecordCodec.serialize_ne_nil hser)).mono fun r h₁ hr => ?_).bind
  rcases hr with ⟨rid, chain, rfl, hnone, hc⟩ | ⟨e, rfl, hcode, hpage⟩
  swap
  · exact runs_pure (.inr ⟨e, c, rfl, hcode, DatabaseHolds.of_page_eq hd hpage, fun _ _ => rfl⟩)
  have hs₁ := hd.storage.changeHeap hp hc
  have hrow₁ := rowChanged_setChain hc
  have hpos := hc.holds.positive hc.member
  have hlive : ((c.setChain table.firstPageId chain).chain table.firstPageId).record rid =
      some data := by
    rw [hrow₁.changed, if_pos rfl]
  have hk := keysAre_none hd (notLive_of_inserted ht hs₁ hrow₁ hnone)
  have hk₁ : KeysAre (catalog.parts d) c (c.setChain table.firstPageId chain) rid
      fun _ => none := hk
  have hrun : Runs (poolContext ext) (insertKeys rid [] keys) _ h₁ :=
    insertKeys_runs hp keys [] h₁ _ _ hs₁ hk₁ hlive
      (by rw [List.append_nil, map_index hkeys]; exact hnodup)
      (fun i hi => usable_of_encoded hb hkeys hpos (by simpa using hi)) (fun _ _ => rfl)
        (fun _ he => by cases he) rfl
  refine (hrun.mono fun r h₂ hr => ?_).bind
  rcases hr with ⟨rfl, c₂, hs₂, hchain, hk₂⟩ | ⟨e, c₂, rfl, hcode, hs₂, hrow₂, hk₂⟩
  · rw [← hchain] at hrow₁
    refine runs_pure (.inl ⟨rid, data, c₂, rfl, rfl, hnone, ?_, hrow₁⟩)
    refine holds_changeRow hd ht hs₂ hrow₁ hk₂ (fun data' he => ?_) (fun b hbind => ?_)
      fun x hx hno => ?_
    · cases he
      exact ⟨values, hser⟩
    · exact keyOf_assign hnodup hkeys ((hb b).mpr hbind)
    · exact assign_elsewhere hb hkeys hno
  · have hrow := hrow₁.trans hrow₂
    refine runs_pure (.inr ⟨e, c₂, rfl, hcode, ?_, sameRows_of_changed hrow hnone⟩)
    exact holds_changeRow hd ht hs₂ hrow hk₂ (fun _ he => by cases he) (fun _ _ => rfl)
      fun _ _ _ => rfl

/-! ## Records of a table -/

/-- The check that a record belongs to the table. -/
theorem validateRecordBelongsToTable_runs (hd : DatabaseHolds h catalog d c)
    (ht : catalog.tables.lookup name = some table) (rid : RecordID) :
    Runs (poolContext ext) (validateRecordBelongsToTable table.firstPageId rid)
    (fun r h' => h' = h ∧ if rid.pageId ∈ (c.chain table.firstPageId).ids then r = .ok ()
      else ∃ e, r = .error e ∧ e.code = .invalidArgument) h := by
  have hh := hd.storage.heap _ (isFirstPage ht)
  rw [validateRecordBelongsToTable]
  split
  · rename_i hle
    refine runs_pure ⟨rfl, ?_⟩
    rw [if_neg]
    · exact ⟨_, rfl, rfl⟩
    · intro hin
      have := hh.positive hin
      omega
  · rename_i hpos
    refine ((HeapFile.containsPage_runs hh (by omega)).mono fun r h' hr => ?_).bind
    obtain ⟨rfl, rfl⟩ := hr
    by_cases hin : rid.pageId ∈ (c.chain table.firstPageId).ids
    · rw [decide_eq_true hin]
      exact runs_pure ⟨rfl, by rw [if_pos hin]⟩
    · rw [decide_eq_false hin]
      exact runs_pure ⟨rfl, by rw [if_neg hin]; exact ⟨_, rfl, rfl⟩⟩

/-- The keys of a live record are encoded without error. -/
theorem encodeIndexKeys_live (hd : DatabaseHolds h catalog d c)
    (ht : catalog.tables.lookup name = some table)
    (hb : ∀ binding, binding ∈ bindings ↔ IsBinding catalog name table.schema binding)
    (hr : (c.chain table.firstPageId).record rid = some old) :
    ∃ keys, encodeIndexKeys table.schema old bindings = .ok keys ∧
      List.Forall₂ (EncodedOf table.schema old) bindings keys := by
  have hall : ∀ binding ∈ bindings, ∃ encoded,
      encodeIndexKey table.schema old binding = .ok encoded ∧
        EncodedOf table.schema old binding encoded := by
    intro binding hin
    obtain ⟨key, index, hi, rfl, k, hk, rfl⟩ := (hb binding).mp hin
    obtain ⟨v, hv, hkey⟩ := (hd.indexed hi ht hk).encodable rid old hr
    have henc : ∃ encoded, encodeIndexKey table.schema old
        ⟨index.name, index.columnName, k, index.headerPageId⟩ = .ok encoded :=
      encodeIndexKey_of_encodable hv hkey
    obtain ⟨encoded, he⟩ := henc
    exact ⟨encoded, he, encodeIndexKey_ok he⟩
  exact exists_mapM_ok bindings hall

/-! ## Update -/

section

variable {oldKeys newKeys : List EncodedIndexKey} {schema : Schema}

theorem map_index_keyChanges (hold : List.Forall₂ (EncodedOf schema old) bindings oldKeys)
    (hnew : List.Forall₂ (EncodedOf schema data) bindings newKeys) :
    (keyChanges oldKeys newKeys).map (fun x => x.binding.index) = bindings.map IndexBinding.index ∧
      (keyChanges oldKeys newKeys).map (fun x => (x.binding.index, x.newKey)) =
        newKeys.map EncodedIndexKey.entry := by
  induction hold generalizing newKeys with
  | nil =>
    cases hnew
    exact ⟨rfl, rfl⟩
  | cons he _ ih =>
    cases hnew with
    | cons he' hnew' =>
      obtain ⟨h₁, h₂⟩ := ih hnew'
      rw [keyChanges, List.zipWith_cons_cons, ← keyChanges]
      simp only [List.map_cons, h₁, h₂, he.1, EncodedIndexKey.entry, he'.1]
      exact ⟨trivial, trivial⟩

theorem mem_keyChanges (hold : List.Forall₂ (EncodedOf schema old) bindings oldKeys)
    (hnew : List.Forall₂ (EncodedOf schema data) bindings newKeys) {change : KeyChange}
    (hin : change ∈ keyChanges oldKeys newKeys) : change.binding ∈ bindings ∧
      ⟨change.binding, change.oldKey⟩ ∈ oldKeys ∧
      KeyOf schema change.binding.columnIndex old change.oldKey ∧
      KeyOf schema change.binding.columnIndex data change.newKey := by
  induction hold generalizing newKeys with
  | nil => cases hin
  | @cons binding encoded _ _ he _ ih =>
    cases hnew with
    | cons he' hnew' =>
      rw [keyChanges, List.zipWith_cons_cons, ← keyChanges] at hin
      rcases List.mem_cons.mp hin with rfl | hin
      · obtain ⟨rfl, hkey⟩ := he
        obtain ⟨hb, hkey'⟩ := he'
        exact ⟨List.mem_cons_self, List.mem_cons_self, hkey, hkey'⟩
      · obtain ⟨h₁, h₂, h₃⟩ := ih hnew' hin
        exact ⟨List.mem_cons_of_mem _ h₁, List.mem_cons_of_mem _ h₂, h₃⟩

end

/-- `UpdateRecord` replaces one live record and its keys, or changes nothing. -/
theorem updateRecord_effect (hd : DatabaseHolds h catalog d c)
    (ht : catalog.tables.lookup name = some table) (rid : RecordID) (values : List FieldValue) :
    Runs (poolContext ext) (updateRecord catalog name rid values) (fun r h' =>
      (∃ old data c', r = .ok () ∧ RecordCodec.serialize table.schema values = .ok data ∧
        (c.chain table.firstPageId).record rid = some old ∧ DatabaseHolds h' catalog d c' ∧
        RowChanged c.chain table.firstPageId rid (some data) c'.chain) ∨
      (∃ e c', r = .error e ∧ e.code ≠ .ioError ∧ DatabaseHolds h' catalog d c' ∧
        SameRows c c')) h := by
  obtain ⟨bindings, hload, hnodup, hb⟩ := loadTable_ok hd ht
  have hp := isFirstPage ht
  have hheap := hd.storage.heap _ hp
  rw [updateRecord, hload]
  dsimp only
  refine ((validateRecordBelongsToTable_runs hd ht rid).mono fun r h₁ hr => ?_).bind
  obtain ⟨rfl, hr⟩ := hr
  by_cases hin : rid.pageId ∈ (c.chain table.firstPageId).ids
  swap
  · rw [if_neg hin] at hr
    obtain ⟨e, rfl, hcode⟩ := hr
    exact runs_pure (.inr ⟨e, c, rfl, by rw [hcode]; decide, hd, fun _ _ => rfl⟩)
  rw [if_pos hin] at hr
  subst hr
  dsimp only
  refine ((HeapFile.getRecord_runs hheap.holds hin).mono fun r h₂ hr => ?_).bind
  obtain ⟨rfl, hr⟩ := hr
  cases hold : (c.chain table.firstPageId).record rid with
  | none =>
    rw [hold] at hr
    obtain ⟨e, rfl, hcode⟩ := hr
    exact runs_pure (.inr ⟨e, c, rfl, by rw [hcode]; decide, hd, fun _ _ => rfl⟩)
  | some old =>
  rw [hold] at hr
  obtain rfl : r = .ok { rid := rid, data := old } := hr
  simp only [Bind.bind, Except.bind]
  cases hser : RecordCodec.serialize table.schema values with
  | error e =>
    exact runs_pure (.inr ⟨e, c, rfl, RecordCodec.serialize_error hser, hd, fun _ _ => rfl⟩)
  | ok data =>
  have hdec := RecordCodec.deserialize_serialize hser
  obtain ⟨oldKeys, hencOld, holdKeys⟩ := encodeIndexKeys_live hd ht hb hold
  dsimp only
  rw [hencOld]
  dsimp only
  cases henc : encodeIndexKeys table.schema data bindings with
  | error e =>
    have hcode := encodeIndexKeys_error hdec (fun b hin => lt_of_isBinding ((hb b).mp hin)) henc
    exact runs_pure (.inr ⟨e, c, rfl, by rw [hcode]; decide, hd, fun _ _ => rfl⟩)
  | ok newKeys =>
  have hnewKeys := encodeIndexKeys_ok henc
  have hpos := hheap.positive hin
  obtain ⟨hmap, hmapNew⟩ := map_index_keyChanges holdKeys hnewKeys
  have hk := keysAre_of_live hd ht hold hb hnodup holdKeys
  dsimp only
  refine ((HeapFile.updateRecord_changes hheap hin hold (RecordCodec.serialize_ne_nil hser)).mono
    fun r h₁ hr => ?_).bind
  rcases hr with ⟨rfl, hc⟩ | ⟨e, rfl, hcode, rfl⟩
  swap
  · exact runs_pure (.inr ⟨e, c, rfl, hcode, hd, fun _ _ => rfl⟩)
  have hs₁ := hd.storage.changeHeap hp hc
  have hrow₁ := rowChanged_setChain hc
  have hk₁ : KeysAre (catalog.parts d) c (c.setChain table.firstPageId
    (HeapFile.replaced (c.chain table.firstPageId) rid data)) rid _ := hk
  have hchanges : ∀ x ∈ keyChanges oldKeys newKeys, x.Usable (catalog.parts d) rid ∧
      assign (fun _ => none) (oldKeys.map EncodedIndexKey.entry) x.binding.index = x.oldKey := by
    intro x hx
    obtain ⟨hbin, hmem, hkey, hkey'⟩ := mem_keyChanges holdKeys hnewKeys hx
    refine ⟨⟨isHeader_of_isBinding ((hb _).mp hbin), validPair_of_keyOf hkey hpos,
      validPair_of_keyOf hkey' hpos⟩, ?_⟩
    have hfst := map_fst_entry holdKeys
    exact assign_of_mem (by rw [hfst]; exact hnodup) (List.mem_map_of_mem hmem)
  have hrun : Runs (poolContext ext) (applyChanges rid [] (keyChanges oldKeys newKeys)) _ h₁ :=
    applyChanges_runs _ [] h₁ _ _ hs₁ hk₁
      (by rw [List.map_nil, List.append_nil, hmap]; exact hnodup)
      hchanges (fun _ he => by cases he) rfl
  refine (hrun.mono fun r h₂ hr => ?_).bind
  obtain ⟨r, applied⟩ := r
  rcases hr with ⟨hr, c₂, hs₂, hchain, hk₂⟩ |
    ⟨e, c₂, o, hr, hcode, hs₂, hchain, hk₂, hundo, hnodupApplied, hback⟩
  · obtain rfl : r = .ok () := hr
    rw [← hchain] at hrow₁
    rw [hmapNew] at hk₂
    refine runs_pure (.inl ⟨old, data, c₂, rfl, rfl, rfl, ?_, hrow₁⟩)
    refine holds_changeRow hd ht hs₂ hrow₁ hk₂ (fun data' he => ?_) (fun b hbind => ?_)
      fun x hx hno => ?_
    · cases he
      exact ⟨values, hser⟩
    · exact keyOf_assign hnodup hnewKeys ((hb b).mpr hbind)
    · rw [assign_elsewhere hb hnewKeys hno, assign_elsewhere hb holdKeys hno]
  · obtain rfl : r = .error e := hr
    have hrow : c₂.chain table.firstPageId =
        HeapFile.replaced (c.chain table.firstPageId) rid data := by
      rw [hchain, Contents.chain_setChain_self]
    refine ((rollbackUpdate_runs hp hs₂ hk₂ hheap hold hrow hnodupApplied hundo).mono
      fun r h₃ hr => ?_).bind
    obtain ⟨rfl, c₃, hs₃, hrow₃, hk₃⟩ := hr
    rw [hback, List.map_nil, assign_nil] at hk₃
    rw [hchain] at hrow₃
    have hrow := hrow₁.trans hrow₃
    refine runs_pure (.inr ⟨_, c₃, rfl, hcode, ?_, sameRows_of_changed hrow hold⟩)
    refine holds_changeRow hd ht hs₃ hrow hk₃ (fun data' he => ?_) (fun b hbind => ?_)
      fun x hx hno => ?_
    · cases he
      exact hd.serialized ht rid old hold
    · exact keyOf_assign hnodup holdKeys ((hb b).mpr hbind)
    · rw [assign_elsewhere hb holdKeys hno]

/-! ## Deletion -/

theorem map_fst_removed {schema : Schema}
    (hk : List.Forall₂ (EncodedOf schema data) bindings keys) :
    (keys.map fun i => (i.binding.index, (none : Option Bytes))).map Prod.fst =
      bindings.map IndexBinding.index := by
  rw [List.map_map, ← map_index hk]
  rfl

/-- The indexes on the table have lost their keys. -/
theorem assign_removed {schema : Schema} {o : PageId → Option Bytes}
    (hnodup : (bindings.map IndexBinding.index).Nodup)
    (hk : List.Forall₂ (EncodedOf schema data) bindings keys) {binding : IndexBinding}
    (hb : binding ∈ bindings) :
    assign o (keys.map fun i => (i.binding.index, none)) binding.index = none := by
  obtain ⟨encoded, hmem, rfl, -⟩ := forall₂_exists_left hk.flip hb
  have hin : (encoded.binding.index, (none : Option Bytes)) ∈
      keys.map fun i => (i.binding.index, (none : Option Bytes)) := List.mem_map_of_mem hmem
  exact assign_of_mem (by rw [map_fst_removed hk]; exact hnodup) hin

/-- The other indexes are as they were. -/
theorem assign_removed_elsewhere {o : PageId → Option Bytes} {x : PageId}
    (hb : ∀ binding, binding ∈ bindings ↔ IsBinding catalog name table.schema binding)
    (hk : List.Forall₂ (EncodedOf table.schema data) bindings keys)
    (hno : ∀ binding, IsBinding catalog name table.schema binding → binding.index ≠ x) :
    assign o (keys.map fun i => (i.binding.index, none)) x = o x := by
  apply assign_of_notMem
  rw [map_fst_removed hk]
  intro hin
  obtain ⟨binding, hbin, he⟩ := List.mem_map.mp hin
  exact hno binding ((hb _).mp hbin) he

/-- `DeleteRecord` removes one live record and its keys, or changes nothing. -/
theorem deleteRecord_effect (hd : DatabaseHolds h catalog d c)
    (ht : catalog.tables.lookup name = some table) (rid : RecordID) :
    Runs (poolContext ext) (deleteRecord catalog name rid) (fun r h' =>
      (∃ old c', r = .ok () ∧ (c.chain table.firstPageId).record rid = some old ∧
        DatabaseHolds h' catalog d c' ∧
        RowChanged c.chain table.firstPageId rid none c'.chain) ∨
      (∃ e, r = .error e ∧ e.code ≠ .ioError ∧ h' = h ∧
        (c.chain table.firstPageId).record rid = none)) h := by
  obtain ⟨bindings, hload, hnodup, hb⟩ := loadTable_ok hd ht
  have hp := isFirstPage ht
  have hheap := hd.storage.heap _ hp
  rw [deleteRecord, hload]
  dsimp only
  refine ((validateRecordBelongsToTable_runs hd ht rid).mono fun r h₁ hr => ?_).bind
  obtain ⟨rfl, hr⟩ := hr
  by_cases hin : rid.pageId ∈ (c.chain table.firstPageId).ids
  swap
  · rw [if_neg hin] at hr
    obtain ⟨e, rfl, hcode⟩ := hr
    exact runs_pure (.inr ⟨e, rfl, by rw [hcode]; nofun, rfl, Chain.record_of_notMem hin⟩)
  rw [if_pos hin] at hr
  subst hr
  dsimp only
  refine ((HeapFile.getRecord_runs hheap.holds hin).mono fun r h₂ hr => ?_).bind
  obtain ⟨rfl, hr⟩ := hr
  cases hold : (c.chain table.firstPageId).record rid with
  | none =>
    rw [hold] at hr
    obtain ⟨e, rfl, hcode⟩ := hr
    exact runs_pure (.inr ⟨e, rfl, by rw [hcode]; nofun, rfl, rfl⟩)
  | some old =>
  rw [hold] at hr
  obtain rfl : r = .ok { rid := rid, data := old } := hr
  obtain ⟨keys, henc, hkeys⟩ := encodeIndexKeys_live hd ht hb hold
  have hpos := hheap.positive hin
  have hk := keysAre_of_live hd ht hold hb hnodup hkeys
  have hfst := map_fst_entry hkeys
  dsimp only
  rw [henc]
  dsimp only
  have hrun : Runs (poolContext ext) (removeKeys rid [] keys) _ h₂ :=
    removeKeys_runs keys [] h₂ c _ hd.storage hk (by rw [map_index hkeys]; exact hnodup)
      fun i hi => ⟨usable_of_encoded hb hkeys hpos hi,
        assign_of_mem (by rw [hfst]; exact hnodup) (List.mem_map_of_mem hi)⟩
  refine (hrun.mono fun r h₃ hr => ?_).bind
  obtain ⟨⟨removed, rfl⟩, c₁, hs₁, hchain, hk₁⟩ := hr
  dsimp only
  refine ((deleteRow_runs hs₁ hp hk₁ (by rw [hchain]; exact hold)).mono fun r h₄ hr => ?_).bind
  obtain ⟨rfl, c₂, hs₂, hk₂, hrow⟩ := hr
  rw [hchain] at hrow
  refine runs_pure (.inl ⟨old, c₂, rfl, rfl, ?_, hrow⟩)
  refine holds_changeRow hd ht hs₂ hrow hk₂ nofun (fun b hbind => ?_) fun x hx hno => ?_
  · exact assign_removed hnodup hkeys ((hb b).mpr hbind)
  · rw [assign_removed_elsewhere hb hkeys hno, assign_elsewhere hb hkeys hno]

end TableStorage

end MiniDbms
