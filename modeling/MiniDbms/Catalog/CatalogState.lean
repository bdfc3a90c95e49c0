import MiniDbms.Catalog.CatalogManager

/-!
# The maps of the catalog

`CatalogManager.WellFormed`: what the checks of `CreateTable` and `CreateIndex` maintain about
the three maps. `Same` is equality of two catalogs as maps. `sortedValues` lists the values of a
map, each once.
-/

namespace MiniDbms

/-! ## String maps -/

namespace StringMap

variable {α : Type} {map : StringMap α} {key key' : Bytes} {value value' : α}

theorem mem_iff_lookup : key ∈ map ↔ ∃ value, map.lookup key = some value := by
  rw [← AList.lookup_isSome, Option.isSome_iff_exists]

theorem lookup_insert_eq_some : (map.insert key value).lookup key' = some value' ↔
    (key' = key ∧ value' = value) ∨ (key' ≠ key ∧ map.lookup key' = some value') := by
  by_cases hk : key' = key
  · subst hk
    rw [AList.lookup_insert]
    constructor
    · intro h
      exact .inl ⟨rfl, (Option.some.inj h).symm⟩
    · rintro (⟨-, rfl⟩ | ⟨hne, -⟩)
      · rfl
      · exact absurd rfl hne
  · rw [AList.lookup_insert_ne hk]
    simp [hk]

/-- An old key keeps its value when a new one is inserted. -/
theorem lookup_insert_of_some (hnew : key ∉ map) (h : map.lookup key' = some value') :
    (map.insert key value).lookup key' = some value' := by
  rw [AList.lookup_insert_ne, h]
  rintro rfl
  exact hnew (mem_iff_lookup.mpr ⟨value', h⟩)

end StringMap

namespace CatalogManager

open StringMap

section

variable {α : Type} {map : StringMap α}

theorem mem_sortedValues {value : α} :
    value ∈ sortedValues map ↔ ∃ key, map.lookup key = some value := by
  rw [sortedValues, List.mem_filterMap]
  constructor
  · rintro ⟨key, -, h⟩
    exact ⟨key, h⟩
  · rintro ⟨key, h⟩
    refine ⟨key, ?_, h⟩
    rw [List.mem_insertionSort]
    exact AList.mem_keys.mpr (mem_iff_lookup.mpr ⟨value, h⟩)

/-- The values of a map whose keys are functions of the values: each key once. -/
theorem map_sortedValues (key : α → Bytes)
    (hkey : ∀ {k value}, map.lookup k = some value → key value = k) :
    (sortedValues map).map key = map.keys.insertionSort (· ≤ ·) := by
  have hall : ∀ l : List Bytes, (∀ k ∈ l, k ∈ map) → (l.filterMap map.lookup).map key = l := by
    intro l
    induction l with
    | nil => exact fun _ => rfl
    | cons k l ih =>
      intro hl
      obtain ⟨value, hv⟩ := mem_iff_lookup.mp (hl k List.mem_cons_self)
      rw [List.filterMap_cons_some (f := fun a => AList.lookup a map) hv, List.map_cons, hkey hv,
        ih fun k' hk' => hl k' (List.mem_cons_of_mem _ hk')]
  apply hall
  intro k hk
  exact AList.mem_keys.mpr ((List.mem_insertionSort _).mp hk)

theorem nodup_sortedValues (key : α → Bytes)
    (hkey : ∀ {k value}, map.lookup k = some value → key value = k) :
    ((sortedValues map).map key).Nodup := by
  rw [map_sortedValues key hkey]
  exact (List.perm_insertionSort _ _).nodup_iff.mpr map.nodupKeys

theorem length_sortedValues (key : α → Bytes)
    (hkey : ∀ {k value}, map.lookup k = some value → key value = k) :
    (sortedValues map).length = map.keys.length := by
  rw [← List.length_map, map_sortedValues key hkey, List.length_insertionSort]

end

/-! ## Well-formed catalogs -/

/-- The table with the given name has a column with the given name. -/
def HasColumn (catalog : CatalogManager) (tableName columnName : Bytes) : Prop :=
  ∃ table, catalog.tables.lookup tableName = some table ∧
    ∃ column ∈ table.schema, column.name = columnName

structure WellFormed (catalog : CatalogManager) : Prop where
  status : catalog.initializationStatus = .ok ()
  table : ∀ {name table}, catalog.tables.lookup name = some table →
    table.name = name ∧ name ≠ [] ∧ 0 < table.firstPageId.toInt
  index : ∀ {key index}, catalog.indexes.lookup key = some index →
    makeIndexKey index.tableName index.columnName = key ∧
      ¬ (index.name = [] ∨ index.tableName = [] ∨ index.columnName = []) ∧
      0 < index.headerPageId.toInt ∧ catalog.indexNames.lookup index.name = some key ∧
      HasColumn catalog index.tableName index.columnName
  indexName : ∀ {name key}, catalog.indexNames.lookup name = some key →
    ∃ index, catalog.indexes.lookup key = some index ∧ index.name = name

/-- The same catalog, up to the order of the entries. -/
structure Same (catalog catalog' : CatalogManager) : Prop where
  status : catalog'.initializationStatus = catalog.initializationStatus
  tables : ∀ name, catalog'.tables.lookup name = catalog.tables.lookup name
  indexes : ∀ key, catalog'.indexes.lookup key = catalog.indexes.lookup key
  indexNames : ∀ name, catalog'.indexNames.lookup name = catalog.indexNames.lookup name

theorem wellFormed_empty : WellFormed {} where
  status := rfl
  table h := by simp at h
  index h := by simp at h
  indexName h := by simp at h

section

variable {catalog : CatalogManager}

theorem WellFormed.insertTable (h : WellFormed catalog) {tableName : Bytes} {schema : Schema}
    {firstPageId : PageId} (hname : tableName ≠ []) (hpage : 0 < firstPageId.toInt)
    (hnew : tableName ∉ catalog.tables) :
    WellFormed { catalog with
      tables := catalog.tables.insert tableName ⟨tableName, schema, firstPageId⟩ } where
  status := h.status
  table hl := by
    rcases lookup_insert_eq_some.mp hl with ⟨rfl, rfl⟩ | ⟨-, hl⟩
    · exact ⟨rfl, hname, hpage⟩
    · exact h.table hl
  index hl := by
    obtain ⟨hkey, hnames, hheader, hn, table, ht, hcolumn⟩ := h.index hl
    exact ⟨hkey, hnames, hheader, hn, table, lookup_insert_of_some hnew ht, hcolumn⟩
  indexName hl := h.indexName hl

theorem WellFormed.insertIndex (h : WellFormed catalog) {indexName tableName columnName : Bytes}
    {index : PageId} (hnames : ¬ (indexName = [] ∨ tableName = [] ∨ columnName = []))
    (hheader : 0 < index.toInt) (hcolumn : HasColumn catalog tableName columnName)
    (hkey : makeIndexKey tableName columnName ∉ catalog.indexes)
    (hname : indexName ∉ catalog.indexNames) :
    WellFormed { catalog with
      indexNames := catalog.indexNames.insert indexName (makeIndexKey tableName columnName)
      indexes := catalog.indexes.insert (makeIndexKey tableName columnName)
        ⟨indexName, tableName, columnName, index⟩ } where
  status := h.status
  table hl := h.table hl
  index hl := by
    rcases lookup_insert_eq_some.mp hl with ⟨rfl, rfl⟩ | ⟨-, hl⟩
    · exact ⟨rfl, hnames, hheader, AList.lookup_insert _, hcolumn⟩
    · obtain ⟨hk, hns, hh, hn, hc⟩ := h.index hl
      exact ⟨hk, hns, hh, lookup_insert_of_some hname hn, hc⟩
  indexName hl := by
    rcases lookup_insert_eq_some.mp hl with ⟨rfl, rfl⟩ | ⟨-, hl⟩
    · exact ⟨_, AList.lookup_insert _, rfl⟩
    · obtain ⟨index, hi, hn⟩ := h.indexName hl
      exact ⟨index, lookup_insert_of_some hkey hi, hn⟩

/-- Two indexes with the same name are the same. -/
theorem WellFormed.index_eq (h : WellFormed catalog) {key key' : Bytes}
    {index index' : IndexMetadata}
    (hi : catalog.indexes.lookup key = some index) (hi' : catalog.indexes.lookup key' = some index')
    (hname : index.name = index'.name) : index = index' := by
  have hn := (h.index hi).2.2.2.1
  have hn' := (h.index hi').2.2.2.1
  rw [hname, hn'] at hn
  cases hn
  exact Option.some.inj (hi.symm.trans hi')

theorem WellFormed.nodup_indexNames (h : WellFormed catalog) :
    ((sortedValues catalog.indexes).map IndexMetadata.name).Nodup := by
  have hkeys : ((sortedValues catalog.indexes).map fun i =>
      makeIndexKey i.tableName i.columnName).Nodup := nodup_sortedValues _ fun hl => (h.index hl).1
  apply List.Nodup.map_on _ (List.Nodup.of_map _ hkeys)
  intro i hi i' hi' hname
  obtain ⟨key, hl⟩ := mem_sortedValues.mp hi
  obtain ⟨key', hl'⟩ := mem_sortedValues.mp hi'
  exact h.index_eq hl hl' hname

/-- Every index is on a column of a table. -/
theorem WellFormed.index_column (h : WellFormed catalog) {key : Bytes} {index : IndexMetadata}
    (hi : catalog.indexes.lookup key = some index) :
    ∃ table k, catalog.tables.lookup index.tableName = some table ∧
      table.schema.columnIndex index.columnName = some k := by
  obtain ⟨-, -, -, -, table, ht, hcolumn⟩ := h.index hi
  obtain ⟨k, hk⟩ := Option.isSome_iff_exists.mp (Schema.columnIndex_isSome.mpr hcolumn)
  exact ⟨table, k, ht, hk⟩

/-- `GetTableIndexes` lists the indexes of a table, each once. -/
theorem WellFormed.getTableIndexes_ok (h : WellFormed catalog) {name : Bytes}
    (hm : name ∈ catalog.tables) :
    ∃ l, catalog.getTableIndexes name = .ok l ∧ l.Nodup ∧ ∀ index, index ∈ l ↔
      (∃ key, catalog.indexes.lookup key = some index) ∧ index.tableName = name := by
  rw [getTableIndexes, h.status]
  dsimp only
  rw [if_pos hm]
  refine ⟨_, rfl, ?_, fun index => ?_⟩
  · have hentries : (catalog.indexes.entries.map Sigma.snd).Nodup := by
      apply List.Nodup.map_on _ catalog.indexes.nodupKeys.nodup
      rintro ⟨key, index⟩ he ⟨key', index'⟩ he' heq
      have hk := (h.index (AList.mem_lookup_iff.mpr he)).1
      have hk' := (h.index (AList.mem_lookup_iff.mpr he')).1
      obtain rfl : index = index' := heq
      rw [← hk, ← hk']
    exact (List.perm_insertionSort _ _).nodup_iff.mpr (hentries.filter _)
  · rw [List.mem_insertionSort, List.mem_filter, List.mem_map, decide_eq_true_eq]
    refine and_congr_left fun _ => ⟨?_, ?_⟩
    · rintro ⟨⟨key, index⟩, he, rfl⟩
      exact ⟨key, AList.mem_lookup_iff.mpr he⟩
    · rintro ⟨key, hl⟩
      exact ⟨⟨key, index⟩, AList.mem_lookup_iff.mp hl, rfl⟩

end

/-- A map filled by `emplace` with values of distinct keys. -/
theorem lookup_foldl_emplace {α : Type} (name : α → Bytes) (l : List α) :
    ∀ map : StringMap α, (l.map name).Nodup → (∀ a ∈ l, name a ∉ map) → ∀ n value,
      (l.foldl (fun m a => emplace m (name a) a) map).lookup n = some value ↔
        map.lookup n = some value ∨ (value ∈ l ∧ name value = n) := by
  induction l with
  | nil => exact fun map _ _ n value => by simp
  | cons a l ih =>
    intro map hnodup hnew n value
    rw [List.map_cons] at hnodup
    obtain ⟨hnot, hnodup'⟩ := List.nodup_cons.mp hnodup
    have ha : name a ∉ map := hnew a List.mem_cons_self
    have hput : emplace map (name a) a = map.insert (name a) a := if_neg ha
    rw [List.foldl_cons, hput, ih _ hnodup' fun b hb => ?_, lookup_insert_eq_some, List.mem_cons]
    · constructor
      · rintro ((⟨rfl, rfl⟩ | ⟨-, h⟩) | ⟨hv, hn⟩)
        · exact .inr ⟨.inl rfl, rfl⟩
        · exact .inl h
        · exact .inr ⟨.inr hv, hn⟩
      · rintro (h | ⟨rfl | hv, rfl⟩)
        · by_cases hn : n = name a
          · subst hn
            exact absurd (mem_iff_lookup.mpr ⟨value, h⟩) ha
          · exact .inl (.inr ⟨hn, h⟩)
        · exact .inl (.inl ⟨rfl, rfl⟩)
        · exact .inr ⟨hv, rfl⟩
    · rw [AList.mem_insert, not_or]
      refine ⟨fun he => hnot ?_, hnew b (List.mem_cons_of_mem _ hb)⟩
      rw [← he]
      exact List.mem_map_of_mem hb

end CatalogManager

end MiniDbms
