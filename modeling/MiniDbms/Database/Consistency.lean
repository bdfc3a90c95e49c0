import MiniDbms.Catalog.CatalogRuns
import MiniDbms.Database.RowKeys

/-!
# Consistent databases

`DatabaseHolds h catalog d c`: the pages `h` are divided among the tables and indexes of the
catalog, every record is a serialized row, and each index has exactly the pairs of the records of
its table (`Indexed`). `loadTable_ok` is what `LoadTable` returns there.
-/

namespace MiniDbms

open Lib PagedProgram Program HashIndex StringMap CatalogManager TableStorage

/-- The record has a key in an index on the column `k`. -/
def HasKey (schema : Schema) (k : Nat) (data key : Bytes) : Prop :=
  ∃ v, RecordCodec.getValue schema data k = .ok v ∧ IndexKey.encode v = .ok key

/-- An index on the column `k` has the pairs of the live records, and no others. -/
structure Indexed (schema : Schema) (chain : Chain) (k : Nat) (pairs : Set Entry) : Prop where
  encodable : ∀ rid data, chain.record rid = some data →
    ∃ v, RecordCodec.getValue schema data k = .ok v ∧
    (v = .null ∨ ∃ key, IndexKey.encode v = .ok key)
  pairs : ∀ e, e ∈ pairs ↔ ∃ data, chain.record e.2 = some data ∧ HasKey schema k data e.1

/-- The first page of a table of the catalog. -/
def CatalogManager.IsFirstPage (catalog : CatalogManager) (p : PageId) : Prop :=
  ∃ name table, catalog.tables.lookup name = some table ∧ table.firstPageId = p

/-- The parts of a database with the given catalog. -/
def CatalogManager.parts (catalog : CatalogManager) (d : PageData) : Parts where
  catalogPage := d
  tables := catalog.IsFirstPage
  indexes := catalog.IsHeader

/-- The pages hold the tables and indexes of the catalog, and these are consistent. -/
structure DatabaseHolds (h : Pages) (catalog : CatalogManager) (d : PageData) (c : Contents) :
    Prop where
  wellFormed : WellFormed catalog
  storage : StorageHolds h (catalog.parts d) c
  firstPages : ∀ {name name' table table'}, catalog.tables.lookup name = some table →
    catalog.tables.lookup name' = some table' → table.firstPageId = table'.firstPageId →
    name = name'
  headers : ∀ {key key' index index'}, catalog.indexes.lookup key = some index →
    catalog.indexes.lookup key' = some index' → index.headerPageId = index'.headerPageId →
    key = key'
  serialized : ∀ {name table}, catalog.tables.lookup name = some table → ∀ rid data,
    (c.chain table.firstPageId).record rid = some data →
      ∃ values, RecordCodec.serialize table.schema values = .ok data
  indexed : ∀ {key index table k}, catalog.indexes.lookup key = some index →
    catalog.tables.lookup index.tableName = some table →
    table.schema.columnIndex index.columnName = some k →
    Indexed table.schema (c.chain table.firstPageId) k (c.buckets index.headerPageId).pairs

section

variable {h h' : Pages} {catalog : CatalogManager} {d : PageData} {c c' : Contents}
  {name : Bytes} {table : TableMetadata} {rid : RecordID} {data : Bytes}

/-! ## `LoadTable` -/

/-- The binding of an index on a table with the given schema. -/
def BindingOf (schema : Schema) (index : IndexMetadata) (binding : IndexBinding) : Prop :=
  ∃ k, schema.columnIndex index.columnName = some k ∧
    binding = ⟨index.name, index.columnName, k, index.headerPageId⟩

/-- A binding of an index on the table. -/
def IsBinding (catalog : CatalogManager) (name : Bytes) (schema : Schema) (binding : IndexBinding) :
    Prop :=
  ∃ key index, catalog.indexes.lookup key = some index ∧ index.tableName = name ∧
    BindingOf schema index binding

theorem bindIndex_ok (hw : WellFormed catalog) (ht : catalog.tables.lookup name = some table)
    {key : Bytes} {index : IndexMetadata} (hi : catalog.indexes.lookup key = some index)
    (hname : index.tableName = name) :
    ∃ binding, bindIndex catalog name table.schema index = .ok binding ∧
      BindingOf table.schema index binding := by
  obtain ⟨table', k, ht', hk⟩ := hw.index_column hi
  obtain ⟨hkey, -⟩ := hw.index hi
  subst hname
  cases ht.symm.trans ht'
  rw [← hkey] at hi
  have hget : catalog.getIndex index.tableName index.columnName = some index.headerPageId := by
    rw [getIndex, hw.status]
    dsimp only
    rw [hi]
    rfl
  rw [bindIndex, hk]
  dsimp only
  rw [hget]
  exact ⟨_, rfl, k, hk, rfl⟩

/-- A loop that succeeds on each element. -/
theorem exists_mapM_ok {α β : Type} {f : α → Except Status β} {P : α → β → Prop} : ∀ (l : List α),
    (∀ a ∈ l, ∃ b, f a = .ok b ∧ P a b) → ∃ l', l.mapM f = .ok l' ∧ List.Forall₂ P l l' := by
  intro l
  induction l with
  | nil => exact fun _ => ⟨[], rfl, .nil⟩
  | cons a l ih =>
    intro hl
    obtain ⟨b, hb, hp⟩ := hl a List.mem_cons_self
    obtain ⟨l', hl', hall⟩ := ih fun a ha => hl a (List.mem_cons_of_mem _ ha)
    refine ⟨b :: l', ?_, .cons hp hall⟩
    rw [List.mapM_cons, hb, hl']
    rfl

theorem forall₂_exists_left {α β : Type} {P : α → β → Prop} {l : List α} {l' : List β}
    (h : List.Forall₂ P l l') {b : β} (hb : b ∈ l') : ∃ a ∈ l, P a b := by
  induction h with
  | nil => cases hb
  | cons hp _ ih =>
    rcases List.mem_cons.mp hb with rfl | hb
    · exact ⟨_, List.mem_cons_self, hp⟩
    · obtain ⟨a, ha, hpa⟩ := ih hb
      exact ⟨a, List.mem_cons_of_mem _ ha, hpa⟩

/-- `LoadTable` succeeds for a table of the catalog. -/
theorem loadTable_ok (hd : DatabaseHolds h catalog d c)
    (ht : catalog.tables.lookup name = some table) :
    ∃ bindings, loadTable catalog name = .ok ⟨table.schema, table.firstPageId, bindings⟩ ∧
      (bindings.map IndexBinding.index).Nodup ∧
      ∀ binding, binding ∈ bindings ↔ IsBinding catalog name table.schema binding := by
  have hw := hd.wellFormed
  have hm : name ∈ catalog.tables := mem_iff_lookup.mpr ⟨table, ht⟩
  obtain ⟨l, hl, hnodup, hmem⟩ := hw.getTableIndexes_ok hm
  obtain ⟨bindings, hb, hall⟩ := exists_mapM_ok l fun index hin => by
    obtain ⟨⟨key, hi⟩, hname⟩ := (hmem index).mp hin
    exact bindIndex_ok hw ht hi hname
  refine ⟨bindings, ?_, ?_, fun binding => ⟨fun hin => ?_, ?_⟩⟩
  · have hschema : catalog.getTableSchema name = .ok table.schema := by
      rw [getTableSchema, hw.status]
      dsimp only
      rw [ht]
    have hfirst : catalog.getTableFirstPageId name = .ok table.firstPageId := by
      rw [getTableFirstPageId, hw.status]
      dsimp only
      rw [ht]
    rw [loadTable, hw.status]
    show (if name = [] then _ else _) = _
    rw [if_neg (hw.table ht).2.1, hschema, hfirst, hl]
    simp only [Bind.bind, Except.bind]
    rw [hb]
    rfl
  · have hmap : bindings.map IndexBinding.index = l.map IndexMetadata.headerPageId := by
      clear hb hmem hl hnodup
      induction hall with
      | nil => rfl
      | cons hp _ ih =>
        obtain ⟨k, -, rfl⟩ := hp
        rw [List.map_cons, List.map_cons, ih]
    rw [hmap]
    apply List.Nodup.map_on _ hnodup
    intro i hi j hj he
    obtain ⟨⟨key, hli⟩, -⟩ := (hmem i).mp hi
    obtain ⟨⟨key', hlj⟩, -⟩ := (hmem j).mp hj
    cases hd.headers hli hlj he
    exact Option.some.inj (hli.symm.trans hlj)
  · obtain ⟨index, hindex, hof⟩ := forall₂_exists_left hall hin
    obtain ⟨⟨key, hi⟩, hname⟩ := (hmem index).mp hindex
    exact ⟨key, index, hi, hname, hof⟩
  · rintro ⟨key, index, hi, hname, k, hk, rfl⟩
    obtain ⟨binding, hin, k', hk', rfl⟩ :=
      forall₂_exists_left (hall.flip) ((hmem index).mpr ⟨⟨key, hi⟩, hname⟩)
    cases hk.symm.trans hk'
    exact hin

end

end MiniDbms
