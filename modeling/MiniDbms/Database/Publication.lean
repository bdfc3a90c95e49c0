import MiniDbms.Database.Consistency

/-!
# New tables and indexes

A new table or index is published by the catalog on page 0: a consistent database with a new heap
file or a loaded index is consistent again under the new catalog (`DatabaseHolds.publishTable`,
`DatabaseHolds.publishIndex`). `DatabaseState` is what the SQL statements keep: a consistent
database whose catalog is on page 0 and whose table names are words.
-/

namespace MiniDbms

open Lib PagedProgram Program HashIndex HeapFile StringMap CatalogManager

/-- A database as SQL statements make it. -/
structure DatabaseState (h : Pages) (catalog : CatalogManager) (d : PageData) (c : Contents) : Prop
    extends DatabaseHolds h catalog d c where
  shown : Shows d catalog
  columnsNamed : ColumnsNamed catalog
  undotted : ∀ {name table}, catalog.tables.lookup name = some table → 46 ∉ name

section

variable {h h' : Pages} {catalog : CatalogManager} {d d' : PageData} {c : Contents} {p : PageId}
  {name : Bytes} {schema : Schema}

/-- The catalog with a new table. -/
def CatalogManager.withTable (catalog : CatalogManager) (name : Bytes) (schema : Schema)
    (p : PageId) :
    CatalogManager :=
  { catalog with tables := catalog.tables.insert name ⟨name, schema, p⟩ }

/-- The catalog with a new index. -/
def CatalogManager.withIndex (catalog : CatalogManager) (indexName tableName columnName : Bytes)
    (index : PageId) : CatalogManager :=
  { catalog with
    indexNames := catalog.indexNames.insert indexName (makeIndexKey tableName columnName)
    indexes := catalog.indexes.insert (makeIndexKey tableName columnName)
      ⟨indexName, tableName, columnName, index⟩ }

/-- The first page of a table exists. -/
theorem DatabaseHolds.page_firstPage (hd : DatabaseHolds h catalog d c) {table : TableMetadata}
    (ht : catalog.tables.lookup name = some table) : h.page table.firstPageId ≠ none := by
  have hh := hd.storage.heap table.firstPageId ⟨name, table, ht, rfl⟩
  exact hh.page_ne_none hh.first_mem

/-- The header page of an index exists. -/
theorem DatabaseHolds.page_header (hd : DatabaseHolds h catalog d c) {x : PageId}
    (hx : catalog.IsHeader x) : h.page x ≠ none :=
  ((hd.storage.index x hx).page_ne_none (Buckets.mem_pages.mpr (.inl rfl))).1

theorem DatabaseHolds.publishTable (hd : DatabaseHolds h catalog d c) (hname : name ≠ [])
    (hnew : name ∉ catalog.tables) (hp : h.page p = none) (hh : HeapHolds h' p [(p, [])])
    (hf : Footprint h [] h' [p]) :
    DatabaseHolds (h'.set headerPageId d') (catalog.withTable name schema p) d'
      (c.setChain p [(p, [])]) := by
  have hpos : 0 < p.toInt := hh.positive List.mem_cons_self
  have hold : ¬ catalog.IsFirstPage p := by
    rintro ⟨name', table, ht, rfl⟩
    exact hd.page_firstPage ht hp
  have hlookup : ∀ {name' table}, (catalog.withTable name schema p).tables.lookup name' =
      some table → (name' = name ∧ table = ⟨name, schema, p⟩) ∨
        (name' ≠ name ∧ catalog.tables.lookup name' = some table) := lookup_insert_eq_some.mp
  -- the first page of an old table is not the new page
  have hne : ∀ {name' table}, catalog.tables.lookup name' = some table → table.firstPageId ≠ p := by
    rintro name' table ht rfl
    exact hd.page_firstPage ht hp
  refine ⟨hd.wellFormed.insertTable hname hpos hnew, ?_, ?_, hd.headers, ?_, ?_⟩
  · refine ((hd.storage.addTable hold hh hf).setCatalogPage d').congr_parts rfl (fun q => ?_)
      fun x => Iff.rfl
    constructor
    · rintro ⟨name', table, ht, rfl⟩
      rcases hlookup ht with ⟨-, rfl⟩ | ⟨-, ht⟩
      · exact .inr rfl
      · exact .inl ⟨name', table, ht, rfl⟩
    · rintro (⟨name', table, ht, rfl⟩ | rfl)
      · exact ⟨name', table, lookup_insert_of_some hnew ht, rfl⟩
      · exact ⟨name, _, AList.lookup_insert _, rfl⟩
  · intro name₁ name₂ table₁ table₂ h₁ h₂ he
    rcases hlookup h₁ with ⟨hn₁, rfl⟩ | ⟨-, h₁⟩ <;> rcases hlookup h₂ with ⟨hn₂, rfl⟩ | ⟨-, h₂⟩
    · rw [hn₁, hn₂]
    · exact absurd he.symm (hne h₂)
    · exact absurd he (hne h₁)
    · exact hd.firstPages h₁ h₂ he
  · intro name' table ht rid data hdata
    rcases hlookup ht with ⟨-, rfl⟩ | ⟨-, ht⟩
    · rw [Contents.chain_setChain_self, Chain.record_cons] at hdata
      split at hdata <;> simp [SlottedPage.recordAt, Chain.record, Chain.slots] at hdata
    · rw [Contents.chain_setChain_of_ne (hne ht)] at hdata
      exact hd.serialized ht rid data hdata
  · intro key index table k hi ht hk
    rcases hlookup ht with ⟨he, -⟩ | ⟨-, ht⟩
    · obtain ⟨table', -, ht', -⟩ := hd.wellFormed.index_column hi
      rw [he] at ht'
      exact absurd (mem_iff_lookup.mpr ⟨table', ht'⟩) hnew
    · rw [Contents.chain_setChain_of_ne (hne ht)]
      exact hd.indexed hi ht hk

theorem DatabaseHolds.publishIndex {indexName columnName : Bytes} {x : PageId} {b : Buckets}
    {table : TableMetadata} {k : Nat} (hd : DatabaseHolds h catalog d c)
    (hnames : ¬ (indexName = [] ∨ name = [] ∨ columnName = []))
    (ht : catalog.tables.lookup name = some table)
    (hk : table.schema.columnIndex columnName = some k)
    (hkey : makeIndexKey name columnName ∉ catalog.indexes) (hname : indexName ∉ catalog.indexNames)
    (hx : h.page x = none)
    (hs : StorageHolds h' ((catalog.parts d).addIndex x) (c.setBuckets x b))
    (hindexed : Indexed table.schema (c.chain table.firstPageId) k b.pairs) :
    DatabaseHolds (h'.set headerPageId d') (catalog.withIndex indexName name columnName x) d'
      (c.setBuckets x b) := by
  have hheader : 0 < x.toInt := (hs.index x (.inr rfl)).positive
  have hcolumn : HasColumn catalog name columnName :=
    ⟨table, ht, Schema.columnIndex_isSome.mp (Option.isSome_iff_exists.mpr ⟨k, hk⟩)⟩
  have hlookup : ∀ {key index},
      (catalog.withIndex indexName name columnName x).indexes.lookup key = some index →
        (key = makeIndexKey name columnName ∧ index = ⟨indexName, name, columnName, x⟩) ∨
          (key ≠ makeIndexKey name columnName ∧ catalog.indexes.lookup key = some index) :=
    lookup_insert_eq_some.mp
  have hne : ∀ {key index}, catalog.indexes.lookup key = some index → index.headerPageId ≠ x := by
    rintro key index hi rfl
    exact hd.page_header ⟨key, index, hi, rfl⟩ hx
  refine ⟨hd.wellFormed.insertIndex hnames hheader hcolumn hkey hname, ?_, hd.firstPages, ?_,
    hd.serialized, ?_⟩
  · refine (hs.setCatalogPage d').congr_parts rfl (fun q => Iff.rfl) fun y => ?_
    constructor
    · rintro ⟨key, index, hi, rfl⟩
      rcases hlookup hi with ⟨-, rfl⟩ | ⟨-, hi⟩
      · exact .inr rfl
      · exact .inl ⟨key, index, hi, rfl⟩
    · rintro (⟨key, index, hi, rfl⟩ | rfl)
      · exact ⟨key, index, lookup_insert_of_some hkey hi, rfl⟩
      · exact ⟨_, _, AList.lookup_insert _, rfl⟩
  · intro key₁ key₂ index₁ index₂ h₁ h₂ he
    rcases hlookup h₁ with ⟨hk₁, rfl⟩ | ⟨-, h₁⟩ <;> rcases hlookup h₂ with ⟨hk₂, rfl⟩ | ⟨-, h₂⟩
    · rw [hk₁, hk₂]
    · exact absurd he.symm (hne h₂)
    · exact absurd he (hne h₁)
    · exact hd.headers h₁ h₂ he
  · intro key index table' k' hi ht' hk'
    rcases hlookup hi with ⟨-, rfl⟩ | ⟨-, hi⟩
    · cases ht.symm.trans ht'
      cases hk.symm.trans hk'
      rw [Contents.buckets_setBuckets_self]
      exact hindexed
    · rw [Contents.buckets_setBuckets_of_ne (hne hi)]
      exact hd.indexed hi ht' hk'

end

end MiniDbms
