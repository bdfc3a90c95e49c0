import MiniDbms.Catalog.CatalogRuns

/-!
# Decoding an arbitrary catalog page

What an image of page 0 holds when the loops of `Load` go through it without an error
(`readCatalog_ok`): a header, and behind it entries of tables and of indexes that fill exactly the
used bytes. Nothing is known about who has written the image; an entry may come in any order,
with any bytes in its reserved fields, and a table name may come twice.
-/

namespace MiniDbms

open Lib

namespace CatalogManager

/-! ## What an image holds -/

/-- The elements of a list lie one behind the other, from `o` to `stop`. -/
def Consecutive {α : Type} (entry : Nat → α → Nat → Prop) : Nat → List α → Nat → Prop
  | o, [], stop => o = stop
  | o, a :: l, stop => ∃ mid, entry o a mid ∧ Consecutive entry mid l stop

/-- A column of a table lies from `o` to `stop`. -/
structure ColumnAt (d : PageData) (o : Nat) (column : Column) (stop : Nat) : Prop where
  nameLength : d.readNat o 2 = column.name.length
  type : TypeId.ofNat? (d.readNat (o + 2) 1) = some column.type
  length : UInt32.ofNat (d.readNat (o + 4) 4) = column.length
  name : d.bytes (o + 8) column.name.length = column.name
  named : column.name ≠ []
  stop : stop = o + 8 + column.name.length

/-- The entry of a table lies from `o` to `stop`, its declared end. -/
structure TableAt (d : PageData) (o : Nat) (table : TableMetadata) (stop : Nat) : Prop where
  declared : stop = o + d.readNat o 2
  nameLength : d.readNat (o + 2) 2 = table.name.length
  columnCount : d.readNat (o + 4) 2 = table.schema.length
  firstPageId : PageData.readPageId d (o + 8) = table.firstPageId
  firstPageId_pos : 0 < table.firstPageId.toInt
  name : d.bytes (o + 12) table.name.length = table.name
  named : table.name ≠ []
  columns : Consecutive (ColumnAt d) (o + 12 + table.name.length) table.schema stop

/-- The entry of an index lies from `o` to `stop`, its declared end. -/
structure IndexAt (d : PageData) (o : Nat) (index : IndexMetadata) (stop : Nat) : Prop where
  declared : stop = o + d.readNat o 2
  nameLength : d.readNat (o + 2) 2 = index.name.length
  tableNameLength : d.readNat (o + 4) 2 = index.tableName.length
  columnNameLength : d.readNat (o + 6) 2 = index.columnName.length
  headerPageId : PageData.readPageId d (o + 8) = index.headerPageId
  headerPageId_pos : 0 < index.headerPageId.toInt
  name : d.bytes (o + 12) index.name.length = index.name
  tableName : d.bytes (o + 12 + index.name.length) index.tableName.length = index.tableName
  columnName : d.bytes (o + 12 + index.name.length + index.tableName.length)
    index.columnName.length = index.columnName
  named : ¬ (index.name = [] ∨ index.tableName = [] ∨ index.columnName = [])
  stop : stop = o + 12 + index.name.length + index.tableName.length + index.columnName.length

/-- The used bytes of the image are a header and the entries of the tables and of the indexes. -/
structure Filled (d : PageData) (tables : List TableMetadata) (indexes : List IndexMetadata) :
    Prop where
  magic : d.readNat 0 4 = catalogMagic
  version : d.readNat 4 2 = 1
  header_le : catalogHeaderSize ≤ d.readNat 10 2
  used_le : d.readNat 10 2 ≤ pageSize
  tableCount : tables.length = d.readNat 6 2
  indexCount : indexes.length = d.readNat 8 2
  entries : ∃ mid, Consecutive (TableAt d) catalogHeaderSize tables mid ∧
    Consecutive (IndexAt d) mid indexes (d.readNat 10 2)

/-! ## What the loops have read -/

variable {d : PageData} {limit cursor o o' size count : Nat}

theorem readValue_some {v : Nat} (h : readValue d limit cursor size = some (v, o')) :
    cursor + size ≤ limit ∧ v = d.readNat cursor size ∧ o' = cursor + size := by
  unfold readValue at h
  split at h
  · rename_i hle
    cases h
    exact ⟨hle, rfl, rfl⟩
  · cases h

theorem readPageIdValue_some {p : PageId} (h : readPageIdValue d limit cursor = some (p, o')) :
    cursor + 4 ≤ limit ∧ p = PageData.readPageId d cursor ∧ o' = cursor + 4 := by
  unfold readPageIdValue at h
  split at h
  · rename_i hle
    cases h
    exact ⟨hle, rfl, rfl⟩
  · cases h

theorem readString_some {s : Bytes} (h : readString d limit cursor size = some (s, o')) :
    cursor + size ≤ limit ∧ s = d.bytes cursor size ∧ s.length = size ∧ o' = cursor + size := by
  unfold readString at h
  split at h
  · rename_i hle
    cases h
    exact ⟨hle, rfl, Image.length_bytes _ _ _, rfl⟩
  · cases h

theorem readColumn_ok {column : Column} (h : readColumn d limit o = .ok (column, o')) :
    ColumnAt d o column o' ∧ o' ≤ limit := by
  unfold readColumn at h
  dsimp only at h
  split at h
  · cases h
  rename_i nameLength type declaredLength cursor hheader
  simp only [Option.bind_eq_bind, Option.bind_eq_some_iff, Prod.exists] at hheader
  obtain ⟨n, o₁, h₁, t, o₂, h₂, r, o₃, h₃, l, o₄, h₄, type', ht, hret⟩ := hheader
  cases hret
  obtain ⟨-, rfl, rfl⟩ := readValue_some h₁
  obtain ⟨-, rfl, rfl⟩ := readValue_some h₂
  obtain ⟨-, -, rfl⟩ := readValue_some h₃
  obtain ⟨-, rfl, rfl⟩ := readValue_some h₄
  split at h
  · cases h
  · cases h
  · rename_i name cursor hne hname
    cases h
    obtain ⟨hle, hbytes, hlength, rfl⟩ := readString_some hname
    rw [← hlength] at hbytes
    refine ⟨⟨hlength.symm, ht, rfl, hbytes.symm, fun hnil => ?_, ?_⟩, hle⟩
    · exact hne hnil
    · show _ = o + 8 + name.length
      omega

theorem readColumns_ok : ∀ {count o : Nat} {columns : List Column},
    readColumns d limit count o = .ok (columns, o') →
      columns.length = count ∧ Consecutive (ColumnAt d) o columns o' ∧
      (o ≤ limit → o' ≤ limit) := by
  intro count
  induction count with
  | zero =>
    intro o columns h
    cases h
    exact ⟨rfl, rfl, id⟩
  | succ count ih =>
    intro o columns h
    rw [readColumns] at h
    cases hc : readColumn d limit o with
    | error e =>
      rw [hc] at h
      cases h
    | ok r =>
      obtain ⟨column, mid⟩ := r
      rw [hc] at h
      cases hr : readColumns d limit count mid with
      | error e =>
        simp only [bind, Except.bind, hr] at h
        cases h
      | ok r =>
        obtain ⟨rest, stop⟩ := r
        simp only [bind, Except.bind, hr] at h
        cases h
        obtain ⟨hcolumn, hle⟩ := readColumn_ok hc
        obtain ⟨hlength, hrest, hstop⟩ := ih hr
        exact ⟨by rw [List.length_cons, hlength], ⟨mid, hcolumn, hrest⟩, fun _ => hstop hle⟩

theorem readTable_ok {table : TableMetadata} (h : readTable d limit o = .ok (table, o')) :
    TableAt d o table o' ∧ o' ≤ limit := by
  unfold readTable at h
  dsimp only at h
  split at h
  · cases h
  rename_i entrySize nameLength columnCount firstPageId cursor hheader
  simp only [Option.bind_eq_bind, Option.bind_eq_some_iff, Prod.exists] at hheader
  obtain ⟨e, o₁, h₁, n, o₂, h₂, c, o₃, h₃, r, o₄, h₄, p, o₅, h₅, hret⟩ := hheader
  split at hret
  · cases hret
  rename_i hchecks
  simp only [not_or] at hchecks
  cases hret
  obtain ⟨-, rfl, rfl⟩ := readValue_some h₁
  obtain ⟨-, rfl, rfl⟩ := readValue_some h₂
  obtain ⟨-, rfl, rfl⟩ := readValue_some h₃
  obtain ⟨-, -, rfl⟩ := readValue_some h₄
  obtain ⟨-, rfl, rfl⟩ := readPageIdValue_some h₅
  rw [toInt_headerPageId] at hchecks
  split at h
  · cases h
  · cases h
  · rename_i name cursor hne hname
    obtain ⟨hle, hbytes, hlength, rfl⟩ := readString_some hname
    rw [← hlength] at hbytes
    cases hr : readColumns d (o + d.readNat o 2) (d.readNat (o + 2 + 2) 2)
        (o + 2 + 2 + 2 + 2 + 4 + d.readNat (o + 2) 2) with
    | error e =>
      simp only [bind, Except.bind, hr] at h
      cases h
    | ok r =>
      obtain ⟨columns, stop⟩ := r
      simp only [bind, Except.bind, hr] at h
      split at h
      · cases h
      rename_i hstop
      cases h
      obtain ⟨hcount, hcolumns, -⟩ := readColumns_ok hr
      have hstop : o' = o + d.readNat o 2 := not_not.mp hstop
      refine ⟨⟨hstop, hlength.symm, hcount.symm, rfl, ?_, hbytes.symm, fun hnil => ?_, ?_⟩, ?_⟩
      · exact not_le.mp hchecks.2.2
      · exact hne hnil
      · show Consecutive (ColumnAt d) (o + 12 + name.length) columns o'
        rwa [hlength]
      · omega

theorem readTables_ok : ∀ {count o : Nat} {tables tables' : StringMap TableMetadata},
    readTables d limit count o tables = (tables', .ok o') →
      ∃ l, l.length = count ∧ Consecutive (TableAt d) o l o' ∧
        tables' = l.foldl (fun m t => emplace m t.name t) tables := by
  intro count
  induction count with
  | zero =>
    intro o tables tables' h
    cases h
    exact ⟨[], rfl, rfl, rfl⟩
  | succ count ih =>
    intro o tables tables' h
    rw [readTables] at h
    cases ht : readTable d limit o with
    | error e =>
      rw [ht] at h
      cases h
    | ok r =>
      obtain ⟨table, mid⟩ := r
      rw [ht] at h
      obtain ⟨l, hlength, hl, htables⟩ := ih h
      exact ⟨table :: l, by rw [List.length_cons, hlength], ⟨mid, (readTable_ok ht).1, hl⟩, htables⟩

theorem readIndex_ok {index : IndexMetadata} (h : readIndex d limit o = .ok (index, o')) :
    IndexAt d o index o' ∧ o' ≤ limit := by
  unfold readIndex at h
  dsimp only at h
  split at h
  · cases h
  rename_i entrySize nameLength tableNameLength columnNameLength header cursor hheader
  simp only [Option.bind_eq_bind, Option.bind_eq_some_iff, Prod.exists] at hheader
  obtain ⟨e, o₁, h₁, n, o₂, h₂, t, o₃, h₃, c, o₄, h₄, p, o₅, h₅, hret⟩ := hheader
  split at hret
  · cases hret
  rename_i hchecks
  simp only [not_or] at hchecks
  cases hret
  obtain ⟨-, rfl, rfl⟩ := readValue_some h₁
  obtain ⟨-, rfl, rfl⟩ := readValue_some h₂
  obtain ⟨-, rfl, rfl⟩ := readValue_some h₃
  obtain ⟨-, rfl, rfl⟩ := readValue_some h₄
  obtain ⟨-, rfl, rfl⟩ := readPageIdValue_some h₅
  rw [toInt_headerPageId] at hchecks
  split at h
  · cases h
  rename_i pending hstrings
  cases h
  simp only [Option.bind_eq_bind, Option.bind_eq_some_iff, Prod.exists] at hstrings
  obtain ⟨name, o₁, h₁, tableName, o₂, h₂, columnName, o₃, h₃, hret⟩ := hstrings
  split at hret
  · cases hret
  rename_i hnames
  cases hret
  obtain ⟨-, hname, hn, rfl⟩ := readString_some h₁
  obtain ⟨-, htable, ht, rfl⟩ := readString_some h₂
  obtain ⟨-, hcolumn, hc, rfl⟩ := readString_some h₃
  simp only [not_or, not_not] at hnames
  obtain ⟨hname', htable', hcolumn', hstop⟩ := hnames
  rw [← hn] at hname htable hcolumn
  rw [← ht] at htable hcolumn
  rw [← hc] at hcolumn
  refine ⟨⟨hstop, hn.symm, ht.symm, hc.symm, rfl, ?_, hname.symm, htable.symm,
    hcolumn.symm, ?_, ?_⟩, ?_⟩
  · exact not_le.mp hchecks.2.2
  · show ¬ (name = [] ∨ tableName = [] ∨ columnName = [])
    tauto
  · show _ = o + 12 + name.length + tableName.length + columnName.length
    omega
  · omega

theorem readIndexes_ok : ∀ {count o : Nat} {indexes : List IndexMetadata},
    readIndexes d limit count o = .ok (indexes, o') →
      indexes.length = count ∧ Consecutive (IndexAt d) o indexes o' := by
  intro count
  induction count with
  | zero =>
    intro o indexes h
    cases h
    exact ⟨rfl, rfl⟩
  | succ count ih =>
    intro o indexes h
    rw [readIndexes] at h
    cases hi : readIndex d limit o with
    | error e =>
      rw [hi] at h
      cases h
    | ok r =>
      obtain ⟨index, mid⟩ := r
      rw [hi] at h
      cases hr : readIndexes d limit count mid with
      | error e =>
        simp only [bind, Except.bind, hr] at h
        cases h
      | ok r =>
        obtain ⟨rest, stop⟩ := r
        simp only [bind, Except.bind, hr] at h
        cases h
        obtain ⟨hlength, hrest⟩ := ih hr
        exact ⟨by rw [List.length_cons, hlength], mid, (readIndex_ok hi).1, hrest⟩

/-- The map that `Load` builds from the tables of the image. -/
def tableMap (tables : List TableMetadata) : StringMap TableMetadata :=
  tables.foldl (fun m t => emplace m t.name t) ∅

/-- The entries of an image that `Load` goes through fill its used bytes. -/
theorem readCatalog_ok {tables : StringMap TableMetadata} {indexes : List IndexMetadata}
    (h : readCatalog d = (tables, .ok indexes)) :
    ∃ l, Filled d l indexes ∧ tables = tableMap l := by
  unfold readCatalog at h
  dsimp only at h
  split at h
  · cases h
  rename_i hheader
  simp only [not_or, not_not, not_lt] at hheader
  obtain ⟨hmagic, hversion, hlow, hused⟩ := hheader
  split at h
  · cases h
  rename_i tables' cursor ht
  split at h
  · cases h
  rename_i pending stop hi
  split at h
  · cases h
  rename_i hstop
  cases h
  obtain ⟨l, hcount, hl, rfl⟩ := readTables_ok ht
  obtain ⟨hcount', hindexes⟩ := readIndexes_ok hi
  rw [not_not.mp hstop] at hindexes
  exact ⟨l, ⟨hmagic, hversion, hlow, hused, hcount, hcount', cursor, hl, hindexes⟩, rfl⟩

end CatalogManager

end MiniDbms
