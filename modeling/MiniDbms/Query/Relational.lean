import MiniDbms.Lib.Listing
import MiniDbms.Lib.Simulation
import MiniDbms.Query.ReachedStates
import MiniDbms.Query.Session
import Mathlib.Data.Multiset.AddSub
import Mathlib.Data.Multiset.Filter

/-!
# The relational model

What the program is for, without pages, indexes and files: a `Database` is a map from names to
relations, a `Relation` is a schema and a multiset of rows. `Answers db statement reply db'` is what
may be replied to a statement and what becomes of the database, `relational` the system that answers
lines, `relationalSessions` the system whose steps are whole sessions. Nothing happens to the
database between two sessions.

`databaseOf catalog c` is the database that a catalog and the contents of its heap files stand for.
-/

namespace MiniDbms

open Lib HeapFile QueryExecutor

/-- The values of the columns. -/
abbrev Row := List FieldValue

structure Relation where
  schema : Schema
  rows : Multiset Row

/-- The relations by their names. -/
abbrev Database := Bytes → Option Relation

/-- The conditions of a WHERE clause name columns, their literals can be converted, and those that
an index can answer have a key. -/
structure Scannable (schema : Schema) (conditions : List Condition) : Prop where
  targets : ∀ condition ∈ conditions, ∃ k target, condition.Target schema k target
  keys : ∀ condition ∈ conditions, condition.op = str "=" → ∀ k target,
    condition.Target schema k target → ∃ key, IndexKey.encode target = .ok key

namespace Relation

/-- The rows that satisfy a WHERE clause. -/
def selected (r : Relation) (conditions : List Condition) : Multiset Row :=
  r.rows.filter fun row => ∀ condition ∈ conditions, condition.Satisfies r.schema row

/-- Some of the rows are replaced or removed. -/
def change (r : Relation) (edit : Row → Option Row) (changed : Multiset Row) : Relation :=
  { r with rows := r.rows - changed + changed.filterMap edit }

/-- A SELECT makes sense, and the rows that it returns can be encoded. -/
structure Answerable (r : Relation) (select : SelectStatement) (columns : List (Nat × Column)) :
    Prop where
  asks : Asks r.schema select.fields columns
  scannable : Scannable r.schema select.conditions
  fits : ∀ row ∈ r.selected select.conditions, ∃ data,
    RecordCodec.serialize (columns.map Prod.snd) (pick columns row) = .ok data

end Relation

/-- What an UPDATE makes of a row: the value of one column is replaced. -/
def UpdateStatement.Edits (s : UpdateStatement) (schema : Schema) (edit : Row → Option Row) :
    Prop :=
  ∃ k v, schema.columnIndex s.columnName = some k ∧
    convertLiteral (schema.getD k ⟨[], .integer, 0⟩) s.newValue true = .ok v ∧
    edit = fun row => some (row.set k v)

/-- The reply to a statement, and the database afterwards. -/
inductive Answers (db : Database) : SQLStatement → Reply → Database → Prop
  | select {s : SelectStatement} {r : Relation} {columns : List (Nat × Column)} {rows : List Row}
      (hr : db s.tableName = some r) (hcolumns : Asks r.schema s.fields columns)
      (hplain : s.isExplain = false) (hrows : rows = (r.selected s.conditions).map (pick columns)) :
      Answers db (.select s) (.rows (columns.map fun column => column.2.name) rows) db
  | explain {s : SelectStatement} {r : Relation} {columns : List (Nat × Column)} (scan : ScanType)
      (hr : db s.tableName = some r) (hcolumns : Asks r.schema s.fields columns)
      (hexplain : s.isExplain = true) :
      Answers db (.select s) (.explain scan (r.selected s.conditions).card) db
  | selectFails {s : SelectStatement} (e : Status)
      (hno : ∀ r columns, db s.tableName = some r → ¬ r.Answerable s columns) :
      Answers db (.select s) (.executionError e) db
  | insert {s : InsertStatement} {r : Relation} {row : Row} (hr : db s.tableName = some r)
      (hlength : s.values.length = r.schema.length)
      (hrow : convertValues r.schema s.values = .ok row) :
      Answers db (.insert s) (.affected 1)
        (Function.update db s.tableName (some { r with rows := row ::ₘ r.rows }))
  | insertFails {s : InsertStatement} (e : Status) : Answers db (.insert s) (.executionError e) db
  | update {s : UpdateStatement} {r : Relation} {edit : Row → Option Row}
      (hr : db s.tableName = some r) (hedit : s.Edits r.schema edit) :
      Answers db (.update s) (.ofAffected (r.selected s.conditions).card)
        (Function.update db s.tableName (some (r.change edit (r.selected s.conditions))))
  /-- An UPDATE may stop in the middle. -/
  | updateStops {s : UpdateStatement} {r : Relation} {edit : Row → Option Row}
      {changed : Multiset Row} (e : Status) (hr : db s.tableName = some r)
      (hedit : s.Edits r.schema edit) (hchanged : changed ≤ r.selected s.conditions) :
      Answers db (.update s) (.executionError e)
        (Function.update db s.tableName (some (r.change edit changed)))
  | updateFails {s : UpdateStatement} (e : Status) : Answers db (.update s) (.executionError e) db
  | delete {s : DeleteStatement} {r : Relation} (hr : db s.tableName = some r) :
      Answers db (.delete s) (.ofAffected (r.selected s.conditions).card)
        (Function.update db s.tableName
          (some (r.change (fun _ => none) (r.selected s.conditions))))
  | deleteFails {s : DeleteStatement} (e : Status)
      (hno : ∀ r, db s.tableName = some r → ¬ Scannable r.schema s.conditions) :
      Answers db (.delete s) (.executionError e) db
  | createTable {s : CreateTableStatement} {schema : Schema} (hnew : db s.tableName = none)
      (hschema : makeColumns [] s.columns = .ok schema) :
      Answers db (.createTable s) .completed (Function.update db s.tableName (some ⟨schema, 0⟩))
  | createTableFails {s : CreateTableStatement} (e : Status) :
      Answers db (.createTable s) (.executionError e) db
  | createIndex {s : CreateIndexStatement} {r : Relation} (hr : db s.tableName = some r)
      (hcolumn : (r.schema.columnIndex s.columnName).isSome) :
      Answers db (.createIndex s) .completed db
  | createIndexFails {s : CreateIndexStatement} (e : Status) :
      Answers db (.createIndex s) (.executionError e) db

/-- The database that answers lines. -/
def relational : System Database (Bytes × Reply) where
  init db := db = fun _ => none
  step db e db' :=
    match Parser.parse (Tokenizer.tokenize e.1) with
    | .error status => e.2 = .syntaxError status ∧ db' = db
    | .ok statement => Answers db statement e.2 db'

/-- The lines of the input that are answered. -/
def commands (input : List Bytes) : List Bytes :=
  (input.takeWhile fun line => ¬ (line = str "exit;" ∨ line = str "exit")).filter
    fun line => line ≠ []

/-- A session: which accesses to the disk fail and the input, then the exit code and the replies. -/
abbrev Session := (DiskFaults × List Bytes) × Nat × List Reply

/-- The program on its file. -/
def program : System PageFile Session where
  init file := file = .empty
  step file e file' := e.1.1.Reliable ∧ main e.1.1 file e.1.2 = some (e.2.1, e.2.2, file')

/-- The database over sessions: every command of a session has a reply. -/
def relationalSessions : System Database Session where
  init := relational.init
  step db e db' := e.2.1 = 0 ∧ e.2.2.length = (commands e.1.2).length ∧
    relational.Run db ((commands e.1.2).zip e.2.2) db'

/-! ## The rows of a heap file -/

/-- The rows that the records of a heap file stand for. -/
def rowsOf (schema : Schema) (chain : Chain) : Multiset Row :=
  chain.records.map fun record => RecordCodec.decoded schema record.data

/-- The relations of a catalog. -/
def databaseOf (catalog : CatalogManager) (c : Contents) : Database := fun name =>
  (catalog.tables.lookup name).map fun table =>
    ⟨table.schema, rowsOf table.schema (c.chain table.firstPageId)⟩

section

variable {h h' : Pages} {p p' : PageId} {chain chain' : Chain} {schema : Schema}

/-- The id and the bytes of a record. -/
def Record.entry (record : Record) : RecordID × Bytes := (record.rid, record.data)

theorem lists_entries (hh : HeapHolds h p chain) :
    Lists (chain.records.map Record.entry) chain.record where
  nodup := by
    rw [List.map_map]
    exact Chain.nodup_records hh.holds.bounded hh.nodup
  mem rid data := by
    have hmem : (⟨rid, data⟩ : Record) ∈ chain.records ↔ chain.record rid = some data :=
      Chain.mem_records hh.holds.bounded hh.nodup
    rw [← hmem, List.mem_map]
    constructor
    · intro hin
      obtain ⟨record, hrecord, he⟩ := hin
      cases he
      exact hrecord
    · exact fun hin => ⟨_, hin, rfl⟩

theorem rowsOf_eq (schema : Schema) (chain : Chain) : rowsOf schema chain =
    ((chain.records.map Record.entry).map fun e => RecordCodec.decoded schema e.2 : List Row) := by
  rw [List.map_map]
  rfl

/-- The rows depend on the live records only. -/
theorem rowsOf_congr (hh : HeapHolds h p chain) (hh' : HeapHolds h' p' chain')
    (hsame : ∀ rid, chain'.record rid = chain.record rid) :
    rowsOf schema chain' = rowsOf schema chain := by
  have hrecord : chain'.record = chain.record := funext hsame
  have hlists := lists_entries hh'
  rw [hrecord] at hlists
  rw [rowsOf_eq, rowsOf_eq, Multiset.coe_eq_coe]
  exact (hlists.perm (lists_entries hh)).map _

theorem entriesAt_live {records : List Record}
    (hlive : ∀ record ∈ records, chain.record record.rid = some record.data) :
    entriesAt chain.record (records.map Record.rid) = records.map Record.entry := by
  rw [entriesAt, List.filterMap_map, ← List.filterMap_eq_map]
  apply List.filterMap_congr
  intro record hin
  simp only [Function.comp, hlive record hin]
  rfl

/-- A new record is a new row. -/
theorem rowsOf_insert (hh : HeapHolds h p chain) (hh' : HeapHolds h' p' chain') {rid : RecordID}
    {data : Bytes} (hfresh : chain.record rid = none) (hnew : chain'.record rid = some data)
    (hsame : ∀ rid', rid' ≠ rid → chain'.record rid' = chain.record rid') :
    rowsOf schema chain' = RecordCodec.decoded schema data ::ₘ rowsOf schema chain := by
  obtain ⟨rest, hold, hnew'⟩ :=
    (lists_entries hh).frame (lists_entries hh') (List.nodup_singleton rid)
    fun k hk => hsame k fun he => hk (List.mem_singleton.mpr he)
  simp only [entriesAt, List.filterMap_cons, hfresh, hnew, Option.map_none, Option.map_some,
    List.filterMap_nil, List.nil_append, List.singleton_append] at hold hnew'
  rw [rowsOf_eq, rowsOf_eq, Multiset.cons_coe, Multiset.coe_eq_coe]
  exact (hnew'.map _).trans ((hold.symm.map _).cons _)

/-- When some records have changed, so have their rows. -/
theorem rowsOf_change (hh : HeapHolds h p chain) (hh' : HeapHolds h' p' chain')
    {records : List Record} (hnodup : (records.map Record.rid).Nodup)
    (hlive : ∀ record ∈ records, chain.record record.rid = some record.data)
    (hsame : ∀ rid, rid ∉ records.map Record.rid → chain'.record rid = chain.record rid)
    {edit : Row → Option Row} (hnew : ∀ record ∈ records,
      (chain'.record record.rid).map (RecordCodec.decoded schema) =
        edit (RecordCodec.decoded schema record.data)) :
    let changed : Multiset Row :=
  (records.map fun r => RecordCodec.decoded schema r.data : List Row)
    rowsOf schema chain' = rowsOf schema chain - changed + changed.filterMap edit := by
  intro changed
  obtain ⟨rest, hold, hnew'⟩ := (lists_entries hh).frame (lists_entries hh') hnodup hsame
  rw [entriesAt_live hlive] at hold
  have hbefore : rowsOf schema chain =
      changed + (rest.map fun e => RecordCodec.decoded schema e.2 : List Row) := by
    rw [rowsOf_eq, Multiset.coe_add, Multiset.coe_eq_coe]
    refine (hold.map _).trans ?_
    rw [List.map_append, List.map_map]
    exact .refl _
  have hentries : (entriesAt chain'.record (records.map Record.rid)).map
      (fun e => RecordCodec.decoded schema e.2) =
        (records.map fun r => RecordCodec.decoded schema r.data).filterMap edit := by
    rw [entriesAt, List.filterMap_map, List.map_filterMap, List.filterMap_map]
    apply List.filterMap_congr
    intro record hin
    rw [Function.comp, Function.comp, ← hnew record hin, Option.map_map]
    rfl
  have hafter : rowsOf schema chain' = changed.filterMap edit +
      (rest.map fun e => RecordCodec.decoded schema e.2 : List Row) := by
    rw [rowsOf_eq, Multiset.filterMap_coe, Multiset.coe_add, Multiset.coe_eq_coe, ← hentries,
      ← List.map_append]
    exact hnew'.map _
  rw [hbefore, hafter, Multiset.add_comm changed, Multiset.add_sub_cancel_right, Multiset.add_comm]

end

/-! ## The database of a catalog -/

section

variable {h h' : Pages} {catalog catalog' : CatalogManager} {d d' : PageData} {c c' : Contents}
  {name : Bytes} {table : TableMetadata} {conditions : List Condition} {records : List Record}

/-- The relation of a table. -/
def relationOf (table : TableMetadata) (c : Contents) : Relation :=
  ⟨table.schema, rowsOf table.schema (c.chain table.firstPageId)⟩

theorem databaseOf_some (ht : catalog.tables.lookup name = some table) (c : Contents) :
    databaseOf catalog c name = some (relationOf table c) := by
  rw [databaseOf, ht]
  rfl

theorem databaseOf_none (ht : catalog.tables.lookup name = none) (c : Contents) :
    databaseOf catalog c name = none := by
  rw [databaseOf, ht]
  rfl

theorem databaseOf_of_same (hs : CatalogManager.Same catalog catalog') (c : Contents) :
    databaseOf catalog' c = databaseOf catalog c := by
  funext name
  rw [databaseOf, databaseOf, hs.tables]

/-- The rows of the other tables are the same. -/
theorem databaseOf_change (hd : DatabaseHolds h catalog d c) (hd' : DatabaseHolds h' catalog d' c')
    (ht : catalog.tables.lookup name = some table) (hspares : Spares catalog name c c') :
    databaseOf catalog c' =
      Function.update (databaseOf catalog c) name (some (relationOf table c')) := by
  funext other
  by_cases hne : other = name
  · rw [hne, Function.update_self]
    exact databaseOf_some ht c'
  · rw [Function.update_of_ne hne]
    cases ho : catalog.tables.lookup other with
    | none => rw [databaseOf_none ho, databaseOf_none ho]
    | some table' =>
      rw [databaseOf_some ho, databaseOf_some ho, relationOf, relationOf,
        rowsOf_congr (heapHolds_of_lookup hd ho) (heapHolds_of_lookup hd' ho)
          (hspares other table' hne ho)]

theorem databaseOf_sameRows (hd : DatabaseHolds h catalog d c)
    (hd' : DatabaseHolds h' catalog d' c') (hsame : TableStorage.SameRows c c') :
    databaseOf catalog c' = databaseOf catalog c := by
  funext name
  cases ht : catalog.tables.lookup name with
  | none => rw [databaseOf_none ht, databaseOf_none ht]
  | some table =>
    rw [databaseOf_some ht, databaseOf_some ht, relationOf, relationOf,
      rowsOf_congr (heapHolds_of_lookup hd ht) (heapHolds_of_lookup hd' ht)
        fun rid => hsame table.firstPageId rid]

/-- The contents of the heap files decide. -/
theorem databaseOf_congr (hchain : c'.chain = c.chain) :
    databaseOf catalog c' = databaseOf catalog c := by
  funext name
  rw [databaseOf, databaseOf, hchain]

/-- A new table is an empty relation. -/
theorem databaseOf_withTable (hd : DatabaseHolds h catalog d c) {schema : Schema} {p : PageId}
    (hp : h.page p = none) : databaseOf (catalog.withTable name schema p) (c.setChain p [(p, [])]) =
      Function.update (databaseOf catalog c) name (some ⟨schema, 0⟩) := by
  funext other
  by_cases hne : other = name
  · subst hne
    have hlookup : (catalog.withTable other schema p).tables.lookup other =
      some ⟨other, schema, p⟩ :=
      AList.lookup_insert _
    rw [Function.update_self, databaseOf_some hlookup, relationOf, Contents.chain_setChain_self]
    rfl
  · rw [Function.update_of_ne hne]
    have hlookup : (catalog.withTable name schema p).tables.lookup other =
      catalog.tables.lookup other :=
      AList.lookup_insert_ne hne
    cases ho : catalog.tables.lookup other with
    | none => rw [databaseOf_none (hlookup.trans ho), databaseOf_none ho]
    | some table =>
      have hfirst : table.firstPageId ≠ p := by
        intro he
        exact (heapHolds_of_lookup hd ho).page_ne_none (heapHolds_of_lookup hd ho).first_mem
          (he ▸ hp)
      rw [databaseOf_some (hlookup.trans ho), databaseOf_some ho, relationOf, relationOf,
        Contents.chain_setChain_of_ne hfirst]

/-- The records that a plan selects stand for the rows that the WHERE clause selects. -/
theorem selected_eq (hd : DatabaseHolds h catalog d c)
    (ht : catalog.tables.lookup name = some table)
    (hselects : Selects (c.chain table.firstPageId) table.schema conditions records) :
    (relationOf table c).selected conditions =
      (records.map fun record => RecordCodec.decoded table.schema record.data : List Row) := by
  have hh := heapHolds_of_lookup hd ht
  have hmem : ∀ record, record ∈ (c.chain table.firstPageId).records ↔
      (c.chain table.firstPageId).record record.rid = some record.data := fun record =>
    Chain.mem_records hh.holds.bounded hh.nodup
  have hperm : ((c.chain table.firstPageId).records.filter fun record =>
      SatisfiesAll table.schema conditions record.data).Perm records := by
    have hnodup := (Chain.nodup_records hh.holds.bounded hh.nodup).of_map.filter
      fun record => decide (SatisfiesAll table.schema conditions record.data)
    apply (List.perm_ext_iff_of_nodup hnodup hselects.nodup.of_map).mpr
    intro record
    rw [List.mem_filter, decide_eq_true_eq, hmem, hselects.mem]
  have hfilter : (c.chain table.firstPageId).records.filter (fun record =>
      decide (∀ condition ∈ conditions,
        condition.Satisfies table.schema (RecordCodec.decoded table.schema record.data))) =
      (c.chain table.firstPageId).records.filter fun record =>
        SatisfiesAll table.schema conditions record.data := by
    apply List.filter_congr
    intro record hin
    obtain ⟨values, hvalues⟩ := deserialize_of_live hd ht ((hmem record).mp hin)
    rw [RecordCodec.decoded_eq hvalues, decide_eq_decide, satisfiesAll_iff hvalues]
  rw [Relation.selected, relationOf, rowsOf, Multiset.filter_coe, List.filter_map,
    Multiset.coe_eq_coe]
  refine List.Perm.map _ ?_
  exact hfilter ▸ hperm

end

end MiniDbms
