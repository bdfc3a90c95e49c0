import MiniDbms.Query.Databases
import MiniDbms.Storage.RecordRoundTrip

/-!
# The five comparisons of a column with a literal

The answers to `c < v`, `c = v` and `c > v` partition the rows that have a value in the column, and
`<=` and `>=` answer the unions, if the column is an INTEGER or a VARCHAR. In a BOOLEAN column only
`=` selects rows, so there the answers do so only if the column is NULL in every row
(`comparisons_partition_iff`).
-/

namespace MiniDbms

open Lib PagedProgram Program HashIndex StringMap CatalogManager QueryExecutor

/-! ## The five relations -/

/-- What the five operators select splits as in a linear order. -/
structure Splits (selects : Bytes → Prop) : Prop where
  some : selects (str "<") ∨ selects (str "=") ∨ selects (str ">")
  lt_eq : ¬ (selects (str "<") ∧ selects (str "="))
  lt_gt : ¬ (selects (str "<") ∧ selects (str ">"))
  eq_gt : ¬ (selects (str "=") ∧ selects (str ">"))
  le : selects (str "<=") ↔ selects (str "<") ∨ selects (str "=")
  ge : selects (str ">=") ↔ selects (str ">") ∨ selects (str "=")

section

variable {α : Type} [LinearOrder α] {a b : α}

theorem orderRelation_eq : OrderRelation (str "=") a b ↔ a = b := by
  simp [OrderRelation, str]

theorem orderRelation_lt : OrderRelation (str "<") a b ↔ a < b := by
  simp [OrderRelation, str]

theorem orderRelation_gt : OrderRelation (str ">") a b ↔ b < a := by
  simp [OrderRelation, str]

theorem orderRelation_le : OrderRelation (str "<=") a b ↔ a ≤ b := by
  simp [OrderRelation, str]

theorem orderRelation_ge : OrderRelation (str ">=") a b ↔ b ≤ a := by
  simp [OrderRelation, str]

theorem splits_order (a b : α) : Splits fun op => OrderRelation op a b where
  some := by
    rw [orderRelation_lt, orderRelation_eq, orderRelation_gt]
    exact lt_trichotomy a b
  lt_eq := by
    rw [orderRelation_lt, orderRelation_eq]
    exact fun h => h.1.ne h.2
  lt_gt := by
    rw [orderRelation_lt, orderRelation_gt]
    exact fun h => lt_asymm h.1 h.2
  eq_gt := by
    rw [orderRelation_eq, orderRelation_gt]
    exact fun h => h.2.ne h.1.symm
  le := by
    rw [orderRelation_le, orderRelation_lt, orderRelation_eq]
    exact le_iff_lt_or_eq
  ge := by
    rw [orderRelation_ge, orderRelation_gt, orderRelation_eq, le_iff_lt_or_eq, eq_comm]

end

section

variable {op : Bytes}

theorem compares_integer {a b : Int32} :
    Compares op (.integer a) (.integer b) ↔ OrderRelation op a.toInt b.toInt := by
  constructor
  · intro h
    cases h
    assumption
  · exact .integer

theorem compares_text {s t : Bytes} : Compares op (.text s) (.text t) ↔
    OrderRelation op (s.map UInt8.toNat) (t.map UInt8.toNat) := by
  constructor
  · intro h
    cases h
    assumption
  · exact .text

theorem compares_boolean {b b' : Bool} :
    Compares op (.boolean b) (.boolean b') ↔ op = str "=" ∧ b = b' := by
  constructor
  · intro h
    cases h
    exact ⟨by assumption, rfl⟩
  · rintro ⟨h, rfl⟩
    exact .boolean h

end

/-- The comparisons of two values of a column split unless the column is a BOOLEAN. -/
theorem splits_compares {column : Column} {actual target : FieldValue} (ha : column.Accepts actual)
    (hb : column.Accepts target) (hactual : actual ≠ .null) (htarget : target ≠ .null) :
    Splits (fun op => Compares op actual target) ↔ column.type ≠ .boolean := by
  cases actual with
  | null => exact absurd rfl hactual
  | integer a =>
    have htype : column.type = .integer := ha
    cases target with
    | null => exact absurd rfl htarget
    | integer b =>
      have horder : (fun op => Compares op (.integer a) (.integer b)) = _ :=
        funext fun op => propext compares_integer
      rw [horder]
      exact iff_of_true (splits_order _ _) (by rw [htype]; nofun)
    | text t => exact absurd (htype.symm.trans hb.1) nofun
    | boolean b => exact absurd (htype.symm.trans hb) nofun
  | text t =>
    have htype : column.type = .varchar := ha.1
    cases target with
    | null => exact absurd rfl htarget
    | integer b => exact absurd (htype.symm.trans hb) nofun
    | text b =>
      have horder : (fun op => Compares op (.text t) (.text b)) = _ :=
        funext fun op => propext compares_text
      rw [horder]
      exact iff_of_true (splits_order _ _) (by rw [htype]; nofun)
    | boolean b => exact absurd (htype.symm.trans hb) nofun
  | boolean a =>
    have htype : column.type = .boolean := ha
    cases target with
    | null => exact absurd rfl htarget
    | integer b => exact absurd (htype.symm.trans hb) nofun
    | text t => exact absurd (htype.symm.trans hb.1) nofun
    | boolean b =>
      refine iff_of_false (fun h => ?_) (not_not_intro htype)
      -- only `=` holds, of equal values
      have heq : Compares (str "=") (.boolean a) (.boolean b) := by
        rcases h.some with hlt | heq | hgt
        · exact absurd (compares_boolean.mp hlt).1 (by decide)
        · exact heq
        · exact absurd (compares_boolean.mp hgt).1 (by decide)
      exact absurd (compares_boolean.mp (h.le.mpr (.inr heq))).1 (by decide)

/-- The value of a literal in a condition is a value of the column. -/
theorem convertLiteral_accepts {column : Column} {literal : SQLLiteral} {target : FieldValue}
    (h : convertLiteral column literal false = .ok target) :
    column.Accepts target ∧ target ≠ .null := by
  unfold convertLiteral at h
  split at h
  · cases h
  split at h
  · rename_i htype
    split at h
    · cases h
    split at h
    · cases h
    split at h
    · cases h
    · cases h
      exact ⟨htype, nofun⟩
  · rename_i htype
    split at h
    · cases h
    split at h
    · cases h
    · rename_i hlength
      cases h
      exact ⟨⟨htype, by omega⟩, nofun⟩
  · rename_i htype
    split at h
    · cases h
    dsimp only at h
    split at h
    · cases h
      exact ⟨htype, nofun⟩
    split at h
    · cases h
      exact ⟨htype, nofun⟩
    · cases h

/-! ## The answers -/

/-- The answers to the five comparisons partition the rows that have a value. -/
structure Partitions (rows : Record → Prop) (answer : Bytes → List Record) : Prop where
  lt_eq : (answer (str "<")).Disjoint (answer (str "="))
  lt_gt : (answer (str "<")).Disjoint (answer (str ">"))
  eq_gt : (answer (str "=")).Disjoint (answer (str ">"))
  all : ∀ r, r ∈ answer (str "<") ∨ r ∈ answer (str "=") ∨ r ∈ answer (str ">") ↔ rows r
  le : ∀ r, r ∈ answer (str "<=") ↔ r ∈ answer (str "<") ∨ r ∈ answer (str "=")
  ge : ∀ r, r ∈ answer (str ">=") ↔ r ∈ answer (str ">") ∨ r ∈ answer (str "=")

/-- Answers by row: they partition the rows if they split each row that has a value. -/
theorem partitions_iff {rows : Record → Prop} {answer : Bytes → List Record}
    {selects : Record → Bytes → Prop}
    (hanswer : ∀ op r, r ∈ answer op ↔ rows r ∧ selects r op) :
    Partitions rows answer ↔ ∀ r, rows r → Splits (selects r) := by
  constructor
  · intro h r hr
    have hmem : ∀ op, r ∈ answer op ↔ selects r op := by
      intro op
      rw [hanswer]
      exact and_iff_right hr
    refine ⟨?_, fun hc => ?_, fun hc => ?_, fun hc => ?_, ?_, ?_⟩
    · rw [← hmem, ← hmem, ← hmem]
      exact (h.all r).mpr hr
    · exact h.lt_eq ((hmem _).mpr hc.1) ((hmem _).mpr hc.2)
    · exact h.lt_gt ((hmem _).mpr hc.1) ((hmem _).mpr hc.2)
    · exact h.eq_gt ((hmem _).mpr hc.1) ((hmem _).mpr hc.2)
    · rw [← hmem, ← hmem, ← hmem]
      exact h.le r
    · rw [← hmem, ← hmem, ← hmem]
      exact h.ge r
  · intro h
    have hrow : ∀ {op r}, r ∈ answer op → Splits (selects r) ∧ selects r op := by
      intro op r hr
      obtain ⟨hrows, hsel⟩ := (hanswer op r).mp hr
      exact ⟨h r hrows, hsel⟩
    have hin : ∀ {op op' r}, r ∈ answer op → selects r op' → r ∈ answer op' := by
      intro op op' r hr hsel
      exact (hanswer op' r).mpr ⟨((hanswer op r).mp hr).1, hsel⟩
    refine ⟨fun r h₁ h₂ => ?_, fun r h₁ h₂ => ?_, fun r h₁ h₂ => ?_, fun r => ?_, fun r => ?_,
      fun r => ?_⟩
    · exact (hrow h₁).1.lt_eq ⟨(hrow h₁).2, (hrow h₂).2⟩
    · exact (hrow h₁).1.lt_gt ⟨(hrow h₁).2, (hrow h₂).2⟩
    · exact (hrow h₁).1.eq_gt ⟨(hrow h₁).2, (hrow h₂).2⟩
    · rw [hanswer, hanswer, hanswer, ← and_or_left, ← and_or_left]
      exact ⟨fun hr => hr.1, fun hr => ⟨hr, (h r hr).some⟩⟩
    · rw [hanswer, hanswer, hanswer, ← and_or_left]
      exact and_congr_right fun hr => (h r hr).le
    · rw [hanswer, hanswer, hanswer, ← and_or_left]
      exact and_congr_right fun hr => (h r hr).ge

section

variable {ext : PageId → Nat} {h : Pages} {catalog : CatalogManager} {d : PageData} {c : Contents}
  {name column : Bytes} {table : TableMetadata} {k : Nat} {literal : SQLLiteral}
  {target : FieldValue}

/-- A live row of the table whose value in the column is not NULL. -/
def HasValue (schema : Schema) (chain : Chain) (k : Nat) (record : Record) : Prop :=
  chain.record record.rid = some record.data ∧
    ∃ actual, RecordCodec.getValue schema record.data k = .ok actual ∧ actual ≠ .null

/-- The value of a live row belongs to its column. -/
theorem accepts_of_live (hd : DatabaseHolds h catalog d c)
    (ht : catalog.tables.lookup name = some table) (hk : k < table.schema.length) {rid : RecordID}
    {data : Bytes} (hr : (c.chain table.firstPageId).record rid = some data) {actual : FieldValue}
    (hactual : RecordCodec.getValue table.schema data k = .ok actual) :
    (table.schema.getD k ⟨[], .integer, 0⟩).Accepts actual := by
  obtain ⟨values, hs⟩ := hd.serialized ht rid data hr
  have hall := ((RecordCodec.serialize_isOk_iff table.schema values).mp ⟨data, hs⟩).1
  obtain ⟨value, hget, hvalue⟩ := RecordCodec.getValue_eq (RecordCodec.deserialize_serialize hs) hk
  cases hget.symm.trans hactual
  obtain ⟨hlt, rfl⟩ := List.getElem?_eq_some_iff.mp hvalue
  rw [List.getD_eq_getElem _ _ hk]
  exact hall.get hk hlt

/-- The row satisfies a condition on the column exactly if its value there compares so. -/
theorem satisfies_iff_compares (hd : DatabaseHolds h catalog d c)
    (ht : catalog.tables.lookup name = some table) (hk : table.schema.columnIndex column = some k)
    (hv : convertLiteral (table.schema.getD k ⟨[], .integer, 0⟩) literal false = .ok target)
    {rid : RecordID} {data : Bytes} (hr : (c.chain table.firstPageId).record rid = some data)
    {actual : FieldValue} (hactual : RecordCodec.getValue table.schema data k = .ok actual)
    (op : Bytes) :
    SatisfiesAll table.schema [⟨column, op, literal⟩] data ↔ Compares op actual target := by
  obtain ⟨values, hvalues⟩ := deserialize_of_live hd ht hr
  obtain ⟨value, hget, hvalue⟩ := RecordCodec.getValue_eq hvalues (Schema.lt_of_columnIndex hk)
  cases hget.symm.trans hactual
  have htarget : Condition.Target table.schema ⟨column, op, literal⟩ k target := ⟨hk, hv⟩
  rw [satisfiesAll_iff hvalues, List.forall_mem_singleton, Condition.satisfies_iff htarget hvalue]

/-- On every consistent database the answers to the five comparisons of a column with a literal
partition the rows that have a value there, exactly if the column is not a BOOLEAN or has no value
in any row. The answers are those of the sequential plan, and, in some order, those of the plan that
the executor builds. -/
theorem comparisons_partition_iff (hd : DatabaseState h catalog d c)
    (ht : catalog.tables.lookup name = some table)
    (hk : table.schema.columnIndex column = some k)
    (hv : convertLiteral (table.schema.getD k ⟨[], .integer, 0⟩) literal false = .ok target) :
    ∃ answer : Bytes → List Record,
      (∀ op, ((Plan.seqScan table.firstPageId).filter table.schema ⟨column, op, literal⟩).Produces
        ext h (answer op) (.ok ())) ∧
      (∀ op plan schema, buildScanPlan catalog name [⟨column, op, literal⟩] = .ok (plan, schema) →
        ∃ records, plan.Produces ext h records (.ok ()) ∧ records.Perm (answer op)) ∧
      (Partitions (HasValue table.schema (c.chain table.firstPageId) k) answer ↔
        (table.schema.getD k ⟨[], .integer, 0⟩).type ≠ .boolean ∨
          ∀ record, ¬ HasValue table.schema (c.chain table.firstPageId) k record) := by
  have hkeys : catalog.KeysSeparate := hd.keysSeparate
  replace hd := hd.toDatabaseHolds
  have hh := heapHolds_of_lookup hd ht
  have htarget : ∀ op, Condition.Target table.schema ⟨column, op, literal⟩ k target :=
    fun op => ⟨hk, hv⟩
  have hlive : ∀ record, record ∈ (c.chain table.firstPageId).records ↔
      (c.chain table.firstPageId).record record.rid = some record.data := fun record =>
    Chain.mem_records hh.holds.bounded hh.nodup
  have hmem : ∀ op record,
      record ∈ FilterOperator.kept table.schema ⟨column, op, literal⟩
        (c.chain table.firstPageId).records ↔
      (c.chain table.firstPageId).record record.rid = some record.data ∧
        SatisfiesAll table.schema [⟨column, op, literal⟩] record.data := by
    intro op record
    rw [FilterOperator.kept, List.mem_filter, decide_eq_true_eq, hlive]
  refine ⟨fun op => FilterOperator.kept table.schema ⟨column, op, literal⟩
    (c.chain table.firstPageId).records, fun op => ?_, fun op plan schema hplan => ?_, ?_⟩
  · exact filter_produces (htarget op) (seqScan_produces hh) (fun record hin =>
      deserialize_of_live hd ht ((hlive record).mp hin)) (HeapFile.length_records_lt hh)
  · rw [buildScanPlan, buildPlan_eq hd ht] at hplan
    cases hfind : findIndexedCondition catalog name table.schema [⟨column, op, literal⟩] with
    | error e =>
      rw [hfind] at hplan
      cases hplan
    | ok indexed =>
      obtain ⟨scan, records, hscan, hproduces, hselects, -⟩ := filteredScan_produces
        hd (hkeys.forConditions ht _) ht hfind
        (List.forall_mem_singleton.mpr ⟨k, target, htarget op⟩)
      rw [hfind] at hplan
      dsimp only at hplan
      rw [hscan] at hplan
      cases hplan
      refine ⟨records, hproduces, ?_⟩
      rw [List.perm_ext_iff_of_nodup hselects.nodup.of_map]
      · intro record
        rw [hselects.mem, hmem]
      · apply List.Nodup.filter
        exact (Chain.nodup_records hh.holds.bounded hh.nodup).of_map
  · have hanswer : ∀ op record,
        record ∈ FilterOperator.kept table.schema ⟨column, op, literal⟩
          (c.chain table.firstPageId).records ↔
        HasValue table.schema (c.chain table.firstPageId) k record ∧
          SatisfiesAll table.schema [⟨column, op, literal⟩] record.data := by
      intro op record
      rw [hmem]
      refine ⟨fun hr => ⟨⟨hr.1, ?_⟩, hr.2⟩, fun hr => ⟨hr.1.1, hr.2⟩⟩
      obtain ⟨values, hvalues⟩ := deserialize_of_live hd ht hr.1
      obtain ⟨actual, hget, -⟩ := RecordCodec.getValue_eq hvalues (Schema.lt_of_columnIndex hk)
      refine ⟨actual, hget, ?_⟩
      rintro rfl
      exact not_compares_null ((satisfies_iff_compares hd ht hk hv hr.1 hget op).mp hr.2)
    have hsplits : ∀ record, HasValue table.schema (c.chain table.firstPageId) k record →
        (Splits (fun op => SatisfiesAll table.schema [⟨column, op, literal⟩] record.data) ↔
          (table.schema.getD k ⟨[], .integer, 0⟩).type ≠ .boolean) := by
      rintro record ⟨hr, actual, hget, hnull⟩
      obtain ⟨htype, htnull⟩ := convertLiteral_accepts hv
      rw [funext fun op => propext (satisfies_iff_compares hd ht hk hv hr hget op)]
      exact splits_compares (accepts_of_live hd ht (Schema.lt_of_columnIndex hk) hr hget) htype
        hnull
        htnull
    rw [partitions_iff hanswer]
    constructor
    · intro h
      by_cases hany : ∃ record, HasValue table.schema (c.chain table.firstPageId) k record
      · obtain ⟨record, hrecord⟩ := hany
        exact .inl ((hsplits record hrecord).mp (h record hrecord))
      · exact .inr (not_exists.mp hany)
    · rintro (htype | hnone) record hrecord
      · exact (hsplits record hrecord).mpr htype
      · exact absurd hrecord (hnone record)

end

/-! ## A BOOLEAN column -/

/-- A table `u` with one row, whose BOOLEAN `a` is true. -/
def booleanTable : List SQLStatement :=
  [.createTable ⟨str "u", [⟨str "a", str "BOOLEAN", 0⟩]⟩,
    .insert ⟨str "u", [⟨.identifier, str "true"⟩]⟩]

/-- `SELECT * FROM u WHERE a op true` -/
def selectTrue (op : Bytes) : SQLStatement :=
  .select ⟨str "u", [str "*"], [⟨str "a", op, ⟨.identifier, str "true"⟩⟩], false⟩

/-- The status and the rows of a SELECT. -/
def answerOf (catalog : CatalogManager) (w : BufferPoolManager) (statement : SQLStatement) :
    Option (Except Status Unit × List (List FieldValue)) :=
  ((execute catalog statement).run w).map fun r => (r.1.1, r.1.2.1.rows)

theorem reached_booleanTable : ∃ catalog w, Reached 1 catalog w ∧
    (catalog.tables.lookup (str "u")).map TableMetadata.schema = some [⟨str "a", .boolean, 1⟩] ∧
    answerOf catalog w (selectTrue (str "=")) = some (.ok (), [[.boolean true]]) ∧
    answerOf catalog w (selectTrue (str "<=")) = some (.ok (), []) := by
  obtain ⟨catalog, w, hreached, hw⟩ := Reached.of_any 1 DiskFaults.none_reliable
    [str "CREATE TABLE u (a BOOLEAN);", str "INSERT INTO u VALUES (true);"] booleanTable
    (fun catalog w =>
      (catalog.tables.lookup (str "u")).map TableMetadata.schema = some [⟨str "a", .boolean, 1⟩] ∧
      answerOf catalog w (selectTrue (str "=")) = some (.ok (), [[.boolean true]]) ∧
      answerOf catalog w (selectTrue (str "<=")) = some (.ok (), []))
    (by decide +kernel) (by decide +kernel)
  exact ⟨catalog, w, hreached, of_decide_eq_true hw⟩

/-- In a table that SQL has made, `a = true` selects a row that `a <= true` does not. -/
theorem boolean_lessEqual_loses_equal : ∃ catalog w, Reached 1 catalog w ∧
    ∃ r r' w₁ w₂, (execute catalog (selectTrue (str "="))).run w = some (r, w₁) ∧
      (execute catalog (selectTrue (str "<="))).run w = some (r', w₂) ∧
      r.1 = .ok () ∧ r.2.1.rows = [[.boolean true]] ∧ r'.1 = .ok () ∧ r'.2.1.rows = [] := by
  obtain ⟨catalog, w, hreached, -, hequal, hless⟩ := reached_booleanTable
  obtain ⟨⟨r, w₁⟩, hrun, hr⟩ := Option.map_eq_some_iff.mp hequal
  obtain ⟨⟨r', w₂⟩, hrun', hr'⟩ := Option.map_eq_some_iff.mp hless
  obtain ⟨hstatus, hrows⟩ := Prod.mk.injEq _ _ _ _ ▸ hr
  obtain ⟨hstatus', hrows'⟩ := Prod.mk.injEq _ _ _ _ ▸ hr'
  exact ⟨catalog, w, hreached, r, r', w₁, w₂, hrun, hrun', hstatus, hrows, hstatus', hrows'⟩

theorem comparisons_partition_boolean : ∃ h catalog d c table, DatabaseState h catalog d c ∧
    catalog.tables.lookup (str "u") = some table ∧
    ∃ answer : Bytes → List Record,
      (∀ op, ((Plan.seqScan table.firstPageId).filter table.schema
        ⟨str "a", op, ⟨.identifier, str "true"⟩⟩).Produces (fun _ => 0) h (answer op) (.ok ())) ∧
      (Partitions (HasValue table.schema (c.chain table.firstPageId) 0) answer ↔
        (table.schema.getD 0 ⟨[], .integer, 0⟩).type ≠ .boolean ∨
          ∀ record, ¬ HasValue table.schema (c.chain table.firstPageId) 0 record) := by
  obtain ⟨catalog, w, hreached, htable, -⟩ := reached_booleanTable
  obtain ⟨table, ht, hschema⟩ := Option.map_eq_some_iff.mp htable
  obtain ⟨h, d, c, -, hd⟩ := hreached.state Nat.one_pos
  have hk : table.schema.columnIndex (str "a") = some 0 := by
    rw [hschema]
    decide
  have hv : convertLiteral (table.schema.getD 0 ⟨[], .integer, 0⟩) ⟨.identifier, str "true"⟩ false =
      .ok (.boolean true) := by
    rw [hschema]
    decide
  obtain ⟨answer, hanswer, -, hiff⟩ := comparisons_partition_iff hd ht hk hv
  exact ⟨h, catalog, d, c, table, hd, ht, answer, hanswer, hiff⟩

end MiniDbms
