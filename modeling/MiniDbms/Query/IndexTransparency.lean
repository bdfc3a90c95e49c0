import MiniDbms.Lib.Framing
import MiniDbms.Query.Restarts
import MiniDbms.Query.SelectRuns

/-!
# Indexes and answers

`Fewer catalog catalog'`: the catalog with some of its indexes removed. A SELECT that is planned
with `catalog'` never reads the pages of the other indexes, so it runs as if they did not exist:
they are a frame (`executeSelect_fewer`). Two such plans give the same answer, up to the order of
the rows; only if a literal of an equality condition has no key in an index, one plan may report
that as an error, where the other one finds no row (`operated_indexes`).
-/

namespace MiniDbms

open Lib PagedProgram Program HashIndex HeapFile StringMap CatalogManager QueryExecutor

/-! ## Removing indexes -/

namespace CatalogManager

/-- The same tables, and some of the indexes. -/
structure Fewer (catalog catalog' : CatalogManager) : Prop where
  wellFormed : WellFormed catalog'
  tables : catalog'.tables = catalog.tables
  indexes : ∀ {key index}, catalog'.indexes.lookup key = some index →
    catalog.indexes.lookup key = some index

/-- The catalog without an index. -/
def withoutIndex (catalog : CatalogManager) (key : Bytes) : CatalogManager :=
  match catalog.indexes.lookup key with
  | none => catalog
  | some index => { catalog with
      indexes := catalog.indexes.erase key
      indexNames := catalog.indexNames.erase index.name }

variable {catalog catalog' : CatalogManager}

theorem Fewer.refl (hw : WellFormed catalog) : Fewer catalog catalog := ⟨hw, rfl, id⟩

theorem lookup_erase_eq_some {α : Type} {m : StringMap α} {key key' : Bytes} {v : α} :
    (m.erase key).lookup key' = some v ↔ key' ≠ key ∧ m.lookup key' = some v := by
  by_cases he : key' = key
  · subst he
    simp [AList.lookup_erase]
  · simp [AList.lookup_erase_ne he, he]

theorem Fewer.withoutIndex (hw : WellFormed catalog) (key : Bytes) :
    Fewer catalog (catalog.withoutIndex key) := by
  unfold CatalogManager.withoutIndex
  cases hi : catalog.indexes.lookup key with
  | none => exact .refl hw
  | some index =>
    obtain ⟨hkey, -, -, hname, -⟩ := hw.index hi
    refine ⟨⟨hw.status, hw.table, fun {key' index'} hl => ?_, fun {name key'} hl => ?_⟩, rfl,
      fun hl => (lookup_erase_eq_some.mp hl).2⟩
    · obtain ⟨hne, hl⟩ := lookup_erase_eq_some.mp hl
      obtain ⟨hkey', hnames, hheader, hname', hcolumn⟩ := hw.index hl
      refine ⟨hkey', hnames, hheader, lookup_erase_eq_some.mpr ⟨fun he => hne ?_, hname'⟩, hcolumn⟩
      rw [he, hname] at hname'
      exact (Option.some.inj hname').symm
    · obtain ⟨hne, hl⟩ := lookup_erase_eq_some.mp hl
      obtain ⟨index', hl', rfl⟩ := hw.indexName hl
      refine ⟨index', lookup_erase_eq_some.mpr ⟨fun he => hne ?_, hl'⟩, rfl⟩
      rw [he, hi] at hl'
      cases hl'
      rfl

theorem Fewer.isFirstPage (hf : Fewer catalog catalog') (p : PageId) :
    catalog'.IsFirstPage p ↔ catalog.IsFirstPage p := by
  rw [IsFirstPage, IsFirstPage, hf.tables]

theorem Fewer.isHeader (hf : Fewer catalog catalog') {x : PageId} (hx : catalog'.IsHeader x) :
    catalog.IsHeader x := by
  obtain ⟨key, index, hi, he⟩ := hx
  exact ⟨key, index, hf.indexes hi, he⟩

theorem Fewer.owners (hf : Fewer catalog catalog') {d : PageData} {o : Owner}
    (ho : (catalog'.parts d).owners o) : (catalog.parts d).owners o := by
  cases o with
  | catalog => trivial
  | table p => exact (hf.isFirstPage p).mp ho
  | index x => exact hf.isHeader ho

end CatalogManager

/-! ## The pages of the other indexes -/

section

variable {h : Pages} {catalog catalog' : CatalogManager} {d : PageData} {c : Contents}

open Classical in
/-- The pages that belong to page 0, to the tables or to an index of the catalog. -/
noncomputable def CatalogManager.ownPages (catalog : CatalogManager) (d : PageData) (c : Contents)
    (h : Pages) : Pages :=
  { h with
    page := fun p => if ∃ o, (catalog.parts d).owners o ∧ p ∈ c.own o then h.page p else none }

open Classical in
/-- The other pages. -/
noncomputable def CatalogManager.otherPages (catalog : CatalogManager) (d : PageData) (c : Contents)
    (h : Pages) : PageId → Option PageData :=
  fun p => if ∃ o, (catalog.parts d).owners o ∧ p ∈ c.own o then none else h.page p

theorem join_ownPages (catalog : CatalogManager) (d : PageData) (c : Contents) (h : Pages) :
    (catalog.ownPages d c h).join (catalog.otherPages d c h) = h := by
  rw [Heap.join]
  have hpage : (fun p => ((catalog.ownPages d c h).page p).or (catalog.otherPages d c h p)) =
      h.page := by
    funext p
    unfold CatalogManager.ownPages CatalogManager.otherPages
    by_cases hp : ∃ o, (catalog.parts d).owners o ∧ p ∈ c.own o
    · simp only [if_pos hp, Option.or_none]
    · simp only [if_neg hp, Option.none_or]
  simp only [hpage]
  rfl

theorem disjoint_ownPages (catalog : CatalogManager) (d : PageData) (c : Contents) (h : Pages) :
    (catalog.ownPages d c h).Disjoint (catalog.otherPages d c h) := by
  intro p hp
  unfold CatalogManager.ownPages at hp
  unfold CatalogManager.otherPages
  by_cases ho : ∃ o, (catalog.parts d).owners o ∧ p ∈ c.own o
  · rw [if_pos ho]
  · simp only [if_neg ho] at hp
    exact absurd rfl hp

theorem page_ownPages {o : Owner} (ho : (catalog.parts d).owners o) {p : PageId}
    (hp : p ∈ c.own o) :
    (catalog.ownPages d c h).page p = h.page p := by
  unfold CatalogManager.ownPages
  exact if_pos ⟨o, ho, hp⟩

/-- Without the other pages, the database of a catalog with fewer indexes is consistent. -/
theorem Queryable.fewer (hd : Queryable h catalog d c) (hf : Fewer catalog catalog') :
    Queryable (catalog'.ownPages d c h) catalog' d c where
  wellFormed := hf.wellFormed
  storage := by
    have hs := hd.storage
    refine ⟨?_, fun p hp => ?_, fun x hx => ?_, fun o ho => hs.owned.nodup o (hf.owners ho),
      fun o o' p ho ho' => hs.owned.unique o o' p (hf.owners ho) (hf.owners ho'), fun p => ?_⟩
    · rw [page_ownPages (o := .catalog) trivial List.mem_cons_self]
      exact hs.catalogPage
    · have ho : (catalog'.parts d).owners (.table p) := hp
      exact (hs.heap p ((hf.isFirstPage p).mp hp)).congr fun q hq => page_ownPages ho hq
    · have ho : (catalog'.parts d).owners (.index x) := hx
      exact (hs.index x (hf.isHeader hx)).congr fun q hq => page_ownPages ho hq
    · unfold CatalogManager.ownPages
      dsimp only
      split
      · rename_i ho
        obtain ⟨o, howner, hin⟩ := ho
        exact iff_of_true (hs.owned.exists_of_mem (hf.owners howner) hin) ⟨o, howner, hin⟩
      · rename_i ho
        exact iff_of_false (fun hc => hc rfl) ho
  firstPages := by
    rw [hf.tables]
    exact hd.firstPages
  headers hi hi' := hd.headers (hf.indexes hi) (hf.indexes hi')
  serialized := by
    rw [hf.tables]
    exact hd.serialized
  indexed {key index table k} hi ht := by
    rw [hf.tables] at ht
    exact hd.indexed (hf.indexes hi) ht
  keysSeparate {name table columnName index} ht hi := by
    rw [hf.tables] at ht
    exact hd.keysSeparate ht (hf.indexes hi)
  counts := by
    rw [hf.tables]
    exact hd.counts

end

/-! ## SELECT with some of the indexes -/

section

variable {ext : PageId → Nat} {h : Pages} {catalog catalog' catalog'' : CatalogManager}
  {d : PageData} {c : Contents} {table : TableMetadata} {select : SelectStatement}
  {r r' : Except Status Unit × QueryResult}

/-- A SELECT that is planned with fewer indexes does what it does where the others do not exist. -/
theorem executeSelect_fewer (hd : Queryable h catalog d c) (hf : Fewer catalog catalog')
    (ht : catalog.tables.lookup select.tableName = some table) :
    Runs (poolContext ext) (executeSelect catalog' select)
      (SelectDone h catalog' table (c.chain table.firstPageId) select) h := by
  have ht' : catalog'.tables.lookup select.tableName = some table := by
    rw [hf.tables]
    exact ht
  have hqueried : Runs (poolContext ext) (executeSelect catalog' select)
      (SelectDone (ownPages catalog' d c h) catalog' table (c.chain table.firstPageId) select)
      (ownPages catalog' d c h) := executeSelect_queried (hd.fewer hf) ht'
  have hruns := hqueried.frame (disjoint_ownPages catalog' d c h)
  rw [join_ownPages] at hruns
  refine hruns.mono fun r h' hr => ?_
  obtain ⟨h₀, hdone, rfl⟩ := hr
  refine ⟨?_, hdone.returns, hdone.ok, hdone.answerable⟩
  rw [hdone.same, join_ownPages]

/-- An equality condition on a column with an index, whose literal has no key there. -/
def Unkeyed (catalog : CatalogManager) (table : TableMetadata) (condition : Condition) : Prop :=
  condition.op = str "=" ∧ catalog.hasIndex table.name condition.column = true ∧
    ∃ k target, condition.Target table.schema k target ∧ ∀ key, IndexKey.encode target ≠ .ok key

/-- The search for an index fails only if some literal has no key. -/
theorem unkeyed_of_error {name : Bytes} {schema : Schema} :
    ∀ {conditions : List Condition} {e : Status},
    (∀ condition ∈ conditions, ∃ k target, condition.Target schema k target) →
    findIndexedCondition catalog name schema conditions = .error e →
    ∃ condition ∈ conditions, condition.op = str "=" ∧
      catalog.hasIndex name condition.column = true ∧
      ∃ k target, condition.Target schema k target ∧ ∀ key, IndexKey.encode target ≠ .ok key := by
  intro conditions
  induction conditions with
  | nil =>
    intro e _ hfind
    cases hfind
  | cons condition conditions ih =>
    intro e htargets hfind
    rw [findIndexedCondition] at hfind
    split at hfind
    · obtain ⟨found, hin, hfound⟩ := ih (fun x hx => htargets x (List.mem_cons_of_mem _ hx)) hfind
      exact ⟨found, List.mem_cons_of_mem _ hin, hfound⟩
    · rename_i hc
      rw [not_or, not_not, Bool.not_eq_false] at hc
      obtain ⟨k, target, htarget⟩ := htargets condition List.mem_cons_self
      rw [findColumn_of_some htarget.1] at hfind
      dsimp only at hfind
      rw [htarget.2] at hfind
      dsimp only at hfind
      refine ⟨condition, List.mem_cons_self, hc.1, hc.2, k, target, htarget, fun key hkey => ?_⟩
      rw [hkey] at hfind
      cases hfind

/-- No row of the table satisfies such a condition. -/
theorem Unkeyed.not_satisfied (hd : Queryable h catalog d c)
    (ht : catalog.tables.lookup table.name = some table) {condition : Condition}
    (hu : Unkeyed catalog table condition) {rid : RecordID} {data : Bytes}
    (hr : (c.chain table.firstPageId).record rid = some data) {values : List FieldValue}
    (hvalues : RecordCodec.deserialize table.schema data = .ok values) :
    ¬ condition.Satisfies table.schema values := by
  intro hsat
  obtain ⟨hop, hindex, k, target, htarget, hno⟩ := hu
  obtain ⟨k', target', actual, htarget', hactual, hcompares⟩ := hsat
  obtain ⟨rfl, rfl⟩ := htarget.unique htarget'
  rw [hop] at hcompares
  cases hcompares.eq
  have hmem : makeIndexKey table.name condition.column ∈ catalog.indexes := by
    unfold hasIndex at hindex
    exact of_decide_eq_true (Bool.and_eq_true_iff.mp hindex).2
  obtain ⟨index, hi⟩ := mem_iff_lookup.mp hmem
  obtain ⟨htable, hcolumn⟩ := hd.keysSeparate ht hi
  obtain ⟨v, hv, hkey⟩ := (hd.indexed hi (by rw [htable]; exact ht)
    (by rw [hcolumn]; exact htarget.1)).encodable rid data hr
  obtain ⟨hlt, -⟩ := List.getElem?_eq_some_iff.mp hactual
  rw [RecordCodec.length_deserialize hvalues] at hlt
  rw [RecordCodec.getValue, hvalues] at hv
  dsimp only at hv
  rw [hactual] at hv
  cases hv
  rcases hkey with rfl | ⟨key, hkey⟩
  · exact not_compares_null hcompares
  · exact hno key hkey

theorem Unkeyed.of_fewer (hd : Queryable h catalog d c) (hf : Fewer catalog catalog')
    {condition : Condition} (hu : Unkeyed catalog' table condition) :
    Unkeyed catalog table condition := by
  obtain ⟨hop, hindex, hno⟩ := hu
  refine ⟨hop, ?_, hno⟩
  unfold hasIndex at hindex ⊢
  obtain ⟨index, hi⟩ := mem_iff_lookup.mp (of_decide_eq_true (Bool.and_eq_true_iff.mp hindex).2)
  rw [Bool.and_eq_true_iff, decide_eq_true_iff, hd.wellFormed.status]
  exact ⟨rfl, mem_iff_lookup.mpr ⟨index, hf.indexes hi⟩⟩

/-! ## The answers -/

/-- Two answers to a SELECT, the second one planned with `catalog'`: they have the same rows, or the
second one is an error, since a literal has no key, and the first one is empty. -/
structure Matches (catalog catalog' : CatalogManager) (select : SelectStatement)
    (r r' : Except Status Unit × QueryResult) : Prop where
  rows : r.1 = .ok () → r'.1 = .ok () →
    r'.2.columnNames = r.2.columnNames ∧ r.2.rows.Perm r'.2.rows
  missing : r.1 = .ok () → r'.1 ≠ .ok () → r.2.rows = [] ∧
    ∃ table, catalog.tables.lookup select.tableName = some table ∧
      ∃ condition ∈ select.conditions, Unkeyed catalog' table condition

theorem matches_of_done {h₁ h₂ : Pages} (hd : Queryable h catalog d c)
    (ht : catalog.tables.lookup select.tableName = some table) (hf : Fewer catalog catalog')
    (hr : SelectDone h catalog'' table (c.chain table.firstPageId) select r h₁)
    (hr' : SelectDone h catalog' table (c.chain table.firstPageId) select r' h₂) :
    Matches catalog catalog' select r r' := by
  have hname : table.name = select.tableName := (hd.wellFormed.table ht).1
  refine ⟨fun hok hok' => ?_, fun hok hno => ?_⟩
  · obtain ⟨columns, records, _, hrequested, -, hselects, -, hreturns⟩ := hr.returns hok
    obtain ⟨columns', records', _, hrequested', -, hselects', -, hreturns'⟩ := hr'.returns hok'
    cases hrequested.symm.trans hrequested'
    have hperm : records.Perm records' := by
      rw [List.perm_ext_iff_of_nodup hselects.nodup.of_map hselects'.nodup.of_map]
      exact fun record => (hselects.mem record).trans (hselects'.mem record).symm
    rw [hreturns.columnNames, hreturns'.columnNames, hreturns.rows, hreturns'.rows]
    exact ⟨rfl, hperm.map _⟩
  · obtain ⟨columns, ha⟩ := hr.answerable hok
    obtain ⟨_, records, _, -, -, hselects, -, hreturns⟩ := hr.returns hok
    cases hfind : findIndexedCondition catalog' select.tableName table.schema select.conditions with
    | ok indexed =>
      exact absurd (hr'.ok ⟨columns, ha.requested, ha.targets, ⟨indexed, hfind⟩, ha.fits⟩) hno
    | error e =>
      obtain ⟨condition, hin, hunkeyed⟩ := unkeyed_of_error ha.targets hfind
      rw [← hname] at hunkeyed
      have hu : Unkeyed catalog' table condition := hunkeyed
      refine ⟨?_, table, ht, condition, hin, hu⟩
      rw [hreturns.rows, List.map_eq_nil_iff, List.eq_nil_iff_forall_not_mem]
      intro record hrecord
      obtain ⟨hlive, values, hvalues, hall⟩ := (hselects.mem record).mp hrecord
      exact (hu.of_fewer hd hf).not_satisfied hd (by rw [hname]; exact ht) hlive hvalues
        (hall condition hin)

/-- Two plans for a SELECT, each with some of the indexes of the catalog. -/
def IndexesMatch (catalog catalog' catalog'' : CatalogManager) (w : BufferPoolManager)
    (select : SelectStatement) : Prop :=
  ∃ r r' w' w'', (execute catalog' (.select select)).run w = some ((r.1, r.2, catalog'), w') ∧
    (execute catalog'' (.select select)).run w = some ((r'.1, r'.2, catalog''), w'') ∧
    Matches catalog catalog'' select r r' ∧ Matches catalog catalog' select r' r

theorem executeSelect_none (hw : WellFormed catalog)
    (ht : catalog.tables.lookup select.tableName = none) :
    executeSelect catalog select =
      (return (.error (.notFound "Table was not found in catalog"), {}) : Program _) := by
  rw [executeSelect, buildPlan, getTableSchema, hw.status]
  dsimp only
  rw [ht]

/-- With whatever indexes a SELECT is planned, its answer has the same rows; an error in place of
the answer means that a literal has no key, and that there are no rows. -/
theorem operated_indexes {w : BufferPoolManager} (ho : Operated catalog w)
    (hf : Fewer catalog catalog') (hf' : Fewer catalog catalog'') (select : SelectStatement) :
    IndexesMatch catalog catalog' catalog'' w select := by
  obtain ⟨h, d, c, hw, hd, -⟩ := ho.state
  replace hd := hd.queryable
  have hrun : ∀ {catalog₁ : CatalogManager} {r w₁}, Fewer catalog catalog₁ →
      (executeSelect catalog₁ select).run w = some (r, w₁) →
      (execute catalog₁ (.select select)).run w = some ((r.1, r.2, catalog₁), w₁) := by
    intro catalog₁ r w₁ hf₁ hexec
    rw [execute_select hf₁.wellFormed.status, run_bind, hexec]
    rfl
  cases ht : catalog.tables.lookup select.tableName with
  | none =>
    have hnone : ∀ {catalog₁ : CatalogManager}, Fewer catalog catalog₁ →
        (executeSelect catalog₁ select).run w =
          some ((.error (.notFound "Table was not found in catalog"), {}), w) := by
      intro catalog₁ hf₁
      rw [executeSelect_none hf₁.wellFormed (by rw [hf₁.tables]; exact ht)]
      rfl
    exact ⟨_, _, w, w, hrun hf (hnone hf), hrun hf' (hnone hf'),
      ⟨(fun he => by cases he), fun he => by cases he⟩,
      ⟨(fun he => by cases he), fun he => by cases he⟩⟩
  | some table =>
    obtain ⟨r, w', h', hexec, hdone, -⟩ := run_of_runs hw (executeSelect_fewer hd hf ht)
    obtain ⟨r', w'', h'', hexec', hdone', -⟩ := run_of_runs hw (executeSelect_fewer hd hf' ht)
    exact ⟨r, r', w', w'', hrun hf hexec, hrun hf' hexec', matches_of_done hd ht hf' hdone hdone',
      matches_of_done hd ht hf hdone' hdone⟩

/-- With and without the index on the column `a`. -/
theorem sample_indexes_match : ∃ catalog w, Operated catalog w ∧
    (catalog.indexes.lookup (str "t.a")).isSome ∧
    IndexesMatch catalog catalog (catalog.withoutIndex (str "t.a")) w
      ⟨str "t", [str "*"], [⟨str "a", str "=", ⟨.number, str "7"⟩⟩], false⟩ := by
  obtain ⟨catalog, w, hreached, -, hindex⟩ := reached_sample
  have ho := Operated.of_reached Nat.one_pos hreached
  obtain ⟨h, d, c, -, hd, -⟩ := ho.state
  have hwell : WellFormed catalog := hd.wellFormed
  exact ⟨catalog, w, ho, hindex, operated_indexes ho (.refl hwell) (.withoutIndex hwell _) _⟩

end

end MiniDbms
