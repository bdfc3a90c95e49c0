import MiniDbms.Catalog.CatalogRuns

/-!
# Looking an index up

`HasIndex`, `GetIndex` and `GetIndexHeaderPageId` look for the key `table.column`
(`makeIndexKey`). After any sequence of `CreateTable` and `CreateIndex` calls on a new catalog the
maps record exactly the indexes that have been created (`Calls.records`). The lookups are by the
exact pair of names as long as no index has been created with a `.` in one of its names
(`index_lookups_exact`): two pairs with one key are then the same pair (`makeIndexKey_inj`), and a
key with a further `.` belongs to a second pair (`exists_twin`).
-/

namespace MiniDbms

open Lib PagedProgram Program BufferPoolManager

namespace CatalogManager

variable {catalog catalog' changed : CatalogManager} {w w' : BufferPoolManager}
  {tableName columnName indexName : Bytes} {made created : List Change}

/-! ## The key of an index -/

/-- Neither name has a `.` in it. -/
def Undotted (tableName columnName : Bytes) : Prop := 46 ∉ tableName ∧ 46 ∉ columnName

instance : Decidable (Undotted tableName columnName) := inferInstanceAs (Decidable (_ ∧ _))

theorem makeIndexKey_inj {t c : Bytes} (h : Undotted tableName columnName)
    (hkey : makeIndexKey t c = makeIndexKey tableName columnName) :
    t = tableName ∧ c = columnName := by
  obtain ⟨ht, -, hc⟩ := (List.append_cons_inj_of_notMem h.1 h.2).mp hkey.symm
  exact ⟨ht.symm, hc.symm⟩

/-- A key with two dots can be split at either. -/
theorem exists_twin (h : ¬ Undotted tableName columnName) :
    ∃ t c, makeIndexKey t c = makeIndexKey tableName columnName ∧ t ≠ tableName := by
  by_cases ht : 46 ∈ tableName
  · obtain ⟨front, back, rfl⟩ := List.append_of_mem ht
    refine ⟨front, back ++ 46 :: columnName, ?_, ?_⟩
    · simp only [makeIndexKey, List.append_assoc, List.cons_append]
    · intro heq
      have hlength := congrArg List.length heq
      simp only [List.length_append, List.length_cons] at hlength
      omega
  · have hc : 46 ∈ columnName := by
      apply by_contra
      intro hc
      exact h ⟨ht, hc⟩
    obtain ⟨front, back, rfl⟩ := List.append_of_mem hc
    refine ⟨tableName ++ 46 :: front, back, ?_, ?_⟩
    · simp only [makeIndexKey, List.append_assoc, List.cons_append]
    · intro heq
      have hlength := congrArg List.length heq
      simp only [List.length_append, List.length_cons] at hlength
      omega

/-! ## The errors of `Persist` -/

/-- The computation fails with `OUT_OF_MEMORY` only. -/
def FailsFull {α : Type} (result : Except Status α) : Prop :=
  ∀ e, result = .error e → e.code = .outOfMemory

section

variable {α β : Type}

theorem failsFull_ok (a : α) : FailsFull (.ok a) := nofun

theorem failsFull_full (msg : String) :
    FailsFull (.error (.outOfMemory msg) : Except Status α) := by
  intro e h
  cases h
  rfl

theorem FailsFull.bind {result : Except Status α} {k : α → Except Status β}
    (h : FailsFull result) (hk : ∀ a, FailsFull (k a)) : FailsFull (result >>= k) := by
  cases result with
  | error e =>
    intro e' h'
    cases h'
    exact h e rfl
  | ok a => exact hk a

theorem failsFull_foldlM {body : β → α → Except Status β} (h : ∀ b a, FailsFull (body b a)) :
    ∀ (l : List α) (b : β), FailsFull (l.foldlM body b) := by
  intro l
  induction l with
  | nil => exact failsFull_ok
  | cons a l ih =>
    intro b
    rw [List.foldlM_cons]
    exact (h b a).bind ih

end

theorem failsFull_writeAll (buffer : Bytes) (parts : List Bytes) :
    FailsFull (writeAll buffer parts) := by
  unfold writeAll
  split
  · exact failsFull_ok _
  · exact failsFull_full _

theorem failsFull_writeColumn (buffer : Bytes) (column : Column) :
    FailsFull (writeColumn buffer column) := by
  unfold writeColumn
  split
  · exact failsFull_full _
  · exact failsFull_writeAll _ _

theorem failsFull_writeTable (buffer : Bytes) (table : TableMetadata) :
    FailsFull (writeTable buffer table) := by
  unfold writeTable
  split
  · exact failsFull_full _
  apply (failsFull_writeAll _ _).bind
  intro entry
  apply (failsFull_foldlM failsFull_writeColumn _ _).bind
  intro entry
  split
  · exact failsFull_full _
  · exact failsFull_ok _

theorem failsFull_writeIndex (buffer : Bytes) (index : IndexMetadata) :
    FailsFull (writeIndex buffer index) := by
  unfold writeIndex
  split
  · exact failsFull_full _
  apply (failsFull_writeAll _ _).bind
  intro entry
  split
  · exact failsFull_full _
  · exact failsFull_ok _

theorem failsFull_serialize (catalog : CatalogManager) : FailsFull (serialize catalog) := by
  unfold serialize
  split
  · exact failsFull_full _
  apply (failsFull_foldlM failsFull_writeTable _ _).bind
  intro buffer
  apply (failsFull_foldlM failsFull_writeIndex _ _).bind
  intro buffer
  split
  · exact failsFull_full _
  · exact failsFull_ok _

/-- `Persist` never blames the arguments. -/
theorem always_persist (catalog : CatalogManager) :
    (persist catalog).Always fun r => ∀ e, r = .error e → e.code ≠ .invalidArgument := by
  unfold persist
  cases hs : serialize catalog with
  | error e =>
    apply always_pure
    intro e' he
    cases he
    rw [failsFull_serialize _ _ hs]
    nofun
  | ok serialized =>
    have hio : ∀ msg, (pure (.error (.ioError msg)) : Program (Except Status Unit)).Always
        fun r => ∀ e, r = .error e → e.code ≠ .invalidArgument := by
      intro msg e he
      cases he
      nofun
    apply always_fetchPage
    rintro (_ | ⟨f, data⟩)
    · exact hio _
    apply always_putPage
    apply always_unpinPage (hio _)
    apply always_flushPage (hio _)
    exact always_pure nofun

/-! ## Runs of `CreateTable` and `CreateIndex` -/

namespace Change

variable {call : Change} {result : Except Status Unit}

/-- What is left after `Persist` has failed never blames the arguments. -/
theorem always_undo {e : Status} (he : e.code ≠ .invalidArgument) :
    (call.undo catalog e).Always fun r => r.2 = catalog ∧
      ∃ e', r.1 = .error e' ∧ e'.code ≠ .invalidArgument := by
  cases call with
  | createTable => exact always_pure ⟨rfl, e, rfl, he⟩
  | createIndex _ _ _ index =>
    apply always_bind (always_true (HashIndex.destroy index))
    rintro (_ | _) -
    · exact always_pure ⟨rfl, _, rfl, nofun⟩
    · exact always_pure ⟨rfl, e, rfl, he⟩

/-- A call that succeeds was accepted; one that fails leaves the catalog alone, and blames the
arguments only if it was not accepted. -/
theorem exec_result (hrun : (call.exec catalog).run w = some ((result, catalog'), w')) :
    (result = .ok () ∧ call.Accepts catalog catalog') ∨
      ∃ e, result = .error e ∧ catalog' = catalog ∧
        ((∃ changed, call.Accepts catalog changed) → e.code ≠ .invalidArgument) := by
  by_cases hacc : ∃ changed, call.Accepts catalog changed
  · obtain ⟨changed, hacc⟩ := hacc
    rw [exec_accepted hacc, run_bind] at hrun
    cases hp : (persist changed).run w with
    | none =>
      rw [hp] at hrun
      cases hrun
    | some r =>
      rw [hp] at hrun
      obtain ⟨_ | _, v⟩ := r
      · rename_i e
        have hcode := run_always (always_persist changed) hp e rfl
        obtain ⟨hcat, e', he, hcode'⟩ := run_always (always_undo hcode) hrun
        exact .inr ⟨e', he, hcat, fun _ => hcode'⟩
      · cases hrun
        exact .inl ⟨rfl, hacc⟩
  · rw [not_exists] at hacc
    obtain ⟨e, he⟩ := exec_rejected hacc
    rw [he] at hrun
    cases hrun
    refine .inr ⟨e, rfl, rfl, ?_⟩
    rintro ⟨changed, hchanged⟩
    exact absurd hchanged (hacc changed)

end Change

/-- A run of calls on a new catalog: the catalog, the calls made and those that succeeded. Between
two calls the pool may change in any way. -/
inductive Calls : CatalogManager → List Change → List Change → Prop where
  | new : Calls {} [] []
  | ok {catalog catalog' made created call w w'} : Calls catalog made created →
      (Change.exec catalog call).run w = some ((.ok (), catalog'), w') →
      Calls catalog' (call :: made) (call :: created)
  | error {catalog catalog' made created call e w w'} : Calls catalog made created →
      (Change.exec catalog call).run w = some ((.error e, catalog'), w') →
      Calls catalog' (call :: made) created

theorem Calls.subset (h : Calls catalog made created) : ∀ call ∈ created, call ∈ made := by
  induction h with
  | new => exact fun _ h => h
  | ok _ _ ih =>
    intro call hin
    rcases List.mem_cons.mp hin with rfl | hin
    · exact List.mem_cons_self
    · exact List.mem_cons_of_mem _ (ih call hin)
  | error _ _ ih => exact fun call hin => List.mem_cons_of_mem _ (ih call hin)

/-- The maps have the indexes that have been created, under their keys. -/
structure Records (created : List Change) (catalog : CatalogManager) : Prop where
  status : catalog.initializationStatus = .ok ()
  indexes : ∀ key index, catalog.indexes.lookup key = some index ↔
    key = makeIndexKey index.tableName index.columnName ∧
      .createIndex index.name index.tableName index.columnName index.headerPageId ∈ created
  indexNames : ∀ name, name ∈ catalog.indexNames ↔
    ∃ tableName columnName header, .createIndex name tableName columnName header ∈ created

theorem Records.accept {call : Change} (h : Records created catalog)
    (hacc : call.Accepts catalog catalog') : Records (call :: created) catalog' := by
  cases call with
  | createTable t schema p =>
    obtain ⟨-, -, -, -, -, rfl⟩ := hacc
    refine ⟨h.status, fun key index => ?_, fun name => ?_⟩
    · rw [h.indexes]
      simp only [List.mem_cons, reduceCtorEq, false_or]
    · rw [h.indexNames]
      simp only [List.mem_cons, reduceCtorEq, false_or]
  | createIndex n t c p =>
    obtain ⟨-, -, -, hkey, -, rfl⟩ := hacc
    refine ⟨h.status, fun key index => ?_, fun name => ?_⟩
    · rw [StringMap.lookup_insert_eq_some, h.indexes]
      constructor
      · rintro (⟨rfl, rfl⟩ | ⟨hne, hold, hin⟩)
        · exact ⟨rfl, List.mem_cons_self⟩
        · exact ⟨hold, List.mem_cons_of_mem _ hin⟩
      · rintro ⟨rfl, hin⟩
        rcases List.mem_cons.mp hin with heq | hin
        · cases heq
          exact .inl ⟨rfl, rfl⟩
        · refine .inr ⟨fun heq => hkey ?_, rfl, hin⟩
          rw [← heq]
          exact StringMap.mem_iff_lookup.mpr ⟨index, (h.indexes _ _).mpr ⟨rfl, hin⟩⟩
    · rw [AList.mem_insert, h.indexNames]
      constructor
      · rintro (rfl | ⟨t', c', p', hin⟩)
        · exact ⟨t, c, p, List.mem_cons_self⟩
        · exact ⟨t', c', p', List.mem_cons_of_mem _ hin⟩
      · rintro ⟨t', c', p', hin⟩
        rcases List.mem_cons.mp hin with heq | hin
        · cases heq
          exact .inl rfl
        · exact .inr ⟨t', c', p', hin⟩

theorem Calls.records (h : Calls catalog made created) : Records created catalog := by
  induction h with
  | new =>
    refine ⟨rfl, fun key index => ?_, fun name => ?_⟩
    · simp only [AList.lookup_empty, reduceCtorEq, List.not_mem_nil, and_false]
    · simp only [AList.notMem_empty, List.not_mem_nil, exists_false]
  | ok _ hrun ih =>
    rcases Change.exec_result hrun with ⟨-, hacc⟩ | ⟨e, he, -⟩
    · exact ih.accept hacc
    · cases he
  | error _ hrun ih =>
    rcases Change.exec_result hrun with ⟨he, -⟩ | ⟨-, -, rfl, -⟩
    · cases he
    · exact ih

/-! ## Lookups by the exact names -/

/-- `CreateIndex` says that there is such an index already. -/
def IsDuplicate (e : Status) : Prop :=
  e = .invalidArgument "An index already exists for this table column" ∨
    e = .invalidArgument "Index name already exists"

/-- The lookups find exactly the indexes that have been created with these names, and no further
index is taken for a duplicate. -/
structure ExactLookups (created : List Change) (catalog : CatalogManager) : Prop where
  hasIndex : ∀ tableName columnName, catalog.hasIndex tableName columnName = true ↔
    ∃ name header, .createIndex name tableName columnName header ∈ created
  getIndex : ∀ tableName columnName header, catalog.getIndex tableName columnName = some header ↔
    ∃ name, .createIndex name tableName columnName header ∈ created
  getIndexHeaderPageId : ∀ tableName columnName header,
    catalog.getIndexHeaderPageId tableName columnName = .ok header ↔
      ∃ name, .createIndex name tableName columnName header ∈ created
  createIndex : ∀ {name tableName columnName header e catalog' w w'},
    HasColumn catalog tableName columnName → catalog.hasIndexName name = false →
    (∀ name' header', .createIndex name' tableName columnName header' ∉ created) →
    (Change.exec catalog (.createIndex name tableName columnName header)).run w =
      some ((.error e, catalog'), w') → ¬ IsDuplicate e

/-- No `CreateIndex` of the list has a `.` in one of its names. -/
def AllUndotted (calls : List Change) : Prop :=
  ∀ name tableName columnName header,
    .createIndex name tableName columnName header ∈ calls → Undotted tableName columnName

section

variable (h : Records created catalog)

include h

theorem Records.lookup (hall : AllUndotted created) {index : IndexMetadata} :
    catalog.indexes.lookup (makeIndexKey tableName columnName) = some index ↔
      (index.tableName = tableName ∧ index.columnName = columnName) ∧
        .createIndex index.name index.tableName index.columnName index.headerPageId ∈ created := by
  rw [h.indexes]
  constructor
  · rintro ⟨hkey, hin⟩
    obtain ⟨ht, hc⟩ := makeIndexKey_inj (hall _ _ _ _ hin) hkey
    exact ⟨⟨ht.symm, hc.symm⟩, hin⟩
  · rintro ⟨⟨rfl, rfl⟩, hin⟩
    exact ⟨rfl, hin⟩

/-- What a lookup returns was created with the names looked for. -/
theorem Records.found (hall : AllUndotted created) {header : PageId} :
    (∃ index, catalog.indexes.lookup (makeIndexKey tableName columnName) = some index ∧
      index.headerPageId = header) ↔
      ∃ name, .createIndex name tableName columnName header ∈ created := by
  constructor
  · rintro ⟨index, hl, rfl⟩
    obtain ⟨⟨rfl, rfl⟩, hin⟩ := (h.lookup hall).mp hl
    exact ⟨index.name, hin⟩
  · rintro ⟨name, hin⟩
    exact ⟨⟨name, tableName, columnName, header⟩, (h.lookup hall).mpr ⟨⟨rfl, rfl⟩, hin⟩, rfl⟩

theorem Records.mem (hall : AllUndotted created) :
    makeIndexKey tableName columnName ∈ catalog.indexes ↔
      ∃ name header, .createIndex name tableName columnName header ∈ created := by
  rw [StringMap.mem_iff_lookup]
  constructor
  · rintro ⟨index, hl⟩
    obtain ⟨name, hin⟩ := (h.found hall).mp ⟨index, hl, rfl⟩
    exact ⟨name, index.headerPageId, hin⟩
  · rintro ⟨name, header, hin⟩
    obtain ⟨index, hl, -⟩ := (h.found hall).mpr ⟨name, hin⟩
    exact ⟨index, hl⟩

/-- An accepted pair of names without an index is not a duplicate. -/
theorem Records.not_duplicate (hall : AllUndotted created) {name : Bytes} {header : PageId}
    {e : Status} (hcolumn : HasColumn catalog tableName columnName)
    (hname : catalog.hasIndexName name = false)
    (hnone : ∀ name' header', .createIndex name' tableName columnName header' ∉ created)
    (hrun : (Change.exec catalog (.createIndex name tableName columnName header)).run w =
      some ((.error e, catalog'), w')) : ¬ IsDuplicate e := by
  have hkey : makeIndexKey tableName columnName ∉ catalog.indexes := by
    rw [h.mem hall]
    rintro ⟨name', header', hin⟩
    exact hnone name' header' hin
  have hfresh : name ∉ catalog.indexNames := by
    intro hin
    rw [hasIndexName, h.status, decide_eq_true hin] at hname
    cases hname
  by_cases hempty : name = [] ∨ tableName = [] ∨ columnName = []
  · have hexec : Change.exec catalog (.createIndex name tableName columnName header) =
        pure (.error (.invalidArgument "Index metadata and object must be valid"), catalog) := by
      rw [Change.exec, CatalogManager.createIndex, h.status]
      exact if_pos hempty
    rw [hexec] at hrun
    cases hrun
    unfold IsDuplicate
    decide
  · have hacc := Change.exec_result hrun
    rcases hacc with ⟨he, -⟩ | ⟨e', he, -, hcode⟩
    · cases he
    · cases he
      have hne := hcode ⟨_, h.status, hempty, hcolumn, hkey, hfresh, rfl⟩
      rintro (rfl | rfl) <;> exact hne rfl

theorem Records.exactLookups (hall : AllUndotted created) : ExactLookups created catalog where
  hasIndex t c := by
    rw [CatalogManager.hasIndex, h.status, ← h.mem hall]
    exact decide_eq_true_iff
  getIndex t c header := by
    rw [CatalogManager.getIndex, h.status, ← h.found hall]
    exact Option.map_eq_some_iff
  getIndexHeaderPageId t c header := by
    rw [CatalogManager.getIndexHeaderPageId, h.status, ← h.found hall]
    dsimp only
    cases catalog.indexes.lookup (makeIndexKey t c) with
    | none => simp
    | some index => simp
  createIndex := h.not_duplicate hall

theorem Records.undotted (hexact : ExactLookups created catalog) : AllUndotted created := by
  intro name t c header hin
  apply by_contra
  intro hdots
  obtain ⟨t', c', hkey, hne⟩ := exists_twin hdots
  have hl : catalog.indexes.lookup (makeIndexKey t c) = some ⟨name, t, c, header⟩ :=
    (h.indexes _ _).mpr ⟨rfl, hin⟩
  have hhas : catalog.hasIndex t' c' = true := by
    rw [CatalogManager.hasIndex, h.status, hkey]
    exact decide_eq_true (StringMap.mem_iff_lookup.mpr ⟨_, hl⟩)
  obtain ⟨name', header', hin'⟩ := (hexact.hasIndex t' c').mp hhas
  have hl' : catalog.indexes.lookup (makeIndexKey t c) = some ⟨name', t', c', header'⟩ :=
    (h.indexes _ _).mpr ⟨hkey.symm, hin'⟩
  rw [hl] at hl'
  cases hl'
  exact hne rfl

end

/-- The lookups are by the exact names if and only if no index has been created with a `.` in the
name of its table or column. -/
theorem index_lookups_exact (h : Calls catalog made created) :
    (AllUndotted made → ExactLookups created catalog) ∧
      (ExactLookups created catalog ↔ AllUndotted created) := by
  refine ⟨fun hall => ?_, h.records.undotted, h.records.exactLookups⟩
  exact h.records.exactLookups fun name t c header hin => hall name t c header (h.subset _ hin)

/-- A call that is accepted and fits page 0 succeeds on a new database. -/
theorem Calls.accept (h : Calls catalog made created) {call : Change}
    (hacc : call.Accepts catalog changed) (hfit : (serialize changed).isOk = true) :
    Calls changed (call :: made) (call :: created) := by
  cases hs : serialize changed with
  | error e =>
    rw [hs] at hfit
    cases hfit
  | ok serialized =>
    have hd : (pagesOf (DiskManager.newFile DiskFaults.none)).page headerPageId = some Image.zero :=
      page_pagesOf (by decide)
    obtain ⟨_, w, _, hrun, ⟨rfl, -⟩, -⟩ :=
      run_of_runs (holds_new Nat.one_pos DiskFaults.none_reliable) (Change.exec_ok_runs hacc hd hs)
    exact h.ok hrun

/-- The calls that make a table with one column and an index `x` on it. -/
def indexedTable (tableName columnName : Bytes) : List Change :=
  [.createIndex (str "x") tableName columnName 2,
    .createTable tableName [⟨columnName, .integer, 4⟩] 1]

/-- The catalog after these calls. -/
def withIndexedTable (tableName columnName : Bytes) : CatalogManager where
  tables := AList.insert tableName ⟨tableName, [⟨columnName, .integer, 4⟩], 1⟩ ∅
  indexNames := AList.insert (str "x") (makeIndexKey tableName columnName) ∅
  indexes := AList.insert (makeIndexKey tableName columnName)
    ⟨str "x", tableName, columnName, 2⟩ ∅

theorem calls_indexedTable (ht : tableName ≠ []) (hc : columnName ≠ [])
    (htable : (serialize { ({} : CatalogManager) with
      tables := AList.insert tableName ⟨tableName, [⟨columnName, .integer, 4⟩], 1⟩ ∅ }).isOk = true)
    (hindex : (serialize (withIndexedTable tableName columnName)).isOk = true) :
    Calls (withIndexedTable tableName columnName) (indexedTable tableName columnName)
      (indexedTable tableName columnName) := by
  have hacc : (Change.createTable tableName [⟨columnName, .integer, 4⟩] 1).Accepts {}
      { ({} : CatalogManager) with
        tables := AList.insert tableName ⟨tableName, [⟨columnName, .integer, 4⟩], 1⟩ ∅ } :=
    ⟨rfl, ht, by decide, nofun, AList.notMem_empty _, rfl⟩
  apply (Calls.new.accept hacc htable).accept _ hindex
  refine ⟨rfl, ?_, ⟨_, AList.lookup_insert _, _, List.mem_cons_self, rfl⟩, AList.notMem_empty _,
    AList.notMem_empty _, rfl⟩
  rintro (hx | ht' | hc')
  · exact absurd hx (by decide)
  · exact ht ht'
  · exact hc hc'

theorem index_lookups_exact_users :
    AllUndotted (indexedTable (str "u") (str "i")) ∧
      ExactLookups (indexedTable (str "u") (str "i")) (withIndexedTable (str "u") (str "i")) := by
  have hcalls : Calls (withIndexedTable (str "u") (str "i")) (indexedTable (str "u") (str "i"))
      (indexedTable (str "u") (str "i")) :=
    calls_indexedTable (by decide) (by decide) (by decide +kernel) (by decide +kernel)
  have hall : AllUndotted (indexedTable (str "u") (str "i")) := by
    intro name t c header hin
    rcases List.mem_cons.mp hin with heq | hin
    · cases heq
      decide
    · rcases List.mem_cons.mp hin with heq | hin
      · cases heq
      · cases hin
  exact ⟨hall, (index_lookups_exact hcalls).1 hall⟩

/-- The index on column `c` of table `a.b` is found for column `b.c` of table `a`. -/
theorem index_lookup_dotted :
    Calls (withIndexedTable (str "a.b") (str "c")) (indexedTable (str "a.b") (str "c"))
        (indexedTable (str "a.b") (str "c")) ∧
      (withIndexedTable (str "a.b") (str "c")).hasIndex (str "a") (str "b.c") = true ∧
      ¬ ExactLookups (indexedTable (str "a.b") (str "c"))
        (withIndexedTable (str "a.b") (str "c")) := by
  have hhas : (withIndexedTable (str "a.b") (str "c")).hasIndex (str "a") (str "b.c") = true := by
    decide
  refine ⟨calls_indexedTable (by decide) (by decide) (by decide +kernel) (by decide +kernel), hhas,
    fun hexact => ?_⟩
  obtain ⟨name, header, hin⟩ := (hexact.hasIndex _ _).mp hhas
  rcases List.mem_cons.mp hin with heq | hin
  · simp only [Change.createIndex.injEq] at heq
    exact absurd heq.2.1 (by decide)
  · rcases List.mem_cons.mp hin with heq | hin
    · cases heq
    · cases hin

end CatalogManager

end MiniDbms
