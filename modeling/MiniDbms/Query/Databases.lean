import MiniDbms.Query.Names

/-!
# Databases made by SQL

`QueryExecutor.Reached n catalog w`: the catalog and the pool of `n` frames that some sequence of
SQL texts leads to, from a new file whose existing pages can be read and written. In every such
state the pool holds a consistent database (`Reached.state`), and every further statement returns
(`Reached.execute`).
-/

namespace MiniDbms

open Lib PagedProgram Program HashIndex StringMap CatalogManager BufferPoolManager

section

variable {faults : DiskFaults}

/-- The contents of a new file. -/
def Contents.nothing : Contents := ⟨fun _ => [], fun _ => .empty 1⟩

theorem allocated_new_iff {p : PageId} :
    (DiskManager.newFile faults).Allocated p ↔ p = headerPageId := by
  constructor
  · rintro ⟨hpos, (hlt : p.toInt < (1 : Nat)), -⟩
    apply Int32.toInt_inj.mp
    rw [toInt_headerPageId]
    omega
  · rintro rfl
    have hlt : Int32.toInt headerPageId < (1 : Nat) := by decide
    exact ⟨toInt_headerPageId.ge, hlt, List.not_mem_nil⟩

/-- A new file is a consistent database without tables. -/
theorem databaseState_new :
    DatabaseState (pagesOf (DiskManager.newFile faults)) {} Image.zero .nothing := by
  have hpage : ∀ p, (pagesOf (DiskManager.newFile faults)).page p ≠ none ↔ p = headerPageId := by
    intro p
    have hnew : (DiskManager.newFile faults).Allocated p ↔ p = headerPageId := allocated_new_iff
    rw [← hnew]
    show (if (DiskManager.newFile faults).Allocated p then some _ else none) ≠ none ↔ _
    split
    · rename_i ha
      exact iff_of_true nofun ha
    · rename_i ha
      exact iff_of_false (fun h => h rfl) ha
  have htables : ∀ p, ¬ CatalogManager.IsFirstPage {} p := by
    rintro p ⟨name, table, ht, -⟩
    rw [AList.lookup_empty] at ht
    cases ht
  have hindexes : ∀ x, ¬ CatalogManager.IsHeader {} x := by
    rintro x ⟨key, index, hi, -⟩
    rw [AList.lookup_empty] at hi
    cases hi
  have howner : ∀ o, (CatalogManager.parts {} Image.zero).owners o ↔ o = .catalog := by
    intro o
    cases o with
    | catalog => exact iff_of_true trivial rfl
    | table p => exact iff_of_false (htables p) nofun
    | index x => exact iff_of_false (hindexes x) nofun
  have hstorage : StorageHolds (pagesOf (DiskManager.newFile faults))
      (CatalogManager.parts {} Image.zero) .nothing := by
    refine ⟨page_pagesOf (allocated_new_iff.mpr rfl), fun p hp => absurd hp (htables p),
      fun x hx => absurd hx (hindexes x),
        ⟨fun o ho => ?_, fun o o' p ho ho' _ _ => ?_, fun p => ?_⟩⟩
    · rw [(howner o).mp ho]
      exact List.nodup_singleton _
    · rw [(howner o).mp ho, (howner o').mp ho']
    · rw [hpage]
      constructor
      · rintro rfl
        exact ⟨.catalog, trivial, List.mem_cons_self⟩
      · rintro ⟨o, ho, hin⟩
        rw [(howner o).mp ho] at hin
        exact List.mem_singleton.mp hin
  have hno : ∀ {name table}, (CatalogManager.tables {}).lookup name ≠ some table :=
    fun {name table} ht => htables _ ⟨name, table, ht, rfl⟩
  have hnoIndex : ∀ {key index}, (CatalogManager.indexes {}).lookup key ≠ some index :=
    fun {key index} hi => hindexes _ ⟨key, index, hi, rfl⟩
  refine ⟨⟨wellFormed_empty, hstorage, fun ht => absurd ht hno, fun hi => absurd hi hnoIndex,
    fun ht => absurd ht hno, fun hi => absurd hi hnoIndex⟩, .inl ⟨by decide, rfl⟩,
    fun name table ht => absurd ht hno, fun ht => absurd ht hno⟩

end

namespace QueryExecutor

/-- The catalog and the pool of `n` frames that some SQL texts lead to, from a new file. -/
inductive Reached (n : Nat) : CatalogManager → BufferPoolManager → Prop
  | start {faults : DiskFaults} {catalog : CatalogManager} {w : BufferPoolManager}
      (hfaults : faults.Reliable)
      (hload : load.run (.new n (.newFile faults)) = some (catalog, w)) : Reached n catalog w
  | statement {catalog catalog' : CatalogManager} {w w' : BufferPoolManager} {text : Bytes}
      {statement : SQLStatement} {status : Except Status Unit} {result : QueryResult}
      (hreached : Reached n catalog w)
      (hparse : Parser.parse (Tokenizer.tokenize text) = .ok statement)
      (hrun : (execute catalog statement).run w = some ((status, result, catalog'), w')) :
      Reached n catalog' w'

section

variable {n : Nat} {catalog : CatalogManager} {w : BufferPoolManager}

theorem load_new {faults : DiskFaults} (hn : 0 < n) (hfaults : faults.Reliable) :
    ∃ w, load.run (.new n (.newFile faults)) = some ({}, w) ∧
      Holds (fun _ => 0) w (pagesOf (DiskManager.newFile faults)) := by
  have hpage : (pagesOf (DiskManager.newFile faults)).page headerPageId = some Image.zero :=
    page_pagesOf (allocated_new_iff.mpr rfl)
  obtain ⟨_, w, _, hrun, ⟨rfl, rfl⟩, hw, -⟩ :=
    run_of_runs (holds_new hn hfaults) (load_empty_runs hpage (by decide))
  exact ⟨w, hrun, hw⟩

/-- Every reached pool holds a database as SQL statements make it. -/
theorem Reached.state (hn : 0 < n) (hr : Reached n catalog w) :
    ∃ h d c, Holds (fun _ => 0) w h ∧ DatabaseState h catalog d c := by
  induction hr with
  | start hfaults hload =>
    obtain ⟨w, hrun, hw⟩ := load_new hn hfaults
    rw [hload] at hrun
    cases hrun
    exact ⟨_, _, _, hw, databaseState_new⟩
  | statement _ hparse hrun ih =>
    obtain ⟨h, d, c, hw, hd⟩ := ih
    obtain ⟨r, w', h', hrun', ⟨d', c', hdone⟩, hw', -⟩ :=
      run_of_runs hw (execute_runs hd (fun _ => rfl) (named_of_parse hparse))
    rw [hrun] at hrun'
    cases hrun'
    exact ⟨h', d', c', hw', hdone.state⟩

/-- Statement after statement: the statuses and the results, and the catalog at the end. -/
def executeAll : List SQLStatement → CatalogManager →
    Program (List (Except Status Unit × QueryResult) × CatalogManager)
  | [], catalog => return ([], catalog)
  | statement :: statements, catalog => do
    let (status, result, catalog) ← execute catalog statement
    let (results, catalog) ← executeAll statements catalog
    return ((status, result) :: results, catalog)

/-- The statements of these texts lead to a reached state again. -/
theorem Reached.executeAll {texts : List Bytes} : ∀ {statements : List SQLStatement}
    {results : List (Except Status Unit × QueryResult)} {catalog catalog' : CatalogManager}
    {w w' : BufferPoolManager}, Reached n catalog w →
    texts.map (fun text => Parser.parse (Tokenizer.tokenize text)) = statements.map Except.ok →
    (QueryExecutor.executeAll statements catalog).run w = some ((results, catalog'), w') →
    Reached n catalog' w' := by
  induction texts with
  | nil =>
    intro statements results catalog catalog' w w' hr hparse hrun
    cases statements with
    | nil =>
      cases hrun
      exact hr
    | cons => cases hparse
  | cons text texts ih =>
    intro statements results catalog catalog' w w' hr hparse hrun
    cases statements with
    | nil => cases hparse
    | cons statement statements =>
      obtain ⟨hfirst, hrest⟩ := List.cons.inj hparse
      rw [QueryExecutor.executeAll, run_bind] at hrun
      obtain ⟨⟨⟨status, result, catalog₁⟩, w₁⟩, hexec, hrun⟩ := Option.bind_eq_some_iff.mp hrun
      rw [run_bind] at hrun
      obtain ⟨⟨⟨results₁, catalog₂⟩, w₂⟩, hexec', hrun⟩ := Option.bind_eq_some_iff.mp hrun
      cases hrun
      exact ih (.statement hr hfirst hexec) hrest hexec'

/-- The state after the statements of some texts is reached, whatever can be read off it. -/
theorem Reached.of_any (n : Nat) {faults : DiskFaults} (hfaults : faults.Reliable)
    (texts : List Bytes) (statements : List SQLStatement)
    (p : CatalogManager → BufferPoolManager → Bool)
    (hparse : texts.map (fun text => Parser.parse (Tokenizer.tokenize text)) =
      statements.map Except.ok)
    (hp : ((load >>= QueryExecutor.executeAll statements).run (.new n (.newFile faults))).any
      (fun r => p r.1.2 r.2) = true) : ∃ catalog w, Reached n catalog w ∧ p catalog w = true := by
  obtain ⟨⟨⟨results, catalog⟩, w⟩, hrun, hp⟩ := (Option.any_eq_true _ _).mp hp
  rw [run_bind] at hrun
  obtain ⟨⟨catalog₀, w₀⟩, hload, hrun⟩ := Option.bind_eq_some_iff.mp hrun
  exact ⟨catalog, w, .executeAll (.start hfaults hload) hparse hrun, hp⟩

/-- Every statement returns in every reached state. -/
theorem Reached.execute (hn : 0 < n) (hr : Reached n catalog w) {text : Bytes}
    {statement : SQLStatement} (hparse : Parser.parse (Tokenizer.tokenize text) = .ok statement) :
    ∃ r w', (execute catalog statement).run w = some (r, w') ∧ Reached n r.2.2 w' := by
  obtain ⟨h, d, c, hw, hd⟩ := hr.state hn
  obtain ⟨r, w', h', hrun, -⟩ :=
    run_of_runs hw (execute_runs hd (fun _ => rfl) (named_of_parse hparse))
  exact ⟨r, w', hrun, .statement hr hparse hrun⟩

end

end QueryExecutor

end MiniDbms
