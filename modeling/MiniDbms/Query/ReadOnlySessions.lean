import MiniDbms.Buffer.CleanPools
import MiniDbms.Query.Session

/-!
# Sessions that only read

SELECT and EXPLAIN, and loading the catalog, are read-only programs, whatever the pages hold. So a
session that asks nothing else leaves the database file byte for byte as it was: a damaged file as
well, and whatever the disk does (`main_readOnly`).
-/

namespace MiniDbms

open Lib PagedProgram Program

/-! ## Heap files and indexes -/

namespace HeapFile

theorem readOnly_getRecord (rid : RecordID) : (getRecord rid).ReadOnly := by
  refine readOnly_ite (readOnly_pure _) ?_
  refine readOnly_fetchPage (readOnly_pure _) fun f d => ?_
  exact readOnly_unpinPage (readOnly_pure _) (readOnly_pure _)

theorem readOnly_findLoop : ∀ (fuel : Nat) (visited : List PageId) (current : PageId)
    (firstSlot : Nat), (findLoop fuel visited current firstSlot).ReadOnly := by
  intro fuel
  induction fuel with
  | zero => exact fun _ _ _ => trivial
  | succ fuel ih =>
    intro visited current firstSlot
    rw [findLoop]
    refine readOnly_ite (readOnly_pure _) (readOnly_ite (readOnly_pure _) ?_)
    refine readOnly_fetchPage (readOnly_pure _) fun f d => ?_
    refine readOnly_ite (readOnly_unpinPage (readOnly_pure _) (readOnly_pure _)) ?_
    rcases findInPage (Page.view current d)
      (SlottedPage.getSlotCount (Page.view current d) - firstSlot) firstSlot with _ | _ | record
    · exact readOnly_unpinPage (readOnly_pure _) (ih _ _ _)
    · exact readOnly_unpinPage (readOnly_pure _) (readOnly_pure _)
    · exact readOnly_unpinPage (readOnly_pure _) (readOnly_pure _)

theorem readOnly_getFirstRecord (firstPageId : PageId) : (getFirstRecord firstPageId).ReadOnly :=
  readOnly_findLoop _ _ _ _

theorem readOnly_getNextRecord (rid : RecordID) : (getNextRecord rid).ReadOnly :=
  readOnly_ite (readOnly_pure _) (readOnly_findLoop _ _ _ _)

end HeapFile

namespace HashIndex

theorem readOnly_getBucketPageId (header : PageId) (key : Bytes) :
    (getBucketPageId header key).ReadOnly := by
  refine readOnly_ite (readOnly_pure _) ?_
  refine readOnly_fetchPage (readOnly_pure _) fun f d => ?_
  refine readOnly_unpinPage (readOnly_pure _) (readOnly_ite (readOnly_pure _) ?_)
  dsimp only
  split
  · exact readOnly_pure _
  · exact readOnly_pure _

theorem readOnly_getValueLoop (key : Bytes) : ∀ (fuel : Nat) (visited : List PageId)
    (current : PageId) (result : List RecordID),
    (getValueLoop key fuel visited current result).ReadOnly := by
  intro fuel
  induction fuel with
  | zero => exact fun _ _ _ => trivial
  | succ fuel ih =>
    intro visited current result
    rw [getValueLoop]
    refine readOnly_ite (readOnly_pure _) (readOnly_ite (readOnly_pure _) ?_)
    refine readOnly_fetchPage (readOnly_pure _) fun f d => ?_
    refine readOnly_ite (readOnly_unpinPage (readOnly_pure _) (readOnly_pure _)) ?_
    refine readOnly_unpinPage (readOnly_pure _) ?_
    cases HashIndexBucketPage.getValue (Page.view current d) key with
    | error e => exact readOnly_ite (readOnly_pure _) (ih _ _ _)
    | ok values => exact ih _ _ _

theorem readOnly_getValue (header : PageId) (key : Bytes) : (getValue header key).ReadOnly := by
  refine readOnly_bind (readOnly_getBucketPageId header key) fun r => ?_
  cases r with
  | error e => exact readOnly_pure _
  | ok bucket => exact readOnly_getValueLoop _ _ _ _ _

theorem readOnly_openIndex (header : PageId) : (openIndex header).ReadOnly := by
  have hvalidate : (validateHeader header).ReadOnly := by
    refine readOnly_fetchPage (readOnly_pure _) fun f d => ?_
    exact readOnly_unpinPage (readOnly_pure _) (readOnly_ite (readOnly_pure _) (readOnly_pure _))
  refine readOnly_ite (readOnly_pure _) (readOnly_bind hvalidate fun r => ?_)
  cases r with
  | error e => exact readOnly_pure _
  | ok count => exact readOnly_pure _

end HashIndex

/-! ## The catalog -/

namespace CatalogManager

theorem readOnly_openIndexes : ∀ (pending : List IndexMetadata) (catalog : CatalogManager),
    (openIndexes pending catalog).ReadOnly := by
  intro pending
  induction pending with
  | nil => exact fun _ => readOnly_pure _
  | cons index pending ih =>
    intro catalog
    unfold openIndexes
    split
    · exact readOnly_pure _
    split
    · exact readOnly_pure _
    refine readOnly_bind (HashIndex.readOnly_openIndex _) fun r => ?_
    cases r with
    | error e => exact readOnly_pure _
    | ok header =>
      dsimp only
      split
      · exact readOnly_pure _
      · exact ih _

theorem readOnly_load : load.ReadOnly := by
  unfold load
  refine readOnly_fetchPage (readOnly_pure _) fun f d => ?_
  refine readOnly_ite (readOnly_unpinPage (readOnly_pure _) (readOnly_pure _)) ?_
  dsimp only
  split
  · exact readOnly_unpinPage (readOnly_pure _) (readOnly_pure _)
  · exact readOnly_unpinPage (readOnly_pure _) (readOnly_openIndexes _ _)

end CatalogManager

/-! ## Operators -/

/-- The functions of an operator are read-only in every state of the object. -/
structure AbstractOperator.IsReadOnly {σ : Type} (operator : AbstractOperator σ) : Prop where
  openOperator : ∀ s, (operator.openOperator s).ReadOnly
  next : ∀ s, (operator.next s).ReadOnly

theorem SeqScanOperator.isReadOnly (firstPageId : PageId) : (operator firstPageId).IsReadOnly where
  openOperator _ := readOnly_pure _
  next s := by
    show (next firstPageId s).ReadOnly
    cases hs : s.finished with
    | true =>
      unfold next
      rw [if_pos hs]
      exact readOnly_pure _
    | false =>
      rw [next_eq hs]
      refine readOnly_bind ?_ fun _ => readOnly_pure _
      exact readOnly_ite (HeapFile.readOnly_getNextRecord _) (HeapFile.readOnly_getFirstRecord _)

theorem IndexScanOperator.isReadOnly (index : PageId) (encodedKey : Bytes) :
    (operator index encodedKey).IsReadOnly where
  openOperator s := by
    refine readOnly_bind (HashIndex.readOnly_getValue index encodedKey) fun r => ?_
    cases r with
    | error e => exact readOnly_pure _
    | ok rids => exact readOnly_pure _
  next s := by
    have hloop : ∀ rids, (nextLoop rids).ReadOnly := by
      intro rids
      induction rids with
      | nil => exact readOnly_pure _
      | cons candidate rids ih =>
        refine readOnly_bind (HeapFile.readOnly_getRecord candidate) fun r => ?_
        cases r with
        | error e => exact readOnly_ite ih (readOnly_pure _)
        | ok record => exact readOnly_pure _
    show (next s).ReadOnly
    unfold next
    cases s.status with
    | error e => exact readOnly_pure _
    | ok => exact hloop s.rids

section

variable {σ : Type} {child : AbstractOperator σ}

theorem FilterOperator.isReadOnly (h : child.IsReadOnly) (schema : Schema) (condition : Condition) :
    (operator child schema condition).IsReadOnly where
  openOperator s := by
    show (openOperator child schema condition s).ReadOnly
    unfold openOperator
    cases schema.columnIndex condition.column with
    | none => exact readOnly_pure _
    | some columnIndex =>
      dsimp only
      cases convertLiteral (schema.getD columnIndex ⟨[], .integer, 0⟩) condition.value false with
      | error e => exact readOnly_pure _
      | ok targetValue => exact readOnly_bind (h.openOperator s.child) fun _ => readOnly_pure _
  next s := by
    have hloop : ∀ (fuel : Nat) (s : FilterState σ),
        (nextLoop child schema condition fuel s).ReadOnly := by
      intro fuel
      induction fuel with
      | zero => exact fun _ => trivial
      | succ fuel ih =>
        intro s
        refine readOnly_bind (h.next s.child) fun r => ?_
        obtain ⟨_ | record, c⟩ := r
        · exact readOnly_pure _
        · dsimp only
          rcases evaluate schema condition s.columnIndex s.targetValue record with e | _ | _
          · exact readOnly_pure _
          · exact ih _
          · exact readOnly_pure _
    show (next child schema condition s).ReadOnly
    unfold next
    cases s.status with
    | error e => exact readOnly_pure _
    | ok => exact hloop scanFuel s

theorem ProjectionOperator.isReadOnly (h : child.IsReadOnly) (inputSchema : Schema)
    (selectedFields : List Nat) : (operator child inputSchema selectedFields).IsReadOnly where
  openOperator s := by
    refine readOnly_ite (readOnly_pure _) (readOnly_ite (readOnly_pure _) ?_)
    exact readOnly_bind (h.openOperator s.child) fun _ => readOnly_pure _
  next s := by
    show (next child inputSchema selectedFields s).ReadOnly
    unfold next
    cases s.status with
    | error e => exact readOnly_pure _
    | ok =>
      refine readOnly_bind (h.next s.child) fun r => ?_
      obtain ⟨_ | input, c⟩ := r
      · exact readOnly_pure _
      · dsimp only
        cases RecordCodec.project inputSchema input.data selectedFields with
        | error e => exact readOnly_pure _
        | ok data => exact readOnly_pure _

end

namespace QueryExecutor

/-! ## SELECT and EXPLAIN -/

theorem isReadOnly_buildPlan {catalog : CatalogManager} {select : SelectStatement} {plan : Plan}
    {outputSchema : Schema} (h : buildPlan catalog select = .ok (plan, outputSchema)) :
    plan.operator.IsReadOnly := by
  have hfilters : ∀ (schema : Schema) (conditions : List Condition) (plan : Plan),
      plan.operator.IsReadOnly → (conditions.foldl (fun plan condition =>
        plan.filter schema condition) plan).operator.IsReadOnly := by
    intro schema conditions
    induction conditions with
    | nil => exact fun _ hplan => hplan
    | cons condition conditions ih =>
      exact fun plan hplan => ih _ (FilterOperator.isReadOnly hplan schema condition)
  unfold buildPlan at h
  split at h
  · cases h
  rename_i schema _
  split at h
  · cases h
  split at h
  · cases h
  split at h
  · cases h
  rename_i scan hscan
  have hscan' : scan.operator.IsReadOnly := by
    unfold buildScan at hscan
    split at hscan
    · cases hscan
      exact SeqScanOperator.isReadOnly _
    · split at hscan
      · cases hscan
      · cases hscan
        exact IndexScanOperator.isReadOnly _ _
  have hfiltered := hfilters schema select.conditions scan hscan'
  unfold buildProjection at h
  split at h
  · split at h
    · cases h
    · cases h
      exact ProjectionOperator.isReadOnly hfiltered _ _
  · cases h
    exact hfiltered

section

variable {σ : Type} {operator : AbstractOperator σ}

theorem readOnly_selectLoop (h : operator.IsReadOnly) (schema : Schema) :
    ∀ (fuel : Nat) (s : σ) (result : QueryResult),
      (selectLoop operator schema fuel s result).ReadOnly := by
  intro fuel
  induction fuel with
  | zero => exact fun _ _ => trivial
  | succ fuel ih =>
    intro s result
    refine readOnly_bind (h.next s) fun r => ?_
    obtain ⟨_ | record, s'⟩ := r
    · exact readOnly_pure _
    · dsimp only
      cases RecordCodec.deserialize schema record.data with
      | error e => exact readOnly_pure _
      | ok row => exact ih _ _

theorem readOnly_countLoop (h : operator.IsReadOnly) : ∀ (fuel : Nat) (s : σ) (rowsReturned : Nat),
    (countLoop operator fuel s rowsReturned).ReadOnly := by
  intro fuel
  induction fuel with
  | zero => exact fun _ _ => trivial
  | succ fuel ih =>
    intro s rowsReturned
    refine readOnly_bind (h.next s) fun r => ?_
    obtain ⟨_ | record, s'⟩ := r
    · exact readOnly_pure _
    · exact ih _ _

end

theorem readOnly_executeSelect (catalog : CatalogManager) (select : SelectStatement) :
    (executeSelect catalog select).ReadOnly := by
  unfold executeSelect
  rcases hplan : buildPlan catalog select with e | ⟨plan, outputSchema⟩
  · exact readOnly_pure _
  have h := isReadOnly_buildPlan hplan
  refine readOnly_bind (h.openOperator plan.state) fun r => ?_
  obtain ⟨e | _, s⟩ := r
  · exact readOnly_pure _
  · exact readOnly_selectLoop h _ _ _ _

theorem readOnly_executeCount (catalog : CatalogManager) (select : SelectStatement) :
    (executeCount catalog select).ReadOnly := by
  unfold executeCount
  rcases hplan : buildPlan catalog select with e | ⟨plan, outputSchema⟩
  · exact readOnly_pure _
  have h := isReadOnly_buildPlan hplan
  refine readOnly_bind (h.openOperator plan.state) fun r => ?_
  obtain ⟨e | _, s⟩ := r
  · exact readOnly_pure _
  · exact readOnly_countLoop h _ _ _

/-! ## EXPLAIN counts what SELECT returns -/

section

variable {σ : Type} {operator : AbstractOperator σ} {schema : Schema} {w w' : BufferPoolManager}

theorem countLoop_of_selectLoop : ∀ {fuel : Nat} {s : σ} {result result' : QueryResult}
    {w : BufferPoolManager}, result.rowsReturned = result.rows.length →
    (selectLoop operator schema fuel s result).run w = some ((.ok (), result'), w') →
    (countLoop operator fuel s result.rows.length).run w =
      some ((.ok (), result'.rows.length), w') := by
  intro fuel
  induction fuel with
  | zero =>
    intro s result result' w _ hrun
    cases hrun
  | succ fuel ih =>
    intro s result result' w hcount hrun
    rw [selectLoop, run_bind] at hrun
    rw [countLoop, run_bind]
    rcases hnext : (operator.next s).run w with _ | ⟨⟨_ | record, s'⟩, v⟩
    · rw [hnext] at hrun
      cases hrun
    · rw [hnext] at hrun
      simp only [Option.bind_some] at hrun ⊢
      rcases hclose : closePlan (operator.close s') (.ok ()) with e | _
      · rw [hclose] at hrun
        cases hrun
      · rw [hclose] at hrun
        cases hrun
        rfl
    · rw [hnext] at hrun
      simp only [Option.bind_some] at hrun ⊢
      cases hrow : RecordCodec.deserialize schema record.data with
      | error e =>
        rw [hrow] at hrun
        cases hclose : operator.close s' with
        | error e' =>
          rw [hclose] at hrun
          cases hrun
        | ok =>
          rw [hclose] at hrun
          cases hrun
      | ok row =>
        rw [hrow] at hrun
        have hlength : (result.rows ++ [row]).length = result.rows.length + 1 := by simp
        have hloop := ih (by dsimp only; rw [hlength, hcount]) hrun
        dsimp only at hloop
        rw [hlength] at hloop
        exact hloop

/-- EXPLAIN reports the number of the rows that SELECT returns, and leaves the same pool, on every
file and whatever the disk does. -/
theorem executeCount_of_executeSelect {catalog : CatalogManager} {select : SelectStatement}
    {result : QueryResult}
    (hrun : (executeSelect catalog select).run w = some ((.ok (), result), w')) :
    (executeCount catalog select).run w = some ((.ok (), result.rows.length), w') := by
  unfold executeSelect at hrun
  unfold executeCount
  rcases hplan : buildPlan catalog select with e | ⟨plan, outputSchema⟩
  · rw [hplan] at hrun
    cases hrun
  rw [hplan] at hrun
  dsimp only at hrun ⊢
  rw [run_bind] at hrun ⊢
  rcases hopen : (plan.operator.openOperator plan.state).run w with _ | ⟨⟨e | _, s⟩, v⟩
  · rw [hopen] at hrun
    cases hrun
  · rw [hopen] at hrun
    cases hrun
  · rw [hopen] at hrun
    exact countLoop_of_selectLoop rfl hrun

theorem sample_count : ∃ catalog w w' result,
    (executeSelect catalog ⟨str "t", [str "*"], [], false⟩).run w = some ((.ok (), result), w') ∧
    result.rows = [[.integer 7]] ∧
    (executeCount catalog ⟨str "t", [str "*"], [], false⟩).run w = some ((.ok (), 1), w') := by
  have hselect : ((executeCreateTable {} ⟨str "t", [⟨str "a", str "INT", 0⟩]⟩).run
      (.new 1 (.newFile .none))).bind (fun r =>
        ((executeInsert r.1.2 ⟨str "t", [⟨.number, str "7"⟩]⟩).run r.2).bind fun r' =>
          ((executeSelect r.1.2 ⟨str "t", [str "*"], [], false⟩).run r'.2).map fun r =>
            (r.1.1, r.1.2.rows)) = some (.ok (), [[.integer 7]]) := by decide +kernel
  obtain ⟨created, -, hselect⟩ := Option.bind_eq_some_iff.mp hselect
  obtain ⟨inserted, -, hselect⟩ := Option.bind_eq_some_iff.mp hselect
  obtain ⟨⟨⟨status, result⟩, w'⟩, hrun, hr⟩ := Option.map_eq_some_iff.mp hselect
  simp only [Prod.mk.injEq] at hr
  obtain ⟨rfl, hrows⟩ := hr
  have hcount := executeCount_of_executeSelect hrun
  rw [hrows] at hcount
  exact ⟨created.1.2, inserted.2, w', result, hrun, hrows, hcount⟩

end

end QueryExecutor

/-! ## Sessions -/

open CatalogManager QueryExecutor

/-- The line asks for nothing but reading: a SELECT, an EXPLAIN, or what is no statement. -/
def ReadsOnly (line : Bytes) : Prop :=
  ∀ statement, Parser.parse (Tokenizer.tokenize line) = .ok statement →
    ∃ select, statement = .select select

theorem readOnly_answer (catalog : CatalogManager) {line : Bytes} (hline : ReadsOnly line) :
    (answer catalog line).ReadOnly := by
  unfold answer
  cases hparse : Parser.parse (Tokenizer.tokenize line) with
  | error e => exact readOnly_pure _
  | ok statement =>
    obtain ⟨select, rfl⟩ := hline statement hparse
    dsimp only
    split
    · refine readOnly_bind ?_ fun reply => readOnly_pure _
      unfold answerExplain
      split
      · exact readOnly_pure _
      · refine readOnly_bind (readOnly_executeCount catalog select) fun r => ?_
        obtain ⟨e | _, rowsReturned⟩ := r
        · exact readOnly_pure _
        · exact readOnly_pure _
    · unfold answerStatement execute
      refine readOnly_bind ?_ fun r => ?_
      · split
        · exact readOnly_pure _
        · exact readOnly_bind (readOnly_executeSelect catalog select) fun _ => readOnly_pure _
      · obtain ⟨e | _, result, catalog'⟩ := r
        · exact readOnly_pure _
        · exact readOnly_pure _

theorem readOnly_serve : ∀ {input : List Bytes} (catalog : CatalogManager),
    (∀ line ∈ input, ReadsOnly line) → (serve input catalog).ReadOnly := by
  intro input
  induction input with
  | nil => exact fun _ _ => readOnly_pure _
  | cons line input ih =>
    intro catalog hlines
    have hrest : ∀ l ∈ input, ReadsOnly l := fun l hl => hlines l (List.mem_cons_of_mem _ hl)
    rw [serve]
    refine readOnly_ite (readOnly_pure _) (readOnly_ite (ih catalog hrest) ?_)
    refine readOnly_bind (readOnly_answer catalog (hlines line List.mem_cons_self)) fun r => ?_
    exact readOnly_bind (ih r.2 hrest) fun _ => readOnly_pure _

theorem readOnly_runMain {input : List Bytes} (hlines : ∀ line ∈ input, ReadsOnly line) :
    (runMain input).ReadOnly := by
  refine readOnly_bind readOnly_load fun catalog => ?_
  split
  · exact readOnly_pure _
  · exact readOnly_bind (readOnly_serve catalog hlines) fun _ => readOnly_pure _

/-- A session of SELECT and EXPLAIN leaves every file as it was, whatever its bytes are and whatever
the disk does. -/
theorem main_readOnly {faults : DiskFaults} {file file' : PageFile} {input : List Bytes}
    {code : Nat}
    {replies : List Reply} (hpos : 0 < file.numPages) (hlines : ∀ line ∈ input, ReadsOnly line)
    (hmain : main faults file input = some (code, replies, file')) : file' = file := by
  unfold main at hmain
  cases hopen : DiskManager.openFile file.pages file.numPages file.numPages_le faults with
  | none =>
    rw [hopen] at hmain
    cases hmain
  | some disk =>
    rw [hopen] at hmain
    dsimp only at hmain
    have hdisk : disk.pages = file.pages ∧ disk.numPages = file.numPages := by
      unfold DiskManager.openFile at hopen
      rw [dif_neg (Nat.ne_of_gt hpos)] at hopen
      split at hopen
      · cases hopen
      · cases hopen
        exact ⟨rfl, rfl⟩
    rcases hrun : (runMain input).run (.new defaultBufferPoolSize disk) with
      _ | ⟨⟨code', replies'⟩, w⟩
    · rw [hrun] at hmain
      cases hmain
    · rw [hrun] at hmain
      cases hmain
      have hclean :=
        (run_readOnly (readOnly_runMain hlines) (BufferPoolManager.new_cleanOn _ disk)
          hrun).flushAllPages
      obtain ⟨pages, numPages, hle⟩ := file
      obtain ⟨rfl, rfl⟩ := hdisk
      unfold DiskManager.file
      congr 1
      · exact hclean.pages
      · exact hclean.numPages

/-- What is asked of a table in the example. -/
def readingLines : List Bytes :=
  [str "SELECT * FROM t;", str "EXPLAIN ANALYZE SELECT * FROM t WHERE a = 7;"]

theorem readingLines_readOnly : ∀ line ∈ readingLines, ReadsOnly line := by
  have hselect : ∀ line ∈ readingLines,
      ∃ select, Parser.parse (Tokenizer.tokenize line) = .ok (.select select) := by
    simp only [readingLines, List.forall_mem_cons, List.not_mem_nil, false_implies, implies_true,
      and_true]
    exact ⟨⟨⟨str "t", [str "*"], [], false⟩, by decide +kernel⟩,
      ⟨⟨str "t", [str "*"], [⟨str "a", str "=", ⟨.number, str "7"⟩⟩], true⟩, by decide +kernel⟩⟩
  intro line hline statement hparse
  obtain ⟨select, hselect⟩ := hselect line hline
  rw [hselect] at hparse
  cases hparse
  exact ⟨select, rfl⟩

/-- A file with a table of one row, which is read on a disk that cannot be written. -/
theorem sample_readOnly : ∃ file replies,
    main { DiskFaults.none with write := fun _ => true } file readingLines =
    some (0, replies, file) ∧
    replies = [.rows [str "a"] [[.integer 7]], .explain .sequential 1] := by
  have hreplies :
      ((main .none .empty [str "CREATE TABLE t (a INT);", str "INSERT INTO t VALUES (7);"]).bind
      fun r => (main { DiskFaults.none with write := fun _ => true } r.2.2 readingLines).map
        fun r' => (r.2.2.numPages, r'.1, r'.2.1)) =
      some (2, 0, [.rows [str "a"] [[.integer 7]], .explain .sequential 1]) := by
    decide +kernel
  obtain ⟨r, -, hread⟩ := Option.bind_eq_some_iff.mp hreplies
  obtain ⟨⟨code, replies, file'⟩, hmain, hr⟩ := Option.map_eq_some_iff.mp hread
  simp only [Prod.mk.injEq] at hr
  obtain ⟨hnum, rfl, hreply⟩ := hr
  have hsame := main_readOnly (by rw [hnum]; exact Nat.two_pos) readingLines_readOnly hmain
  exact ⟨r.2.2, replies, by rw [hmain, hsame], hreply⟩

end MiniDbms
