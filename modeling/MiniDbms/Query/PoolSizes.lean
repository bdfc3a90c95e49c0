import MiniDbms.Buffer.Lockstep
import MiniDbms.Database.Reopening
import MiniDbms.Query.Databases
import MiniDbms.Query.Session
import MiniDbms.Query.StatementPins

/-!
# The size of the pool does not show

A session opens a file, loads the catalog into a pool of some size, executes statements and closes
the pool. Sessions on one file give the same statuses and results, the same catalogs and the same
file, whatever the sizes of their pools are, as long as no access to the disk fails
(`sessions_poolSize`): the pools of the two histories stay in lockstep, call by call.
-/

namespace MiniDbms

open Lib PagedProgram Program BufferPoolManager CatalogManager

/-! ## Files -/

/-- The files have the same pages, up to the last one. -/
structure PageFile.SameBytes (a b : PageFile) : Prop where
  numPages : b.numPages = a.numPages
  pages : ∀ p : PageId, 0 ≤ p.toInt → p.toInt < a.numPages → b.pages p = a.pages p

theorem SameFile.sameBytes {d d' : DiskManager} (h : SameFile d d') : d.file.SameBytes d'.file :=
  ⟨h.numPages, h.pages⟩

namespace DiskManager

/-- What the constructor finds depends on the pages of the file only. -/
theorem SameBytes.openFile {a b : PageFile} (h : a.SameBytes b) {d : DiskManager}
    (ha : DiskManager.openFile a.pages a.numPages a.numPages_le .none = some d) :
    ∃ d', DiskManager.openFile b.pages b.numPages b.numPages_le .none = some d' ∧
      SameShape d d' := by
  have hreads : ∀ n, ((List.range n).any DiskFaults.none.read) = false := fun n => by
    simp [DiskFaults.none]
  unfold DiskManager.openFile at ha ⊢
  by_cases hz : a.numPages = 0
  · rw [dif_pos hz] at ha
    rw [dif_pos (h.numPages.trans hz)]
    cases ha
    exact ⟨_, rfl, rfl, rfl, rfl⟩
  · rw [dif_neg hz, if_neg (by rw [hreads]; exact Bool.false_ne_true)] at ha
    rw [dif_neg (by rw [h.numPages]; exact hz), if_neg (by rw [hreads]; exact Bool.false_ne_true)]
    cases ha
    refine ⟨_, rfl, h.numPages, ?_, rfl⟩
    show (dataPageIds b.numPages).filter _ = (dataPageIds a.numPages).filter _
    rw [h.numPages]
    refine List.filter_congr fun p hp => ?_
    have hrange := (mem_dataPageIds a.numPages_le).mp hp
    rw [h.pages p hrange.1.le hrange.2]

end DiskManager

namespace QueryExecutor

/-! ## Sessions -/

/-- The statuses and results of the statements, and the catalog at the end. -/
abbrev Outcome := List (Except Status Unit × QueryResult) × CatalogManager

/-- Opens the file with a pool of `n` frames, executes the statements and closes the pool. -/
def session (n : Nat) (statements : List SQLStatement) (file : PageFile) :
    Option (Outcome × PageFile) :=
  match DiskManager.openFile file.pages file.numPages file.numPages_le .none with
  | none => none
  | some disk =>
    match (load >>= executeAll statements).run (.new n disk) with
    | none => none
    | some (outcome, w) => some (outcome, w.flushAllPages.disk.file)

/-- Sessions on one file, each with the size of its pool. -/
def sessions : List (Nat × List SQLStatement) → PageFile → Option (List Outcome × PageFile)
  | [], file => some ([], file)
  | (n, statements) :: rest, file =>
    match session n statements file with
    | none => none
    | some (outcome, file) =>
      match sessions rest file with
      | none => none
      | some (outcomes, file) => some (outcome :: outcomes, file)

section

variable {ext : PageId → Nat} {h : Pages} {catalog : CatalogManager} {d : PageData} {c : Contents}
  {w v : BufferPoolManager}

/-- Two pools with the same database, whose free pages are blank. -/
structure TwinDatabases (catalog : CatalogManager) (h : Pages) (d : PageData) (c : Contents)
    (w v : BufferPoolManager) : Prop where
  pools : TwinPools (fun _ => 0) h w v
  state : DatabaseState h catalog d c
  left : w.disk.FreeBlank
  right : v.disk.FreeBlank

/-- An operation that keeps the database has the same result on both pools. -/
theorem TwinDatabases.step {α : Type} {x : Program α} {Q : α → Pages → Prop}
    (ht : TwinDatabases catalog h d c w v) (hdisciplined : Disciplined none x x)
    (hx : Runs (poolContext fun _ => 0) x Q h) :
    ∃ a w' v' h', x.run w = some (a, w') ∧ x.run v = some (a, v') ∧ Q a h' ∧
      TwinPools (fun _ => 0) h' w' v' ∧ w'.disk.FreeBlank ∧ v'.disk.FreeBlank := by
  obtain ⟨a, w', v', h', hrun, hrun', hQ, hpools⟩ := lockstep_of_runs ht.pools hdisciplined hx
  exact ⟨a, w', v', h', hrun, hrun', hQ, hpools, freeBlank_of_runs ht.pools.left hx ht.left hrun,
    freeBlank_of_runs ht.pools.right hx ht.right hrun'⟩

/-- What was parsed. -/
def IsParsed (statement : SQLStatement) : Prop :=
  ∃ text, Parser.parse (Tokenizer.tokenize text) = .ok statement

theorem executeAll_lockstep :
    ∀ (statements : List SQLStatement) {catalog : CatalogManager} {h : Pages}
    {d : PageData} {c : Contents} {w v : BufferPoolManager}, (∀ s ∈ statements, IsParsed s) →
    TwinDatabases catalog h d c w v →
    ∃ outcome w' v' h' d' c', (executeAll statements catalog).run w = some (outcome, w') ∧
      (executeAll statements catalog).run v = some (outcome, v') ∧
      TwinDatabases outcome.2 h' d' c' w' v' := by
  intro statements
  induction statements with
  | nil =>
    intro catalog h d c w v _ ht
    exact ⟨([], catalog), w, v, h, d, c, rfl, rfl, ht⟩
  | cons statement statements ih =>
    intro catalog h d c w v hparsed ht
    obtain ⟨text, hparse⟩ := hparsed statement List.mem_cons_self
    obtain ⟨⟨status, result, catalog₁⟩, w₁, v₁, h₁, hrun, hrun', ⟨d₁, c₁, hdone⟩, hpools, hw, hv⟩ :=
      ht.step (disciplined_execute catalog statement)
        (execute_runs ht.state (fun _ => rfl) (named_of_parse hparse))
    obtain ⟨⟨results, catalog'⟩, w', v', h', d', c', hrest, hrest', ht'⟩ :=
      ih (fun s hs => hparsed s (List.mem_cons_of_mem _ hs)) ⟨hpools, hdone.state, hw, hv⟩
    refine ⟨((status, result) :: results, catalog'), w', v', h', d', c', ?_, ?_, ht'⟩
    · rw [executeAll, run_first hrun]
      dsimp only
      rw [run_first hrest]
      rfl
    · rw [executeAll, run_first hrun']
      dsimp only
      rw [run_first hrest']
      rfl

/-- Two files that two pools with the same database have left, or new files. -/
inductive TwinFiles : PageFile → PageFile → Prop
  | empty : TwinFiles .empty .empty
  | closed {w v : BufferPoolManager} {catalog : CatalogManager} {h : Pages} {d : PageData}
      {c : Contents} (ht : TwinDatabases catalog h d c w v) :
      TwinFiles w.flushAllPages.disk.file v.flushAllPages.disk.file

theorem TwinFiles.sameBytes {a b : PageFile} (ht : TwinFiles a b) : a.SameBytes b := by
  cases ht with
  | empty => exact ⟨rfl, fun _ _ _ => rfl⟩
  | closed ht => exact (ht.pools.flushed ht.left ht.right).sameBytes

/-- Both files are opened, and pools of any sizes hold the same database. -/
theorem TwinFiles.opens {a b : PageFile} (ht : TwinFiles a b) {n m : Nat} (hn : 0 < n)
    (hm : 0 < m) :
    ∃ disk disk' catalog h d c,
      DiskManager.openFile a.pages a.numPages a.numPages_le .none = some disk ∧
      DiskManager.openFile b.pages b.numPages b.numPages_le .none = some disk' ∧
      TwinDatabases catalog h d c (.new n disk) (.new m disk') := by
  have hsame := ht.sameBytes
  cases ht with
  | empty =>
    have hopen := DiskManager.openFile_empty .none rfl
    exact ⟨_, _, {}, _, _, _, hopen, hopen, ⟨holds_new hn DiskFaults.none_reliable,
      holds_new hm DiskFaults.none_reliable, .refl _, DiskFaults.none_perfect⟩, databaseState_new,
      .newFile _, .newFile _⟩
  | closed ht =>
    obtain ⟨disk, hopen, hfaults, hblank, -, hpage⟩ :=
      ht.pools.left.reopen ht.left ht.state.noneBlank DiskFaults.none_reliable
    obtain ⟨disk', hopen', hfaults', hblank', -, hpage'⟩ :=
      ht.pools.right.reopen ht.right ht.state.noneBlank DiskFaults.none_reliable
    obtain ⟨disk₁, hopen₁, hshape⟩ := DiskManager.SameBytes.openFile hsame hopen
    cases hopen'.symm.trans hopen₁
    have hpages : pagesOf disk' = pagesOf disk := by
      have hpp : (pagesOf disk').page = (pagesOf disk).page := hpage'.trans hpage.symm
      rw [pagesOf, pagesOf, Heap.mk.injEq]
      exact ⟨hpp, rfl⟩
    have hperfect : disk.faults.Perfect := by
      rw [hfaults]
      exact DiskFaults.none_perfect
    have hleft := holds_new hn hperfect.toReliable
    have hright := holds_new (d := disk') hm (by rw [hfaults']; exact DiskFaults.none_reliable)
    rw [hpages] at hright
    exact ⟨disk, disk', _, pagesOf disk, _, _, hopen, hopen', ⟨hleft, hright, hshape, hperfect⟩,
      ht.state.of_page_eq hpage, hblank, hblank'⟩

/-- Sessions with pools of any sizes have the same outcome and leave the same file. -/
theorem session_lockstep {a b : PageFile} (ht : TwinFiles a b) {n m : Nat} (hn : 0 < n) (hm : 0 < m)
    {statements : List SQLStatement} (hparsed : ∀ s ∈ statements, IsParsed s) :
    ∃ outcome a' b', session n statements a = some (outcome, a') ∧
      session m statements b = some (outcome, b') ∧ TwinFiles a' b' := by
  obtain ⟨disk, disk', catalog, h, d, c, hopen, hopen', ht⟩ := ht.opens hn hm
  obtain ⟨catalog₁, w₁, v₁, h₁, hload, hload', ⟨rfl, -, hd₁⟩, hpools, hw, hv⟩ :=
    ht.step disciplined_load ht.state.load_runs
  obtain ⟨outcome, w', v', h', d', c', hrun, hrun', ht'⟩ :=
    executeAll_lockstep statements hparsed ⟨hpools, hd₁, hw, hv⟩
  refine ⟨outcome, _, _, ?_, ?_, .closed ht'⟩
  · simp only [session, hopen, run_first hload, hrun]
  · simp only [session, hopen', run_first hload', hrun']

theorem sessions_lockstep : ∀ (work : List (Nat × Nat × List SQLStatement)) {a b : PageFile},
    TwinFiles a b → (∀ i ∈ work, 0 < i.1 ∧ 0 < i.2.1 ∧ ∀ s ∈ i.2.2, IsParsed s) →
    ∃ outcomes a' b', sessions (work.map fun i => (i.1, i.2.2)) a = some (outcomes, a') ∧
      sessions (work.map fun i => (i.2.1, i.2.2)) b = some (outcomes, b') ∧ TwinFiles a' b' := by
  intro work
  induction work with
  | nil => exact fun {a b} ht _ => ⟨[], a, b, rfl, rfl, ht⟩
  | cons i work ih =>
    intro a b ht hwork
    obtain ⟨hn, hm, hparsed⟩ := hwork i List.mem_cons_self
    obtain ⟨outcome, a₁, b₁, hrun, hrun', ht₁⟩ := session_lockstep ht hn hm hparsed
    obtain ⟨outcomes, a', b', hrest, hrest', ht'⟩ :=
      ih ht₁ fun j hj => hwork j (List.mem_cons_of_mem _ hj)
    refine ⟨outcome :: outcomes, a', b', ?_, ?_, ht'⟩
    · simp only [List.map_cons, sessions, hrun, hrest]
    · simp only [List.map_cons, sessions, hrun', hrest']

/-- Two histories of sessions on a new file, with the same statements and other pools. -/
def PoolsDoNotShow (work : List (Nat × Nat × List SQLStatement)) : Prop :=
  ∃ outcomes a b, sessions (work.map fun i => (i.1, i.2.2)) .empty = some (outcomes, a) ∧
    sessions (work.map fun i => (i.2.1, i.2.2)) .empty = some (outcomes, b) ∧ a.SameBytes b

/-- The sizes of the pools change neither the outcomes of the sessions nor the bytes of the file. -/
theorem sessions_poolSize (work : List (Nat × Nat × List SQLStatement))
    (hwork : ∀ i ∈ work, 0 < i.1 ∧ 0 < i.2.1 ∧ ∀ s ∈ i.2.2, IsParsed s) : PoolsDoNotShow work := by
  obtain ⟨outcomes, a, b, hrun, hrun', ht⟩ := sessions_lockstep work .empty hwork
  exact ⟨outcomes, a, b, hrun, hrun', ht.sameBytes⟩

/-- A table is made and read back, once with pools of one and two frames and once with five and
three. -/
theorem sample_poolSize : PoolsDoNotShow
    [(1, 5, [.createTable ⟨str "t", [⟨str "a", str "INT", 0⟩]⟩,
      .insert ⟨str "t", [⟨.number, str "7"⟩]⟩]),
      (2, 3, [.select ⟨str "t", [str "a"], [], false⟩])] := by
  refine sessions_poolSize _ fun i hi => ?_
  simp only [List.mem_cons, List.not_mem_nil, or_false] at hi
  obtain rfl | rfl := hi
  · refine ⟨by decide, by decide, fun s hs => ?_⟩
    simp only [List.mem_cons, List.not_mem_nil, or_false] at hs
    obtain rfl | rfl := hs
    · exact ⟨str "CREATE TABLE t (a INT);", by decide +kernel⟩
    · exact ⟨str "INSERT INTO t VALUES (7);", by decide +kernel⟩
  · refine ⟨by decide, by decide, fun s hs => ?_⟩
    obtain rfl := List.mem_singleton.mp hs
    exact ⟨str "SELECT a FROM t;", by decide +kernel⟩

end

end QueryExecutor

end MiniDbms
