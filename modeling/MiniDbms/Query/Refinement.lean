import MiniDbms.Database.Reopening
import MiniDbms.Query.StatementAnswers

/-!
# The program refines the relational model

A line is answered as the relational model says (`answer_runs`), and so are the lines of a session
(`serve_runs`). `Stands file db`: the file was left by a pool that held the database `db`, or does
not exist yet. `main` reads the database back, answers its input and leaves a file again
(`main_runs`). So every history of sessions on one file is a history of the relational database
(`program_refines`).
-/

namespace MiniDbms

open Lib PagedProgram Program BufferPoolManager CatalogManager QueryExecutor

section

variable {ext : PageId → Nat} {h : Pages} {catalog : CatalogManager} {d : PageData} {c : Contents}

/-! ## One session -/

/-- After a line the pages hold the database that the relational model says. -/
def LineDone (db : Database) (line : Bytes) (r : Reply × CatalogManager) (h' : Pages) : Prop :=
  ∃ d' c', DatabaseState h' r.2 d' c' ∧ relational.step db (line, r.1) (databaseOf r.2 c')

/-- The step of the relational model for a line that can be parsed. -/
theorem LineDone.of_answered {line : Bytes} {statement : SQLStatement} {r : Reply × CatalogManager}
    {h' : Pages} (hparse : Parser.parse (Tokenizer.tokenize line) = .ok statement)
    (hr : Answered catalog c statement r h') : LineDone (databaseOf catalog c) line r h' := by
  obtain ⟨d', c', hd', ha⟩ := hr
  refine ⟨d', c', hd', ?_⟩
  simp only [relational, hparse]
  exact ha

theorem answer_runs (hd : DatabaseState h catalog d c) (hext : ∀ q, ext q = 0) (line : Bytes) :
    Runs (poolContext ext) (answer catalog line) (LineDone (databaseOf catalog c) line) h := by
  have hplain : ∀ {statement}, Parser.parse (Tokenizer.tokenize line) = .ok statement →
      (∀ select, statement = .select select → select.isExplain = false) →
      Runs (poolContext ext) (answerStatement catalog statement)
        (LineDone (databaseOf catalog c) line) h := fun hparse hselect =>
    (answerStatement_runs hd hext (named_of_parse hparse) hselect).mono fun r h' hr =>
      .of_answered hparse hr
  rw [answer]
  cases hparse : Parser.parse (Tokenizer.tokenize line) with
  | error e =>
    refine runs_pure ⟨d, c, hd, ?_⟩
    simp only [relational, hparse]
    exact ⟨trivial, trivial⟩
  | ok statement =>
    cases statement with
    | select select =>
      dsimp only
      split
      · rename_i hexplain
        refine ((answerExplain_runs hd hexplain).mono fun reply h' hr => ?_).bind
        exact runs_pure (.of_answered hparse hr)
      · rename_i hexplain
        refine hplain hparse fun select' he => ?_
        cases he
        exact Bool.eq_false_iff.mpr hexplain
    | _ => exact hplain hparse fun select' he => by cases he

/-- What a session leaves. -/
structure SessionDone (db : Database) (input : List Bytes) (replies : List Reply) (db' : Database) :
    Prop where
  length : replies.length = (commands input).length
  run : relational.Run db ((commands input).zip replies) db'

section

variable {line : Bytes} {input : List Bytes}

theorem commands_exit (h : line = str "exit;" ∨ line = str "exit") :
    commands (line :: input) = [] := by
  rcases h with rfl | rfl <;> simp [commands]

theorem commands_nil (h : ¬ (line = str "exit;" ∨ line = str "exit")) (hnil : line = []) :
    commands (line :: input) = commands input := by
  rw [not_or, hnil] at h
  simp [commands, h, hnil]

theorem commands_cons (h : ¬ (line = str "exit;" ∨ line = str "exit")) (hnil : line ≠ []) :
    commands (line :: input) = line :: commands input := by
  rw [not_or] at h
  simp [commands, h, hnil]

end

theorem serve_runs (hext : ∀ q, ext q = 0) : ∀ (input : List Bytes) {h : Pages}
    {catalog : CatalogManager} {d : PageData} {c : Contents}, DatabaseState h catalog d c →
    Runs (poolContext ext) (serve input catalog) (fun replies h' => ∃ catalog' d' c',
      DatabaseState h' catalog' d' c' ∧
      SessionDone (databaseOf catalog c) input replies (databaseOf catalog' c')) h := by
  intro input
  induction input with
  | nil => exact fun {h catalog d c} hd => runs_pure ⟨catalog, d, c, hd, rfl, .nil _⟩
  | cons line input ih =>
    intro h catalog d c hd
    rw [serve]
    split
    · rename_i hexit
      refine runs_pure ⟨catalog, d, c, hd, ?_, ?_⟩
      · rw [commands_exit hexit]
        rfl
      · rw [commands_exit hexit]
        exact .nil _
    rename_i hexit
    split
    · rename_i hnil
      refine (ih hd).mono fun replies h' hr => ?_
      obtain ⟨catalog', d', c', hd', hlength, hrun⟩ := hr
      rw [← commands_nil hexit hnil] at hlength hrun
      exact ⟨catalog', d', c', hd', hlength, hrun⟩
    · rename_i hnil
      refine ((answer_runs hd hext line).mono fun r h₁ hr => ?_).bind
      obtain ⟨reply, catalog₁⟩ := r
      obtain ⟨d₁, c₁, hd₁, hstep⟩ := hr
      refine ((ih hd₁).mono fun replies h' hr => ?_).bind
      obtain ⟨catalog', d', c', hd', hlength, hrun⟩ := hr
      refine runs_pure ⟨catalog', d', c', hd', ?_, ?_⟩
      · rw [commands_cons hexit hnil, List.length_cons, List.length_cons, hlength]
      · rw [commands_cons hexit hnil, List.zip_cons_cons]
        exact .cons hstep hrun

end

/-! ## Sessions on a file -/

/-- The file that a pool has left, or the file that does not exist yet. -/
inductive Stands : PageFile → Database → Prop
  | empty : Stands .empty fun _ => none
  | closed {w : BufferPoolManager} {h : Pages} {catalog : CatalogManager} {d : PageData}
      {c : Contents}
      (hw : Holds (fun _ => 0) w h) (hb : w.disk.FreeBlank) (hd : DatabaseState h catalog d c) :
      Stands w.flushAllPages.disk.file (databaseOf catalog c)

/-- The file can be opened, and the catalog and the pages hold the database. -/
theorem Stands.opens {file : PageFile} {db : Database} (hs : Stands file db) {faults : DiskFaults}
    (hfaults : faults.Reliable) {n : Nat} (hn : 0 < n) :
    ∃ disk catalog w h d c,
      DiskManager.openFile file.pages file.numPages file.numPages_le faults = some disk ∧
      load.run (.new n disk) = some (catalog, w) ∧ Holds (fun _ => 0) w h ∧ w.disk.FreeBlank ∧
      DatabaseState h catalog d c ∧ databaseOf catalog c = db := by
  cases hs with
  | empty =>
    obtain ⟨w, hrun, hw⟩ := load_new hn hfaults
    refine ⟨_, _, w, _, _, _, DiskManager.openFile_empty faults (hfaults.write 0), hrun, hw, ?_,
      databaseState_new, ?_⟩
    · have hnew := holds_new (d := .newFile faults) hn hfaults
      exact freeBlank_of_runs hnew databaseState_new.load_runs (.newFile faults) hrun
    · funext name
      exact databaseOf_none (AList.lookup_empty name) _
  | closed hw hb hd =>
    obtain ⟨disk, catalog', w', h', hopen, hrun, hr⟩ := hd.reopen hw hb hfaults hn
    exact ⟨disk, catalog', w', h', _, _, hopen, hrun, hr.holds, hr.blank, hr.state,
      databaseOf_of_same hr.same _⟩

theorem run_runMain {w₀ w w' : BufferPoolManager} {catalog : CatalogManager} {input : List Bytes}
    {replies : List Reply} (hload : load.run w₀ = some (catalog, w))
    (hc : catalog.initializationStatus = .ok ())
    (hserve : (serve input catalog).run w = some (replies, w')) :
    (runMain input).run w₀ = some ((0, replies), w') := by
  rw [runMain, run_bind, hload, Option.bind_some, hc]
  dsimp only
  rw [run_bind, hserve]
  rfl

/-- A session reads the database of the file, answers its input and leaves a file again. -/
theorem main_runs {file : PageFile} {db : Database} (hs : Stands file db) {faults : DiskFaults}
    (hfaults : faults.Reliable) (input : List Bytes) :
    ∃ replies file' db', main faults file input = some (0, replies, file') ∧ Stands file' db' ∧
      SessionDone db input replies db' := by
  obtain ⟨disk, catalog, w, h, d, c, hopen, hload, hw, hb, hd, rfl⟩ :=
    hs.opens hfaults (n := defaultBufferPoolSize) (by decide)
  have hserve := serve_runs (fun _ => rfl) input hd
  obtain ⟨replies, w', h', hrun, ⟨catalog', d', c', hd', hdone⟩, hw', -⟩ := run_of_runs hw hserve
  refine ⟨replies, _, _, ?_, .closed hw' (freeBlank_of_runs hw hserve hb hrun) hd', hdone⟩
  rw [main, hopen]
  dsimp only
  rw [run_runMain hload hd.wellFormed.status hrun]

theorem program_simulates : System.Simulates Stands program relationalSessions where
  init {file} hfile := ⟨fun _ => none, rfl, by
    rw [show file = .empty from hfile]
    exact .empty⟩
  step {file db e file'} hs hstep := by
    obtain ⟨⟨faults, input⟩, code, replies⟩ := e
    obtain ⟨hfaults, hmain⟩ := hstep
    obtain ⟨replies', file'', db', hmain', hs', hlength, hrun⟩ := main_runs hs hfaults input
    cases hmain'.symm.trans hmain
    exact ⟨db', ⟨rfl, hlength, hrun⟩, hs'⟩

theorem program_answers :
    System.Answering (fun file => ∃ db, Stands file db) (fun i => i.1.Reliable) program where
  answers {file} i hs hfaults := by
    obtain ⟨db, hs⟩ := hs
    obtain ⟨replies, file', db', hmain, -⟩ := main_runs hs hfaults i.2
    exact ⟨(0, replies), file', hfaults, hmain⟩
  keeps {file e file'} hs hstep := by
    obtain ⟨db, hs⟩ := hs
    obtain ⟨db', -, hs'⟩ := program_simulates.step hs hstep
    exact ⟨db', hs'⟩

/-- Whatever the sessions on a new file are, each of them returns, and their replies are those of a
relational database that all of them share. -/
theorem program_refines :
    (∀ sessions : List (DiskFaults × List Bytes), (∀ i ∈ sessions, i.1.Reliable) →
      ∃ outcomes : List (Nat × List Reply), outcomes.length = sessions.length ∧
        program.Trace (sessions.zip outcomes)) ∧
    ∀ history, program.Trace history → relationalSessions.Trace history := by
  refine ⟨fun sessions hgood => ?_, fun history ht => program_simulates.trace ht⟩
  obtain ⟨outcomes, file', hlength, hrun⟩ := program_answers.exists_run sessions ⟨_, .empty⟩ hgood
  exact ⟨outcomes, hlength, _, _, rfl, hrun⟩

/-- A session that creates and fills a table, and one on a full disk that reads it. -/
def sampleSessions : List (DiskFaults × List Bytes) :=
  [(DiskFaults.none, [str "CREATE TABLE t (a INT);", str "INSERT INTO t VALUES (7);"]),
    ({ DiskFaults.none with allocate := fun _ => true }, [str "SELECT * FROM t;", str "exit;"])]

theorem sample_refines : ∃ outcomes, outcomes.length = 2 ∧
    program.Trace (sampleSessions.zip outcomes) ∧
    relationalSessions.Trace (sampleSessions.zip outcomes) := by
  have hreliable : ∀ i ∈ sampleSessions, i.1.Reliable := by
    intro i hi
    simp only [sampleSessions, List.mem_cons, List.not_mem_nil, or_false] at hi
    obtain rfl | rfl := hi <;> exact ⟨fun _ => rfl, fun _ => rfl, fun _ => rfl⟩
  obtain ⟨outcomes, hlength, htrace⟩ := program_refines.1 sampleSessions hreliable
  exact ⟨outcomes, hlength, htrace, program_refines.2 _ htrace⟩

end MiniDbms
