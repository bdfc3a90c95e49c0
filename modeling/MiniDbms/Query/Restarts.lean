import MiniDbms.Database.Reopening
import MiniDbms.Query.ReachedStates

/-!
# Restarts

`Operated catalog w`: the catalog and the pool that statements and restarts lead to, from a new
file. A restart closes the pool, opens the file again and loads the catalog into a pool of any size.
In every such state a restart is the identity on the database (`operated_restart`): the catalog, the
records of every table with their ids, the entries of every index and the free pages are as they
were.
-/

namespace MiniDbms

open Lib PagedProgram Program BufferPoolManager HashIndex HeapFile CatalogManager

namespace QueryExecutor

/-- The catalog and the pool that some SQL texts and restarts lead to, from a new file. -/
inductive Operated : CatalogManager → BufferPoolManager → Prop
  | start {n : Nat} {faults : DiskFaults} {catalog : CatalogManager} {w : BufferPoolManager}
      (hn : 0 < n) (hfaults : faults.Reliable)
      (hload : load.run (.new n (.newFile faults)) = some (catalog, w)) : Operated catalog w
  | statement {catalog catalog' : CatalogManager} {w w' : BufferPoolManager} {text : Bytes}
      {statement : SQLStatement} {status : Except Status Unit} {result : QueryResult}
      (hoperated : Operated catalog w)
      (hparse : Parser.parse (Tokenizer.tokenize text) = .ok statement)
      (hrun : (execute catalog statement).run w = some ((status, result, catalog'), w')) :
      Operated catalog' w'
  | restart {n : Nat} {faults : DiskFaults} {disk : DiskManager} {catalog catalog' : CatalogManager}
      {w w' : BufferPoolManager} (hoperated : Operated catalog w) (hn : 0 < n)
      (hfaults : faults.Reliable)
      (hopen : DiskManager.openFile w.flushAllPages.disk.pages w.flushAllPages.disk.numPages
        w.flushAllPages.disk.numPages_le faults = some disk)
      (hload : load.run (.new n disk) = some (catalog', w')) : Operated catalog' w'

variable {n : Nat} {catalog : CatalogManager} {w : BufferPoolManager}

theorem Operated.of_reached (hn : 0 < n) (hr : Reached n catalog w) : Operated catalog w := by
  induction hr with
  | start hfaults hload => exact .start hn hfaults hload
  | statement _ hparse hrun ih => exact .statement ih hparse hrun

/-- The pool holds a database as SQL statements make it, and the free pages are blank. -/
theorem Operated.state (ho : Operated catalog w) :
    ∃ h d c, Holds (fun _ => 0) w h ∧ DatabaseState h catalog d c ∧ w.disk.FreeBlank := by
  induction ho with
  | @start n faults _ _ hn hfaults hload =>
    obtain ⟨w, hrun, hw⟩ := load_new hn hfaults
    rw [hload] at hrun
    cases hrun
    have hnew := holds_new (d := .newFile faults) hn hfaults
    exact ⟨_, _, _, hw, databaseState_new,
      freeBlank_of_runs hnew databaseState_new.load_runs (.newFile faults) hload⟩
  | statement _ hparse hrun ih =>
    obtain ⟨h, d, c, hw, hd, hb⟩ := ih
    have hexec : Runs (poolContext fun _ => 0) (execute _ _) _ h :=
      execute_runs hd (fun _ => rfl) (named_of_parse hparse)
    obtain ⟨r, w', h', hrun', ⟨d', c', hdone⟩, hw', -⟩ := run_of_runs hw hexec
    have hb' := freeBlank_of_runs hw hexec hb hrun'
    rw [hrun] at hrun'
    cases hrun'
    exact ⟨h', d', c', hw', hdone.state, hb'⟩
  | restart _ hn hfaults hopen hload ih =>
    obtain ⟨h, d, c, hw, hd, hb⟩ := ih
    obtain ⟨disk, catalog', w', h', hopen', hrun, hr⟩ := hd.reopen hw hb hfaults hn
    cases hopen.symm.trans hopen'
    cases hload.symm.trans hrun
    exact ⟨h', d, c, hr.holds, hr.state, hr.blank⟩

/-- A restart with a pool of `n` frames succeeds and gives the same database. -/
def Restarts (catalog : CatalogManager) (w : BufferPoolManager) (n : Nat) (faults : DiskFaults) :
    Prop :=
  ∃ disk catalog' w' h d c h',
    DiskManager.openFile w.flushAllPages.disk.pages w.flushAllPages.disk.numPages
      w.flushAllPages.disk.numPages_le faults = some disk ∧
    load.run (.new n disk) = some (catalog', w') ∧ catalog'.initializationStatus = .ok () ∧
    Holds (fun _ => 0) w h ∧ DatabaseState h catalog d c ∧
    Restored catalog w h d c catalog' w' h' ∧ Operated catalog' w'

/-- Closing and opening the database is the identity, whatever statements and restarts have come
before. -/
theorem operated_restart (ho : Operated catalog w) (hn : 0 < n) {faults : DiskFaults}
    (hfaults : faults.Reliable) : Restarts catalog w n faults := by
  obtain ⟨h, d, c, hw, hd, hb⟩ := ho.state
  obtain ⟨disk, catalog', w', h', hopen, hload, hr⟩ := hd.reopen hw hb hfaults hn
  exact ⟨disk, catalog', w', h, d, c, h', hopen, hload, hr.state.wellFormed.status, hw, hd, hr,
    .restart ho hn hfaults hopen hload⟩

theorem sample_restart : ∃ catalog w, Operated catalog w ∧
    (catalog.indexes.lookup (str "t.a")).isSome ∧ Restarts catalog w 3 .none := by
  obtain ⟨catalog, w, hreached, -, hindex⟩ := reached_sample
  have ho := Operated.of_reached Nat.one_pos hreached
  exact ⟨catalog, w, ho, hindex, operated_restart ho (Nat.succ_pos 2) DiskFaults.none_reliable⟩

end QueryExecutor

end MiniDbms
