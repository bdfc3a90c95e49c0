import MiniDbms.Catalog.CatalogPage
import MiniDbms.Catalog.CatalogChanges
import MiniDbms.Buffer.PoolImages

/-!
# Failing catalog calls

What a call of the catalog that returns an error leaves behind, whatever the disk does.
`Persist` writes the new catalog into the frame of page 0 before `FlushPage` writes it to
the disk: when that write fails, the maps are rolled back but the frame keeps the new catalog
(`failed_call_iff`). After a rejected `Load` only `Flush` writes to page 0
(`rejected_run`).
-/

namespace MiniDbms

open Lib PagedProgram Program BufferPoolManager

/-! ## Destroying and opening an index is quiet -/

namespace HashIndex

theorem quiet_destroyChain : ∀ (fuel : Nat) (visited : List PageId) (current : PageId),
    (destroyChain fuel visited current).Quiet := by
  intro fuel
  induction fuel with
  | zero => exact fun _ _ => trivial
  | succ fuel ih =>
    intro visited current
    unfold destroyChain
    split
    · exact quiet_pure _
    split
    · exact quiet_pure _
    apply quiet_bind (quiet_fetchPage _)
    rintro (_ | ⟨f, data⟩)
    · exact quiet_pure _
    dsimp only
    split
    · exact quiet_bind (quiet_unpinPage _ _) fun _ => quiet_pure _
    apply quiet_bind (quiet_unpinPage _ _)
    rintro (_ | _)
    · exact quiet_pure _
    apply quiet_bind (quiet_deletePage _)
    rintro (_ | _)
    · exact quiet_pure _
    · exact ih _ _

theorem quiet_destroyChains : ∀ (starts visited : List PageId),
    (destroyChains starts visited).Quiet := by
  intro starts
  induction starts with
  | nil => exact fun _ => quiet_pure _
  | cons start starts ih =>
    intro visited
    apply quiet_bind (quiet_destroyChain _ _ _)
    rintro (_ | _)
    · exact quiet_pure _
    · exact ih _

theorem quiet_destroy (header : PageId) : (destroy header).Quiet := by
  unfold destroy
  split
  · exact quiet_pure _
  apply quiet_bind (quiet_fetchPage _)
  rintro (_ | ⟨f, data⟩)
  · exact quiet_pure _
  dsimp only
  split
  · exact quiet_bind (quiet_unpinPage _ _) fun _ => quiet_pure _
  apply quiet_bind (quiet_unpinPage _ _)
  rintro (_ | _)
  · exact quiet_pure _
  dsimp only
  split
  · exact quiet_pure _
  apply quiet_bind (quiet_destroyChains _ _)
  rintro (_ | _)
  · exact quiet_pure _
  apply quiet_bind (quiet_deletePage _)
  rintro (_ | _) <;> exact quiet_pure _

theorem quiet_openIndex (header : PageId) : (openIndex header).Quiet := by
  unfold openIndex
  split
  · exact quiet_pure _
  apply quiet_bind
  · unfold validateHeader
    apply quiet_bind (quiet_fetchPage _)
    rintro (_ | ⟨f, data⟩)
    · exact quiet_pure _
    apply quiet_bind (quiet_unpinPage _ _)
    rintro (_ | _)
    · exact quiet_pure _
    dsimp only
    split <;> exact quiet_pure _
  · rintro (_ | _) <;> exact quiet_pure _

end HashIndex

namespace CatalogManager

theorem quiet_openIndexes : ∀ (pending : List IndexMetadata) (catalog : CatalogManager),
    (openIndexes pending catalog).Quiet := by
  intro pending
  induction pending with
  | nil => exact fun _ => quiet_pure _
  | cons index pending ih =>
    intro catalog
    unfold openIndexes
    split
    · exact quiet_pure _
    split
    · exact quiet_pure _
    apply quiet_bind (HashIndex.quiet_openIndex _)
    rintro (_ | _)
    · exact quiet_pure _
    dsimp only
    split
    · exact quiet_pure _
    · exact ih _

theorem quiet_load : load.Quiet := by
  unfold load
  apply quiet_bind (quiet_fetchPage _)
  rintro (_ | ⟨f, data⟩)
  · exact quiet_pure _
  dsimp only
  split
  · exact quiet_bind (quiet_unpinPage _ _) fun _ => quiet_pure _
  split
  · exact quiet_bind (quiet_unpinPage _ _) fun _ => quiet_pure _
  apply quiet_bind (quiet_unpinPage _ _)
  rintro (_ | _)
  · exact quiet_pure _
  · exact quiet_openIndexes _ _

/-! ## `Persist` -/

/-- The catalog cannot be stored, page 0 cannot be fetched, or its new bytes are in the pool: then
they are on the disk as well, unless the write fails. -/
theorem persist_run {w : BufferPoolManager} (hw : w.Coherent) (catalog : CatalogManager) :
    match serialize catalog with
    | .error e => (persist catalog).run w = some (.error e, w)
    | .ok serialized => ∃ r w', (persist catalog).run w = some (r, w') ∧
        (((w.fetchPage headerPageId).1 = none ∧ (∃ e, r = .error e) ∧ Keeps headerPageId w w') ∨
          ((w.fetchPage headerPageId).1 ≠ none ∧ w'.Coherent ∧
            w'.image headerPageId = published serialized ∧
            if (w.fetchPage headerPageId).2.disk.faults.write
                (w.fetchPage headerPageId).2.disk.ops = true then ∃ e, r = .error e
            else r = .ok () ∧ w'.disk.pages headerPageId = published serialized)) := by
  unfold persist
  cases hs : serialize catalog with
  | error e => rfl
  | ok serialized =>
    dsimp only
    obtain ⟨hkeep, hsome⟩ := hw.fetchPage headerPageId headerPageId
    rw [run_bind, PagedProgram.fetchPage, Program.run]
    rcases hf : w.fetchPage headerPageId with ⟨_ | f, v⟩
    · rw [hf] at hkeep
      exact ⟨_, v, rfl, .inl ⟨rfl, ⟨_, rfl⟩, hkeep⟩⟩
    · rw [hf] at hkeep hsome
      obtain ⟨hframe, -, hpin⟩ := hsome f rfl
      obtain ⟨u, hun, hu, hframe', hdata, hdirty, hdisk, -⟩ :=
        hkeep.coherent.overwrite hframe hpin (published serialized) false
      rw [if_neg Bool.false_ne_true] at hun
      have hflush := hu.flushPage_dirty hframe' hdirty
      have hkeep' := hu.flushPage headerPageId headerPageId
      have himage : (u.flushPage headerPageId).2.image headerPageId = published serialized := by
        rw [hkeep'.image, image_of_frameOf hframe', hdata]
      rw [hdisk, hdata] at hflush
      have hrun : Program.run (putPage f (Image.zero.splice 0 serialized) false) v =
          some ((), v.writeBytes f (published serialized)) := rfl
      simp only [Program.run, Option.bind_some, run_bind, hrun]
      rw [PagedProgram.unpinPage, Program.run, hun]
      simp only [Program.run, Option.bind_some, run_bind, PagedProgram.flushPage]
      split at hflush
      · rename_i hfault
        rw [hflush.1]
        refine ⟨_, _, rfl, .inr ⟨Option.some_ne_none _, hkeep'.coherent, himage, ?_⟩⟩
        rw [if_pos hfault]
        exact ⟨_, rfl⟩
      · rename_i hfault
        rw [hflush.1]
        refine ⟨_, _, rfl, .inr ⟨Option.some_ne_none _, hkeep'.coherent, himage, ?_⟩⟩
        rw [if_neg hfault]
        exact ⟨rfl, hflush.2⟩

/-! ## `CreateTable` and `CreateIndex` -/

namespace Change

variable {w w' : BufferPoolManager} {catalog catalog' changed changed' : CatalogManager}
  {call : Change} {e : Status}

theorem quiet_undo : (call.undo catalog e).Quiet := by
  cases call with
  | createTable => exact quiet_pure _
  | createIndex _ _ _ index =>
    apply quiet_bind (HashIndex.quiet_destroy index)
    rintro (_ | _) <;> exact quiet_pure _

theorem undo_result {r : Except Status Unit × CatalogManager}
    (hrun : (call.undo catalog e).run w = some (r, w')) :
    (∃ e', r.1 = .error e') ∧ r.2 = catalog := by
  cases call with
  | createTable =>
    cases hrun
    exact ⟨⟨e, rfl⟩, rfl⟩
  | createIndex _ _ _ index =>
    rw [undo, run_bind] at hrun
    cases hd : Program.run (HashIndex.destroy index) w with
    | none =>
      rw [hd] at hrun
      cases hrun
    | some c =>
      rw [hd] at hrun
      obtain ⟨_ | _, v⟩ := c
      · cases hrun
        exact ⟨⟨_, rfl⟩, rfl⟩
      · cases hrun
        exact ⟨⟨e, rfl⟩, rfl⟩

/-- The new catalog is in the frame of page 0, and its write to the disk fails. -/
def Torn (w : BufferPoolManager) (catalog : CatalogManager) (call : Change) : Prop :=
  ∃ changed serialized, call.Accepts catalog changed ∧ serialize changed = .ok serialized ∧
    (w.fetchPage headerPageId).1 ≠ none ∧
    (w.fetchPage headerPageId).2.disk.faults.write (w.fetchPage headerPageId).2.disk.ops = true ∧
    published serialized ≠ w.image headerPageId

/-- A failed call leaves the catalog and the image of page 0 as they were, unless the write of the
published page failed. -/
theorem failed_call_iff (hw : w.Coherent)
    (hrun : (call.exec catalog).run w = some ((.error e, catalog'), w')) :
    (catalog' = catalog ∧ w'.image headerPageId = w.image headerPageId) ↔
      ¬ Torn w catalog call := by
  by_cases hacc : ∃ changed, call.Accepts catalog changed
  · obtain ⟨changed, hacc⟩ := hacc
    have hexec := exec_accepted hacc
    have huniq : ∀ {c}, call.Accepts catalog c → c = changed := fun hc => hacc.unique hc
    have hpersist := persist_run hw changed
    -- what is left after `Persist` has failed keeps page 0
    have hrest : ∀ {e' v}, (persist changed).run w = some (.error e', v) → v.Coherent →
        catalog' = catalog ∧ w'.image headerPageId = v.image headerPageId := by
      intro e' v hp hv
      rw [hexec, run_bind, hp] at hrun
      exact ⟨(undo_result hrun).2, (run_quiet quiet_undo hv hrun (by decide)).image⟩
    cases hs : serialize changed with
    | error e' =>
      rw [hs] at hpersist
      obtain ⟨hcat, himage⟩ := hrest hpersist hw
      refine ⟨?_, fun _ => ⟨hcat, himage⟩⟩
      rintro - ⟨c, serialized, hc, hser, -⟩
      rw [huniq hc, hs] at hser
      cases hser
    | ok serialized =>
      rw [hs] at hpersist
      obtain ⟨r, v, hp, ⟨hnone, ⟨e', rfl⟩, hkeep⟩ | ⟨hfetch, hv, himage, hwrite⟩⟩ := hpersist
      · obtain ⟨hcat, himage'⟩ := hrest hp hkeep.coherent
        refine ⟨?_, fun _ => ⟨hcat, himage'.trans hkeep.image⟩⟩
        rintro - ⟨c, s, -, -, hsome, -⟩
        exact hsome hnone
      · split at hwrite
        · rename_i hfault
          obtain ⟨e', rfl⟩ := hwrite
          obtain ⟨hcat, himage'⟩ := hrest hp hv
          rw [himage', himage]
          refine ⟨?_, fun hno => ⟨hcat, ?_⟩⟩
          · rintro ⟨-, hsame⟩ ⟨c, s, hc, hser, -, -, hne⟩
            rw [huniq hc, hs] at hser
            cases hser
            exact hne hsame
          · by_contra hne
            exact hno ⟨changed, serialized, hacc, hs, hfetch, hfault, hne⟩
        · obtain ⟨rfl, -⟩ := hwrite
          rw [hexec, run_bind, hp] at hrun
          cases hrun
  · obtain ⟨e', hexec⟩ := exec_rejected fun changed hc => hacc ⟨changed, hc⟩
    rw [hexec] at hrun
    cases hrun
    refine ⟨?_, fun _ => ⟨rfl, rfl⟩⟩
    rintro - ⟨changed, _, hc, -⟩
    exact hacc ⟨changed, hc⟩

/-- A disk whose access number `n` fails when it is a write. -/
def writeFault (n : Nat) : DiskFaults := { DiskFaults.none with write := fun m => decide (m = n) }

def usersTable : Change := .createTable [117] [⟨[105], .integer, 4⟩] 1

def usersIndex : Change := .createIndex [120] [117] [105] 2

/-- A catalog that has the table already. -/
def withUsers : CatalogManager :=
  { tables := AList.insert [117] ⟨[117], [⟨[105], .integer, 4⟩], 1⟩ ∅ }

theorem failed_call_iff_duplicate :
    ¬ Torn (new 1 (DiskManager.newFile DiskFaults.none)) withUsers usersTable :=
  (failed_call_iff (e := .invalidArgument "Table already exists in catalog")
    (new_coherent Nat.one_pos _) rfl).mp ⟨rfl, rfl⟩

/-- The write of the published page fails: the table is not in the maps, but the pool shows a
catalog page instead of zeros, and after a flush and a reopen the table is there. -/
theorem failed_call_published :
    ∃ e catalog w, (usersTable.exec {}).run (new 1 (DiskManager.newFile (writeFault 2))) =
        some ((.error e, catalog), w) ∧
      catalog.tables.lookup [117] = none ∧
      w.image headerPageId ≠ (new 1 (DiskManager.newFile (writeFault 2))).image headerPageId ∧
      (load.run (new 1 w.flushAllPages.disk)).map
          (fun r => (r.1.tables.lookup [117]).map TableMetadata.firstPageId) = some (some 1) := by
  have hval : ((usersTable.exec {}).run (new 1 (DiskManager.newFile (writeFault 2)))).map
      (fun r => (r.1.1, r.1.2.tables.lookup [117], (r.2.image headerPageId).readNat 0 4,
        (load.run (new 1 r.2.flushAllPages.disk)).map
          fun r => (r.1.tables.lookup [117]).map TableMetadata.firstPageId)) =
      some (.error (.ioError "Could not persist catalog header page"), none, catalogMagic,
        some (some 1)) := by decide +kernel
  cases hrun : (usersTable.exec {}).run (new 1 (DiskManager.newFile (writeFault 2))) with
  | none =>
    rw [hrun] at hval
    cases hval
  | some r =>
    obtain ⟨⟨result, catalog⟩, w⟩ := r
    rw [hrun] at hval
    simp only [Option.map_some, Option.some.injEq, Prod.mk.injEq] at hval
    obtain ⟨rfl, hlookup, hmagic, hreopen⟩ := hval
    refine ⟨_, catalog, w, rfl, hlookup, fun himage => ?_, hreopen⟩
    rw [himage] at hmagic
    exact absurd hmagic (by decide +kernel)

end Change

/-! ## After a rejected `Load` -/

/-- The public calls of a catalog; the getters change neither the catalog nor the pool. -/
inductive PublicCall where
  | change (call : Change)
  | flush
  | load
  | get

namespace PublicCall

def exec (catalog : CatalogManager) : PublicCall → Program CatalogManager
  | .change call => do return (← call.exec catalog).2
  | .flush => do return (← catalog.flush).2
  | .load => CatalogManager.load
  | .get => return catalog

/-- The call is no `Flush`, or one that cannot fetch page 0. -/
def Harmless (w : BufferPoolManager) (call : PublicCall) : Prop :=
  call = .flush → (w.fetchPage headerPageId).1 = none

end PublicCall

/-- A run of public calls other than a `Load` that succeeds. -/
inductive PublicRun (catalog : CatalogManager) (w : BufferPoolManager) :
    CatalogManager → BufferPoolManager → Prop where
  | start : PublicRun catalog w catalog w
  | step {catalog₁ catalog₂ : CatalogManager} {w₁ w₂ : BufferPoolManager} (call : PublicCall)
      (run : PublicRun catalog w catalog₁ w₁)
      (exec : (call.exec catalog₁).run w₁ = some (catalog₂, w₂))
      (load : call = .load → catalog₂.initializationStatus ≠ .ok ())
      (harmless : call.Harmless w₁) : PublicRun catalog w catalog₂ w₂

section

variable {w w' w₁ : BufferPoolManager} {catalog catalog' : CatalogManager}

/-- A catalog that is not initialized accepts no table and no index. -/
theorem run_change_rejected (hstatus : catalog.initializationStatus ≠ .ok ()) (call : Change)
    (w : BufferPoolManager) :
    ((PublicCall.change call).exec catalog).run w = some (catalog, w) := by
  have hno : ∀ changed, ¬ call.Accepts catalog changed := by
    intro changed hacc
    cases call with
    | createTable => exact hstatus hacc.1
    | createIndex => exact hstatus hacc.1
  obtain ⟨e, hexec⟩ := Change.exec_rejected hno
  rw [PublicCall.exec, hexec]
  rfl

/-- A call on a catalog that is not initialized. -/
theorem step_rejected (hw : w.Coherent) (hstatus : catalog.initializationStatus ≠ .ok ())
    {call : PublicCall} (hrun : (call.exec catalog).run w = some (catalog', w'))
    (hload : call = .load → catalog'.initializationStatus ≠ .ok ()) (hharm : call.Harmless w) :
    Keeps headerPageId w w' ∧ catalog'.initializationStatus ≠ .ok () := by
  cases call with
  | change call =>
    rw [run_change_rejected hstatus] at hrun
    cases hrun
    exact ⟨.refl hw, hstatus⟩
  | flush =>
    have hnone := hharm rfl
    have hpersist := persist_run hw catalog
    rw [PublicCall.exec, run_bind, CatalogManager.flush, run_bind] at hrun
    cases hs : serialize catalog with
    | error e =>
      rw [hs] at hpersist
      rw [hpersist] at hrun
      cases hrun
      exact ⟨.refl hw, hstatus⟩
    | ok serialized =>
      rw [hs] at hpersist
      obtain ⟨r, v, hp, ⟨-, ⟨e, rfl⟩, hkeep⟩ | ⟨hfetch, -⟩⟩ := hpersist
      · rw [hp] at hrun
        cases hrun
        exact ⟨hkeep, hstatus⟩
      · exact absurd hnone hfetch
  | load => exact ⟨run_quiet quiet_load hw hrun (by decide), hload rfl⟩
  | get =>
    cases hrun
    exact ⟨.refl hw, hstatus⟩

theorem publicRun_rejected (hw : w.Coherent) (hstatus : catalog.initializationStatus ≠ .ok ())
    (hrun : PublicRun catalog w catalog' w') :
    Keeps headerPageId w w' ∧ catalog'.initializationStatus ≠ .ok () := by
  induction hrun with
  | start => exact ⟨.refl hw, hstatus⟩
  | step call _ hexec hload hharm ih =>
    obtain ⟨hkeep, hst⟩ := ih
    obtain ⟨hkeep', hst'⟩ := step_rejected hkeep.coherent hst hexec hload hharm
    exact ⟨hkeep.trans hkeep', hst'⟩

/-- After a `Load` that rejects page 0, the page stays as it is in the pool and on the disk, and the
catalog stays unusable, as long as no `Flush` can fetch page 0. -/
theorem rejected_run (hw : w.Coherent) (hdisk : w.disk.pages headerPageId = w.image headerPageId)
    (hload : load.run w = some (catalog, w₁)) (hstatus : catalog.initializationStatus ≠ .ok ())
    (hrun : PublicRun catalog w₁ catalog' w') :
    w'.image headerPageId = w.image headerPageId ∧
      w'.disk.pages headerPageId = w.disk.pages headerPageId ∧
      catalog'.initializationStatus ≠ .ok () := by
  have hkeep := run_quiet quiet_load hw hload (p := headerPageId) (by decide)
  obtain ⟨hkeep', hst⟩ := publicRun_rejected hkeep.coherent hstatus hrun
  have hall := hkeep.trans hkeep'
  refine ⟨hall.image, ?_, hst⟩
  rcases hall.disk with hd | hd
  · exact hd
  · rw [hd, hdisk]

end

/-- A page 0 that is neither empty nor a catalog. -/
def damagedFile : DiskManager :=
  (DiskManager.newFile DiskFaults.none).setPage headerPageId (Image.zero.writeNat 0 4 1)

/-- What `Load` makes of the damaged page. -/
theorem load_damaged : ∃ catalog w, load.run (new 1 damagedFile) = some (catalog, w) ∧
    catalog.initializationStatus ≠ .ok () ∧ (w.image headerPageId).readNat 0 4 = 1 ∧
    (PublicCall.flush.exec catalog).run w ≠ none ∧
    ∀ catalog' w', (PublicCall.flush.exec catalog).run w = some (catalog', w') →
      catalog'.initializationStatus = .ok () ∧ (w'.image headerPageId).readNat 0 4 =
        catalogMagic := by
  have hval : (load.run (new 1 damagedFile)).map (fun r => (r.1.initializationStatus,
      (r.2.image headerPageId).readNat 0 4, ((PublicCall.flush.exec r.1).run r.2).map fun r =>
        (r.1.initializationStatus, (r.2.image headerPageId).readNat 0 4))) =
      some (.error (.ioError "Catalog header is corrupted or incompatible"), 1,
        some (.ok (), catalogMagic)) := by decide +kernel
  cases hrun : load.run (new 1 damagedFile) with
  | none =>
    rw [hrun] at hval
    cases hval
  | some r =>
    obtain ⟨catalog, w⟩ := r
    rw [hrun] at hval
    simp only [Option.map_some, Option.some.injEq, Prod.mk.injEq] at hval
    obtain ⟨hstatus, hmagic, hflush⟩ := hval
    refine ⟨catalog, w, rfl, by rw [hstatus]; nofun, hmagic, fun hnone => ?_, fun c v hv => ?_⟩
    · rw [hnone] at hflush
      cases hflush
    · rw [hv] at hflush
      simpa using hflush

/-- The damaged file on a disk that cannot be read. -/
def unreadableFile : DiskManager :=
  { damagedFile with faults := { DiskFaults.none with read := fun _ => true } }

/-- `CreateTable`, `CreateIndex` and `Flush` after a `Load` that cannot read page 0. -/
theorem rejected_run_flush : ∃ catalog w catalog' w',
    load.run (new 1 unreadableFile) = some (catalog, w) ∧
    (do
      let catalog ← (PublicCall.change Change.usersTable).exec catalog
      let catalog ← (PublicCall.change Change.usersIndex).exec catalog
      PublicCall.flush.exec catalog : Program CatalogManager).run w = some (catalog', w') ∧
    w'.image headerPageId = (new 1 unreadableFile).image headerPageId ∧
    w'.disk.pages headerPageId = (new 1 unreadableFile).disk.pages headerPageId ∧
    catalog'.initializationStatus ≠ .ok () := by
  have hval : (load.run (new 1 unreadableFile)).map (fun r =>
      (r.1.initializationStatus.isOk, (r.2.fetchPage headerPageId).1,
        ((PublicCall.flush.exec r.1).run r.2).isSome)) = some (false, none, true) := by
          decide +kernel
  obtain ⟨⟨catalog, w⟩, hload, hval⟩ := Option.map_eq_some_iff.mp hval
  simp only [Prod.mk.injEq] at hval
  obtain ⟨hok, hfetch, hflush⟩ := hval
  obtain ⟨⟨catalog', w'⟩, hflush⟩ := Option.isSome_iff_exists.mp hflush
  have hstatus : catalog.initializationStatus ≠ .ok () := by
    intro h
    rw [h] at hok
    cases hok
  have htable := run_change_rejected hstatus Change.usersTable w
  have hindex := run_change_rejected hstatus Change.usersIndex w
  have hrun : PublicRun catalog w catalog' w' :=
    .step .flush (.step _ (.step _ .start htable nofun nofun) hindex nofun nofun) hflush nofun
      fun _ => hfetch
  refine ⟨catalog, w, catalog', w', hload, ?_,
    rejected_run (new_coherent Nat.one_pos _) rfl hload hstatus hrun⟩
  rw [run_bind, htable, Option.bind_some, run_bind, hindex, Option.bind_some, hflush]

/-- `Flush` does not look at the initialization status: it replaces the rejected page by an empty
catalog. -/
theorem flush_replaces_rejected_page : ∃ catalog w catalog' w',
    load.run (new 1 damagedFile) = some (catalog, w) ∧ catalog.initializationStatus ≠ .ok () ∧
      (PublicCall.flush.exec catalog).run w = some (catalog', w') ∧
      w'.image headerPageId ≠ w.image headerPageId ∧ catalog'.initializationStatus = .ok () := by
  obtain ⟨catalog, w, hrun, hstatus, hmagic, hsome, hflush⟩ := load_damaged
  obtain ⟨⟨catalog', w'⟩, hrun'⟩ := Option.ne_none_iff_exists'.mp hsome
  obtain ⟨hok, hmagic'⟩ := hflush catalog' w' hrun'
  refine ⟨catalog, w, catalog', w', hrun, hstatus, hrun', fun himage => ?_, hok⟩
  rw [himage, hmagic] at hmagic'
  exact absurd hmagic' (by decide)

end CatalogManager

end MiniDbms
