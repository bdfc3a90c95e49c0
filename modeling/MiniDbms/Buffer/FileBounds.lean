import MiniDbms.Buffer.Programs
import MiniDbms.Lib.LinkWalk

/-!
# The pages of the file

A pool holds pages of its file only (`InFile`), whatever its calls and whatever the disk does
(`Opened.inFile`): `FetchPage` of an id outside the file always fails. Nothing but `NewPage` changes
the size of the file. So a program that `Ends` does end on a pool, and the pages it has fetched
belong to the file (`run_ends`).
-/

namespace MiniDbms

open Lib PagedProgram Program BufferPoolManager

/-- The file has a page with this id. -/
def DiskManager.Has (d : DiskManager) (p : PageId) : Prop := 0 ≤ p.toInt ∧ p.toInt < d.numPages

namespace BufferPoolManager

variable {w w' v : BufferPoolManager} {p : PageId} {f : FrameId} {b : Bool}

/-- The pages in the page table and in the frames belong to the file. -/
structure InFile (w : BufferPoolManager) : Prop where
  table : ∀ {p f}, w.frameOf p = some f → w.disk.Has p
  pages : ∀ f, (w.pages f).pageId = invalidPageId ∨ w.disk.Has (w.pages f).pageId

theorem new_inFile (n : Nat) (d : DiskManager) : (new n d).InFile where
  table h := by simp [new, frameOf] at h
  pages _ := .inl rfl

/-- The file has grown at most, and every page was there or belongs to the file. -/
theorem InFile.of (hw : w.InFile) (hn : w.disk.numPages ≤ w'.disk.numPages)
    (htable : ∀ {p f}, w'.frameOf p = some f → w.frameOf p ≠ none ∨ w'.disk.Has p)
    (hpages : ∀ f, (w'.pages f).pageId = (w.pages f).pageId ∨
      (w'.pages f).pageId = invalidPageId ∨ w'.disk.Has (w'.pages f).pageId) : w'.InFile := by
  have hmono : ∀ {p}, w.disk.Has p → w'.disk.Has p := by
    intro p hp
    exact ⟨hp.1, lt_of_lt_of_le hp.2 (Int.ofNat_le.mpr hn)⟩
  refine ⟨fun {p f} hp => ?_, fun f => ?_⟩
  · rcases htable hp with hold | hnew
    · obtain ⟨g, hg⟩ := Option.ne_none_iff_exists'.mp hold
      exact hmono (hw.table hg)
    · exact hnew
  · rcases hpages f with hold | hnew
    · rw [hold]
      exact (hw.pages f).imp_right hmono
    · exact hnew

/-! ## The calls -/

/-- The pages in the pool are the same, with the file as long as before. -/
structure SamePages (w w' : BufferPoolManager) : Prop where
  table : w'.pageTable = w.pageTable
  pages : ∀ f, (w'.pages f).pageId = (w.pages f).pageId
  numPages : w'.disk.numPages = w.disk.numPages

theorem SamePages.refl (w : BufferPoolManager) : SamePages w w := ⟨rfl, fun _ => rfl, rfl⟩

theorem SamePages.trans (h : SamePages w v) (h' : SamePages v w') : SamePages w w' :=
  ⟨h'.table.trans h.table, fun f => (h'.pages f).trans (h.pages f), h'.numPages.trans h.numPages⟩

theorem SamePages.inFile (h : SamePages w w') (hw : w.InFile) : w'.InFile := by
  apply hw.of (le_of_eq h.numPages.symm)
  · intro p f hp
    refine .inl fun hnone => ?_
    rw [frameOf, h.table] at hp
    rw [frameOf, hp] at hnone
    cases hnone
  · exact fun f => .inl (h.pages f)

theorem samePages_takeFrame (w : BufferPoolManager) : SamePages w w.takeFrame.2 := by
  unfold takeFrame
  split
  · exact ⟨rfl, fun _ => rfl, rfl⟩
  · split <;> exact ⟨rfl, fun _ => rfl, rfl⟩

theorem samePages_giveBack (w : BufferPoolManager) (f : FrameId) (b : Bool) :
    SamePages w (w.giveBack f b) := by
  unfold giveBack
  split <;> exact ⟨rfl, fun _ => rfl, rfl⟩

/-- A write of a page of the file, or of no page, leaves the size of the file. -/
theorem numPages_writePage {d : DiskManager} (hp : p = invalidPageId ∨ d.Has p) (data : PageData) :
    (d.writePage p data).2.numPages = d.numPages := by
  rcases hp with rfl | hp
  · rfl
  · rcases DiskManager.writePage_cases hp.1 hp.2 data with h | ⟨-, e, h⟩ <;> rw [h] <;> rfl

theorem InFile.writeBack (hw : w.InFile) (f : FrameId) (b : Bool) :
    SamePages w (w.writeBack f b).2 := by
  have hn := numPages_writePage (hw.pages f) (w.pages f).data
  unfold BufferPoolManager.writeBack
  split
  · rcases hd : w.disk.writePage (w.pages f).pageId (w.pages f).data with ⟨_ | _, d⟩
    · rw [hd] at hn
      exact ⟨rfl, fun _ => rfl, hn⟩
    · rw [hd] at hn
      exact ⟨rfl, fun _ => rfl, hn⟩
  · exact .refl w

theorem disk_install (w : BufferPoolManager) (f : FrameId) (b : Bool) (p : PageId)
    (data : PageData) :
    ((w.unmap f b).install f p data).disk = w.disk := by
  unfold unmap BufferPoolManager.install
  split <;> rfl

/-- A page of the file that is put into a frame. -/
theorem InFile.install (hw : w.InFile) (hp : w.disk.Has p) (f : FrameId) (b : Bool)
    (data : PageData) : ((w.unmap f b).install f p data).InFile := by
  have hdisk := disk_install w f b p data
  refine hw.of (le_of_eq (by rw [hdisk])) (fun {q g} hq => ?_) fun g => ?_
  · rw [hdisk]
    by_cases hqp : q = p
    · subst hqp
      exact .inr hp
    · left
      have hlookup : (w.unmap f b).pageTable.lookup q = some g := by
        rw [← hq]
        exact (AList.lookup_insert_ne hqp).symm
      unfold unmap at hlookup
      split at hlookup
      · rw [frameOf, hlookup]
        exact Option.some_ne_none _
      · by_cases hqf : q = (w.pages f).pageId
        · rw [hqf, AList.lookup_erase] at hlookup
          cases hlookup
        · rw [AList.lookup_erase_ne hqf] at hlookup
          rw [frameOf, hlookup]
          exact Option.some_ne_none _
  · rw [hdisk]
    have hpages : ((w.unmap f b).install f p data).pages = Function.update w.pages f
        { data := data, pageId := p, pinCount := 1, isDirty := false } := by
      unfold unmap BufferPoolManager.install
      split <;> rfl
    rw [hpages, Function.update_apply]
    split
    · exact .inr (.inr hp)
    · exact .inl rfl

theorem pageId_update {page : Page} (h : page.pageId = (w.pages f).pageId) (g : FrameId) :
    (Function.update w.pages f page g).pageId = (w.pages g).pageId := by
  rw [Function.update_apply]
  split
  · rename_i hg
    rw [hg, h]
  · rfl

theorem samePages_setFrame {page : Page} (h : page.pageId = (w.pages f).pageId) :
    SamePages w (w.setFrame f page) := ⟨rfl, pageId_update h, rfl⟩

/-- A call that keeps to the file. -/
structure Confined (w w' : BufferPoolManager) : Prop where
  inFile : w'.InFile
  numPages : w'.disk.numPages = w.disk.numPages

theorem SamePages.confined (h : SamePages w w') (hw : w.InFile) : Confined w w' :=
  ⟨h.inFile hw, h.numPages⟩

theorem samePages_readPage (w : BufferPoolManager) (p : PageId) :
    SamePages w { w with disk := (w.disk.readPage p).2 } := by
  refine ⟨rfl, fun _ => rfl, ?_⟩
  show (w.disk.readPage p).2.numPages = w.disk.numPages
  rcases DiskManager.readPage_cases w.disk p with ⟨h, -⟩ | ⟨e, d, h, rfl | rfl, -⟩ <;> rw [h]
  all_goals rfl

theorem InFile.fetchMiss (hw : w.InFile) (p : PageId) : Confined w (w.fetchMiss p).2 ∧
    ((w.fetchMiss p).1 ≠ none → w.disk.Has p) := by
  have htake := samePages_takeFrame { w with bufferMisses := w.bufferMisses + 1 }
  have hcount : SamePages w { w with bufferMisses := w.bufferMisses + 1 } :=
    ⟨rfl, fun _ => rfl, rfl⟩
  unfold BufferPoolManager.fetchMiss
  rcases ht : takeFrame { w with bufferMisses := w.bufferMisses + 1 } with ⟨_ | ⟨f, b⟩, v⟩
  · rw [ht] at htake
    exact ⟨(hcount.trans htake).confined hw, fun h => absurd rfl h⟩
  rw [ht] at htake
  have hv : SamePages w v := hcount.trans htake
  have hread := samePages_readPage v p
  dsimp only
  rcases DiskManager.readPage_cases v.disk p with ⟨hr, hhas⟩ | ⟨e, d, hr, -⟩
  · have hp : w.disk.Has p := by
      rw [DiskManager.Has, ← hv.numPages]
      exact hhas
    rw [hr] at hread ⊢
    dsimp only at hread ⊢
    have hsame := hv.trans hread
    have hu : SamePages w { v with disk := v.disk.tick, diskReads := v.diskReads + 1 } :=
      ⟨hsame.table, hsame.pages, hsame.numPages⟩
    have hback := (hu.inFile hw).writeBack f b
    rcases he : BufferPoolManager.writeBack
      { v with disk := v.disk.tick, diskReads := v.diskReads + 1 } f b with ⟨_ | _, u⟩
    · rw [he] at hback
      exact ⟨((hu.trans hback).trans (samePages_giveBack u f b)).confined hw, fun _ => hp⟩
    · rw [he] at hback
      have hsame := hu.trans hback
      have hhas' : u.disk.Has p := by
        rw [DiskManager.Has, hsame.numPages]
        exact hp
      refine ⟨⟨(hsame.inFile hw).install hhas' f b _, ?_⟩, fun _ => hp⟩
      rw [disk_install]
      exact hsame.numPages
  · rw [hr] at hread ⊢
    exact ⟨((hv.trans hread).trans (samePages_giveBack _ f b)).confined hw, fun h => absurd rfl h⟩

/-- `FetchPage` finds pages of the file only. -/
theorem InFile.fetchPage (hw : w.InFile) (p : PageId) : Confined w (w.fetchPage p).2 ∧
    ((w.fetchPage p).1 ≠ none → w.disk.Has p) := by
  unfold BufferPoolManager.fetchPage
  split
  · exact ⟨⟨hw, rfl⟩, fun h => absurd rfl h⟩
  split
  · rename_i f hf
    exact ⟨SamePages.confined ⟨rfl, pageId_update rfl, rfl⟩ hw, fun _ => hw.table hf⟩
  · exact hw.fetchMiss p

theorem samePages_unpinPage (w : BufferPoolManager) (p : PageId) (dirty : Bool) :
    SamePages w (w.unpinPage p dirty).2 := by
  unfold BufferPoolManager.unpinPage
  split
  · exact .refl w
  rename_i f hf
  split
  · exact .refl w
  have hset : SamePages w (w.setFrame f { w.pages f with
      pinCount := (w.pages f).pinCount - 1
      isDirty := (w.pages f).isDirty || dirty }) := samePages_setFrame rfl
  dsimp only
  split
  · exact ⟨hset.table, hset.pages, hset.numPages⟩
  · exact hset

theorem samePages_flushEntry (hp : w.disk.Has p) (f : FrameId) :
    SamePages w (w.flushEntry p f) := by
  have hn := numPages_writePage (.inr hp) (w.pages f).data
  unfold BufferPoolManager.flushEntry
  split
  · rcases hd : w.disk.writePage p (w.pages f).data with ⟨_ | _, d⟩
    · rw [hd] at hn
      exact ⟨rfl, fun _ => rfl, hn⟩
    · rw [hd] at hn
      have hset : SamePages w (w.setFrame f { w.pages f with isDirty := false }) :=
        samePages_setFrame rfl
      exact ⟨hset.table, hset.pages, hn⟩
  · exact .refl w

theorem InFile.flushPage (hw : w.InFile) (p : PageId) : SamePages w (w.flushPage p).2 := by
  rw [flushPage_snd]
  cases hp : w.frameOf p with
  | none => exact .refl w
  | some f => exact samePages_flushEntry (hw.table hp) f

theorem InFile.flushAllPages (hw : w.InFile) : SamePages w w.flushAllPages :=
  flushAllPages_induction (SamePages w) (.refl w) fun v hv p f hp => by
    have hhas : v.disk.Has p := by
      rw [DiskManager.Has, hv.numPages]
      exact hw.table hp
    exact hv.trans (samePages_flushEntry hhas f)

theorem InFile.deletePage (hw : w.InFile) (p : PageId) : Confined w (w.deletePage p).2 := by
  have hn := DiskManager.deallocatePage_numPages w.disk p
  unfold BufferPoolManager.deletePage
  split
  · exact ⟨hw, rfl⟩
  split
  · rename_i f hf
    split
    · exact ⟨hw, rfl⟩
    refine ⟨hw.of (le_of_eq hn.symm) (fun {q g} hq => .inl ?_) fun g => ?_, hn⟩
    · have hq : (w.pageTable.erase p).lookup q = some g := hq
      by_cases hqp : q = p
      · rw [hqp, AList.lookup_erase] at hq
        cases hq
      · rw [AList.lookup_erase_ne hqp] at hq
        rw [frameOf, hq]
        exact Option.some_ne_none _
    · by_cases hg : g = f
      · refine .inr (.inl ?_)
        show (Function.update w.pages f (w.pages f).resetMemory g).pageId = invalidPageId
        rw [hg, Function.update_self]
        rfl
      · refine .inl ?_
        show (Function.update w.pages f (w.pages f).resetMemory g).pageId = _
        rw [Function.update_of_ne hg]
  · have hsame : SamePages w { w with disk := w.disk.deallocatePage p } := ⟨rfl, fun _ => rfl, hn⟩
    exact hsame.confined hw

theorem InFile.newPage (hw : w.InFile) :
    w.newPage.2.InFile ∧ w.disk.numPages ≤ w.newPage.2.disk.numPages := by
  have htake := samePages_takeFrame w
  unfold BufferPoolManager.newPage
  rcases ht : w.takeFrame with ⟨_ | ⟨f, b⟩, v⟩
  · rw [ht] at htake
    exact ⟨htake.inFile hw, le_of_eq htake.numPages.symm⟩
  rw [ht] at htake
  have hback := (htake.inFile hw).writeBack f b
  dsimp only
  rcases he : v.writeBack f b with ⟨_ | _, u⟩
  · rw [he] at hback
    have hsame := (htake.trans hback).trans (samePages_giveBack u f b)
    exact ⟨hsame.inFile hw, le_of_eq hsame.numPages.symm⟩
  rw [he] at hback
  have hsame := htake.trans hback
  have hu := hsame.inFile hw
  dsimp only
  rcases ha : u.disk.allocatePage with ⟨_ | p, d⟩
  · obtain ⟨rfl, -⟩ := DiskManager.allocatePage_none ha
    have htick : SamePages u { u with disk := u.disk.tick } := ⟨rfl, fun _ => rfl, rfl⟩
    have hsame := (hsame.trans htick).trans (samePages_giveBack _ f b)
    exact ⟨hsame.inFile hw, le_of_eq hsame.numPages.symm⟩
  · have halloc := DiskManager.allocatePage_some ha
    have hp := (halloc.allocated p).mpr (.inl rfl)
    have hgrown : InFile { u with disk := d, diskWrites := u.diskWrites + 1 } := by
      refine hu.of halloc.numPages_le (fun {q g} hq => .inl ?_) fun g => .inl rfl
      have hq : u.frameOf q = some g := hq
      rw [hq]
      nofun
    refine ⟨hgrown.install ⟨hp.1, hp.2.1⟩ f b _, ?_⟩
    dsimp only
    rw [disk_install, ← hsame.numPages]
    exact halloc.numPages_le

/-! ## Programs -/

/-- What is known of the pool while a program runs: the pages `seen` belong to the file, and it has
`n` pages unless a new one was asked for. -/
structure Stands (n : Nat) (w : BufferPoolManager) (seen : List PageId) (grown : Bool) : Prop where
  inFile : w.InFile
  seen : ∀ q ∈ seen, w.disk.Has q
  numPages : grown = false → w.disk.numPages = n

theorem Confined.stands {n : Nat} {seen : List PageId} {grown : Bool} (h : Confined w w')
    (hs : Stands n w seen grown) : Stands n w' seen grown where
  inFile := h.1
  seen q hq := by
    rw [DiskManager.Has, h.2]
    exact hs.seen q hq
  numPages hg := h.2.trans (hs.numPages hg)

/-- A write to a page in memory. -/
theorem samePages_put (w : BufferPoolManager) (f : FrameId) (d : PageData) (mark : Bool) :
    SamePages w (if mark then (w.writeBytes f d).setDirty f else w.writeBytes f d) := by
  have hwrite : SamePages w (w.writeBytes f d) := samePages_setFrame rfl
  split
  · have hmark : SamePages (w.writeBytes f d) ((w.writeBytes f d).setDirty f) :=
      samePages_setFrame rfl
    exact hwrite.trans hmark
  · exact hwrite

end BufferPoolManager

variable {w w' : BufferPoolManager} {α : Type}

/-- The pool as a world in which programs run. -/
def pool : Interpreter PageId FrameId PageData BufferPoolManager where
  run := Program.run
  run_diverge _ := rfl
  run_pure _ _ := rfl
  run_bind := run_bind

/-- A program that ends in every case ends on a pool, and has fetched pages of the file only. -/
theorem run_ends {P : List PageId → Bool → α → Prop} {n : Nat} {x : Program α} {seen : List PageId}
    {grown : Bool} (hx : x.Ends P seen grown) (hs : Stands n w seen grown) :
    ∃ a w' seen' grown', x.run w = some (a, w') ∧ P seen' grown' a ∧ Stands n w' seen' grown' := by
  induction x generalizing w seen grown with
  | ret a => exact ⟨a, w, seen, grown, rfl, hx, hs⟩
  | diverge => exact hx.elim
  | fetch p k ih =>
    obtain ⟨hv, hhas⟩ := hs.inFile.fetchPage p
    rw [Program.run]
    rcases he : w.fetchPage p with ⟨_ | f, v⟩
    · rw [he] at hv
      exact ih none hx.1 (hv.stands hs)
    · rw [he] at hv hhas
      have hs' := hv.stands hs
      apply ih _ (hx.2 f (v.pages f).data)
      refine ⟨hs'.inFile, fun q hq => ?_, hs'.numPages⟩
      rcases List.mem_cons.mp hq with rfl | hq
      · show 0 ≤ q.toInt ∧ q.toInt < v.disk.numPages
        rw [hv.2]
        exact hhas (Option.some_ne_none _)
      · exact hs'.seen q hq
  | put f d mark k ih =>
    have hsame := samePages_put w f d mark
    exact ih hx ((hsame.confined hs.inFile).stands hs)
  | unpin p dirty k ih =>
    have hsame := samePages_unpinPage w p dirty
    exact ih _ (hx _) ((hsame.confined hs.inFile).stands hs)
  | alloc k ih =>
    obtain ⟨hv, hn⟩ := hs.inFile.newPage
    have hs' : Stands n w.newPage.2 seen true := by
      refine ⟨hv, fun q hq => ?_, fun he => by cases he⟩
      obtain ⟨h0, hlt⟩ := hs.seen q hq
      exact ⟨h0, lt_of_lt_of_le hlt (Int.ofNat_le.mpr hn)⟩
    rw [Program.run]
    rcases he : w.newPage with ⟨_ | ⟨p, f⟩, v⟩
    · rw [he] at hs'
      exact ih none (hx none) hs'
    · rw [he] at hs'
      exact ih _ (hx _) hs'
  | free p k ih => exact ih _ (hx _) ((hs.inFile.deletePage p).stands hs)
  | flush p k ih => exact ih _ (hx _) (((hs.inFile.flushPage p).confined hs.inFile).stands hs)
  | flushAll k ih => exact ih hx ((hs.inFile.flushAllPages.confined hs.inFile).stands hs)

/-! ## Walks over the pages of the file -/

section

variable {σ ρ : Type} {l : LinkWalk PageId FrameId PageData σ ρ}

/-- The ids of a file with `n` pages. -/
def filePages (n : Nat) : Finset PageId := (Finset.range n).image Int32.ofNat

theorem card_filePages_le (n : Nat) : (filePages n).card ≤ n :=
  le_of_le_of_eq Finset.card_image_le (Finset.card_range n)

theorem mem_filePages {p : PageId} (hp : w.disk.Has p) : p ∈ filePages w.disk.numPages := by
  obtain ⟨h0, hlt⟩ := hp
  have hle := w.disk.numPages_le
  refine Finset.mem_image.mpr ⟨p.toInt.toNat, Finset.mem_range.mpr (by omega), ?_⟩
  apply Int32.toInt.inj
  rw [DiskManager.toInt_ofNat_of_le (by omega)]
  omega

/-- A pool with pages of a file of `n` pages. -/
def OfSize (n : Nat) (w : BufferPoolManager) : Prop := w.InFile ∧ w.disk.numPages = n

theorem staysOn (hl : l.Proper) (n : Nat) : l.StaysOn pool (OfSize n) (filePages n) := by
  rintro p s v ⟨hv, rfl⟩
  obtain ⟨r, v', seen, grown, hrun, hgo, hs⟩ := run_ends (hl p s) ⟨hv, nofun, fun _ => rfl⟩
  refine ⟨r, v', hrun, ?_⟩
  rintro next s' rfl
  have hn := hs.numPages hgo.2
  refine ⟨?_, hs.inFile, hn⟩
  rw [← hn]
  exact mem_filePages (hs.seen p hgo.1)

/-- The loops have more rounds than a file has pages. -/
theorem numPages_lt_chainFuel (w : BufferPoolManager) : w.disk.numPages < chainFuel := by
  have hle := w.disk.numPages_le
  unfold maxPages at hle
  unfold chainFuel
  omega

/-- A walk makes at most one round for each page of the file, and one more. -/
theorem walk_ends (hl : l.Proper) (current : PageId) (s : σ) {visited : List PageId}
    (hvisited : LinkWalk.Tracks (OfSize w.disk.numPages) (filePages w.disk.numPages)
      ⟨visited, current, s, w⟩) {fuel : Nat} (hfuel : w.disk.numPages < fuel) :
    ∃ result w', Program.run (l.loop fuel visited current s) w = some (result, w') :=
  LinkWalk.loop_ends (staysOn hl _) hvisited
    (lt_of_lt_of_le (lt_of_le_of_lt (card_filePages_le _) hfuel) (Nat.le_add_right _ _))

end

/-- Every program leaves pages of the file in the pool. -/
theorem run_inFile {x : Program α} {a : α} (hw : w.InFile) (hrun : x.run w = some (a, w')) :
    w'.InFile := by
  induction x generalizing w with
  | ret b =>
    cases hrun
    exact hw
  | diverge => cases hrun
  | fetch p k ih =>
    obtain ⟨hv, -⟩ := hw.fetchPage p
    rw [Program.run] at hrun
    rcases he : w.fetchPage p with ⟨_ | f, v⟩
    · rw [he] at hv hrun
      exact ih _ hv.1 hrun
    · rw [he] at hv hrun
      exact ih _ hv.1 hrun
  | put f d mark k ih =>
    have hsame := samePages_put w f d mark
    exact ih (hsame.inFile hw) hrun
  | unpin p dirty k ih => exact ih _ ((samePages_unpinPage w p dirty).inFile hw) hrun
  | alloc k ih =>
    obtain ⟨hv, -⟩ := hw.newPage
    rw [Program.run] at hrun
    rcases he : w.newPage with ⟨_ | ⟨p, f⟩, v⟩
    · rw [he] at hv hrun
      exact ih _ hv hrun
    · rw [he] at hv hrun
      exact ih _ hv hrun
  | free p k ih => exact ih _ (hw.deletePage p).1 hrun
  | flush p k ih => exact ih _ ((hw.flushPage p).inFile hw) hrun
  | flushAll k ih => exact ih (hw.flushAllPages.inFile hw) hrun

/-- A pool on any file, after any programs. -/
inductive Opened : BufferPoolManager → Prop where
  | new (poolSize : Nat) (disk : DiskManager) : Opened (BufferPoolManager.new poolSize disk)
  | run {α : Type} {x : Program α} {a : α} {w w' : BufferPoolManager} : Opened w →
      x.run w = some (a, w') → Opened w'

theorem Opened.inFile (h : Opened w) : w.InFile := by
  induction h with
  | new n d => exact new_inFile n d
  | run _ hrun ih => exact run_inFile ih hrun

end MiniDbms
