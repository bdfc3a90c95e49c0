import MiniDbms.Buffer.PoolImages
import MiniDbms.Storage.HeapFileWalks
import MiniDbms.Storage.SlottedPageContents

/-!
# Pages that a heap file does not recognise

`InsertRecord` initialises every page of its chain that is not an initialised slotted page of its
own id, even one that is not empty (`Foreign`): its bytes are lost and the chain ends there. The
read-only walks report such a page. So a call spares the foreign pages it comes to exactly if it
cannot fetch any of them (`insert_spares_foreign_iff`).
-/

namespace MiniDbms

open Lib PagedProgram Program LinkWalk BufferPoolManager

namespace SlottedPage

variable {page page' : Page} {record : Bytes} {e : Status}

/-- A page that is neither empty nor an initialised slotted page of its own id. -/
def Foreign (p : PageId) (d : PageData) : Prop :=
  d ≠ Image.zero ∧ isInitialized (Page.view p d) = false

/-- An insertion that fails leaves the page alone. -/
theorem insertRecord_error (h : insertRecord page record = (.error e, page')) : page' = page := by
  unfold insertRecord at h
  split at h
  · cases h
    rfl
  split at h
  · cases h
    rfl
  split at h
  · cases h
    rfl
  dsimp only at h
  by_cases hspace : getFreeSpace page < record.length +
      if (findFreeSlot page.data (getSlotCount page)).isSome then 0 else 4
  · rw [if_pos hspace] at h
    cases h
    rfl
  · rw [if_neg hspace] at h
    cases h

/-- A page that `Init` has just made. -/
structure Fresh (page : Page) : Prop where
  id : page.pageId ≠ invalidPageId
  stores : Stores page.data page.pageId invalidPageId []
  dirty : page.isDirty = true

theorem init_fresh (hid : page.pageId ≠ invalidPageId) :
    ∃ page', init page = (.ok (), page') ∧ page'.pageId = page.pageId ∧ Fresh page' := by
  obtain ⟨d, hinit, hstores⟩ := init_stores page hid
  exact ⟨_, hinit, rfl, hid, hstores, rfl⟩

theorem Fresh.isInitialized (h : Fresh page) : isInitialized page = true :=
  h.stores.isInitialized h.id

theorem Fresh.getNextPageId (h : Fresh page) : getNextPageId page = invalidPageId :=
  h.stores.getNextPageId h.id

/-- A record has room in every fresh page or in none. -/
theorem Fresh.insertRecord_error (h : Fresh page) (h' : Fresh page') (hne : record ≠ [])
    (herror : (insertRecord page record).1 = .error e) :
    ∃ e', insertRecord page' record = (.error e', page') := by
  by_cases hroom : HasRoom [] record.length
  · obtain ⟨d, hok, -⟩ := insertRecord_room page h.stores h.id hne hroom
    rw [hok] at herror
    cases herror
  by_cases hle : record.length ≤ 4096
  · exact ⟨_, insertRecord_full page' h'.stores h'.id hne hle hroom⟩
  · refine ⟨.invalidArgument "Invalid record size", ?_⟩
    unfold insertRecord
    rw [h'.isInitialized, if_neg (by decide), if_pos]
    rw [pageSize_eq]
    omega

end SlottedPage

namespace HeapFile

variable {w v u w' : BufferPoolManager} {p : PageId} {f : FrameId} {record : Bytes} {page : Page}
  {e : Status} {r : Except Status RecordID}

/-! ## A round of `InsertRecord` -/

/-- A round on a page that cannot be fetched. -/
theorem insertRound_none (h : v.fetchPage p = (none, w')) : (insertRound record p).run v =
    some (.stop (.error (.ioError "Could not fetch HeapFile page")), w') := by
  unfold insertRound
  rw [run_fetchPage_none v _ h]
  rfl

/-- A record that has no room in a fresh page is not appended either. -/
theorem appendNewPage_full (hv : v.Coherent) (hpage : SlottedPage.Fresh page) (hne : record ≠ [])
    (herror : (SlottedPage.insertRecord page record).1 = .error e)
    (hrun : (appendNewPage p record).run v = some (r, w')) :
    (∃ e', r = .error e') ∧ ∀ q, w'.image q = v.image q ∨ w'.image q = Image.zero := by
  unfold appendNewPage at hrun
  rcases newPage_cases hv.inv with ⟨n, f, d, u, he, hl, hs, ha, -⟩ | ⟨u, he, hk, -⟩
  · rw [run_newPage_some v _ he] at hrun
    have hn : n ≠ invalidPageId := by
      intro h
      have := ha.pos
      rw [h] at this
      exact absurd this (by decide)
    have hid : (Page.view n (u.pages f).data).pageId ≠ invalidPageId := hn
    obtain ⟨page', hinit, hid, hfresh⟩ := SlottedPage.init_fresh hid
    dsimp only at hrun
    rw [hinit] at hrun
    obtain ⟨e', hfull⟩ := hpage.insertRecord_error hfresh hne herror
    dsimp only at hrun
    rw [hfull] at hrun
    -- the page is written twice, unpinned and deleted
    obtain ⟨v₁, he₁, hdisk₁, hframe₁, hpin₁, himage₁⟩ := put_frames u f page'.data page'.isDirty
    obtain ⟨v₂, he₂, hdisk₂, hframe₂, hpin₂, himage₂⟩ := put_frames v₁ f page'.data page'.isDirty
    have hfinal : (Except.error e', ((v₂.unpinPage n false).2.deletePage n).2) = (r, w') := by
      rw [← he₂, ← he₁]
      exact Option.some.inj hrun
    cases hfinal
    refine ⟨⟨e', rfl⟩, fun q => ?_⟩
    have hother : ∀ x, x ≠ n → u.frameOf x ≠ some f := by
      intro x hx
      rw [hl.frameOf, if_neg hx]
      split
      · exact nofun
      · assumption
    have hzero : v₂.disk.pages n = Image.zero := by
      rw [hdisk₂, hdisk₁, ha.pages, Function.update_self]
    have hpin : (v₂.pages f).pinCount = 1 := by
      rw [hpin₂, hpin₁, hl.pages, Function.update_self]
    have hdrop := image_drop_new (by rw [hframe₂, hframe₁, hl.frameOf, if_pos rfl]) ha.pos hpin
      (fun x hx => by rw [hframe₂, hframe₁]; exact hother x hx) hzero q
    by_cases hq : q = n
    · right
      rw [hdrop, if_pos hq]
    · left
      rw [hdrop, if_neg hq, himage₂ q (by rw [hframe₁]; exact hother q hq), himage₁ q (hother q hq),
        hv.image_newPage hl hs ha hq]
  · rw [run_newPage_none v _ he] at hrun
    cases hrun
    exact ⟨⟨_, rfl⟩, fun q => .inl (hk.keeps hv q).image⟩

/-- The page that a round works on: the one that is there, or else a fresh one. -/
theorem initIfNeeded_cases (hid : page.pageId ≠ invalidPageId) :
    (SlottedPage.isInitialized page = true ∧ initIfNeeded page = (.ok (), page)) ∨
    (SlottedPage.isInitialized page = false ∧ ∃ page', initIfNeeded page = (.ok (), page') ∧
      page'.pageId = page.pageId ∧ SlottedPage.Fresh page') := by
  unfold initIfNeeded
  cases hinit : SlottedPage.isInitialized page with
  | true => exact .inl ⟨rfl, if_pos rfl⟩
  | false =>
    rw [if_neg Bool.false_ne_true]
    exact .inr ⟨rfl, SlottedPage.init_fresh hid⟩

section

variable {page' : Page} {slot : SlotId}

/-- A round that finds room for the record. -/
theorem insertRound_ok (hv : v.Coherent) (hfetch : v.fetchPage p = (some f, u))
    (hpage : initIfNeeded (Page.view p (u.pages f).data) = (.ok (), page))
    (hinsert : SlottedPage.insertRecord page record = (.ok slot, page')) :
    ∃ w', (insertRound record p).run v = some (.stop (.ok ⟨p, slot⟩), w') := by
  obtain ⟨hu, -, hf, -, hpin⟩ := hv.fetched hfetch
  obtain ⟨x, hunpin, -⟩ := hu.overwrite hf hpin page'.data page'.isDirty
  refine ⟨x, ?_⟩
  unfold insertRound
  rw [run_fetchPage_some v _ hfetch]
  dsimp only
  rw [hpage]
  dsimp only
  rw [hinsert, writePage, run_putPage, run_unpinPage, hunpin]
  rfl

/-- A round that finds no room for the record. -/
theorem insertRound_error (hfetch : v.fetchPage p = (some f, u))
    (hpage : initIfNeeded (Page.view p (u.pages f).data) = (.ok (), page))
    (hinsert : SlottedPage.insertRecord page record = (.error e, page)) {x : BufferPoolManager}
    (hunpin : (if page.isDirty then (u.writeBytes f page.data).setDirty f
      else u.writeBytes f page.data).unpinPage p false = (true, x)) :
    (insertRound record p).run v =
      if e.code ≠ .outOfMemory then some (.stop (.error e), x)
      else if SlottedPage.getNextPageId page ≠ invalidPageId then
        some (.go (SlottedPage.getNextPageId page) (), x)
      else ((appendNewPage p record).run x).map fun a => (.stop a.1, a.2) := by
  unfold insertRound
  rw [run_fetchPage_some v _ hfetch]
  dsimp only
  rw [hpage]
  dsimp only
  rw [hinsert, writePage, run_putPage, run_unpinPage, hunpin]
  dsimp only
  split
  · rfl
  split
  · rfl
  · rw [run_bind]
    cases (appendNewPage p record).run x <;> rfl

/-- After such a round the walk goes on only along a link. -/
theorem insertRound_error_go (hfetch : v.fetchPage p = (some f, u))
    (hpage : initIfNeeded (Page.view p (u.pages f).data) = (.ok (), page))
    (hinsert : SlottedPage.insertRecord page record = (.error e, page)) {x : BufferPoolManager}
    (hunpin : (if page.isDirty then (u.writeBytes f page.data).setDirty f
      else u.writeBytes f page.data).unpinPage p false = (true, x)) {next : PageId} {s : Unit}
    (hrun : (insertRound record p).run v = some (.go next s, w')) :
    w' = x ∧ SlottedPage.getNextPageId page ≠ invalidPageId := by
  rw [insertRound_error hfetch hpage hinsert hunpin] at hrun
  split at hrun
  · cases hrun
  split at hrun
  · rename_i hnext
    cases hrun
    exact ⟨rfl, hnext⟩
  · cases happend : (appendNewPage p record).run x with
    | none =>
      rw [happend] at hrun
      cases hrun
    | some a =>
      rw [happend] at hrun
      cases hrun

end

/-- A round that goes on leaves the pages as they were. -/
theorem insertRound_go (hv : v.Coherent) (hid : p ≠ invalidPageId) {next : PageId} {s : Unit}
    (hrun : (insertRound record p).run v = some (.go next s, w')) :
    w'.Coherent ∧ ∀ q, w'.image q = v.image q := by
  rcases hfetch : v.fetchPage p with ⟨_ | f, u⟩
  · rw [insertRound_none hfetch] at hrun
    cases hrun
  obtain ⟨hu, himage, hf, hdata, hpin⟩ := hv.fetched hfetch
  obtain ⟨page, hpage, hcase⟩ : ∃ page, initIfNeeded (Page.view p (u.pages f).data) =
      (.ok (), page) ∧ (page = Page.view p (u.pages f).data ∨ SlottedPage.Fresh page) := by
    have hview : (Page.view p (u.pages f).data).pageId ≠ invalidPageId := hid
    rcases initIfNeeded_cases hview with ⟨-, hpage⟩ | ⟨-, page, hpage, -, hfresh⟩
    · exact ⟨_, hpage, .inl rfl⟩
    · exact ⟨page, hpage, .inr hfresh⟩
  rcases hinsert : SlottedPage.insertRecord page record with ⟨e | slot, page'⟩
  · cases SlottedPage.insertRecord_error hinsert
    rcases hcase with rfl | hfresh
    · -- the page was initialised, and is written back as it was
      have hunpin : ∃ x, u.unpinPage p false = (true, x) := by
        rcases unpinPage_cases hu.inv p false with ⟨g, x, he, -⟩ | ⟨-, hzero⟩
        · exact ⟨x, he⟩
        · exact absurd (hzero f hf) (Nat.pos_iff_ne_zero.mp hpin)
      obtain ⟨x, hx⟩ := hunpin
      have hkeeps : ∀ q, Keeps q u x := by
        intro q
        have hq := hu.unpinPage p false q
        rwa [hx] at hq
      have hsame : (u.writeBytes f (u.pages f).data).unpinPage p false = (true, x) := by
        rw [writeBytes_same, hx]
      obtain ⟨rfl, -⟩ := insertRound_error_go hfetch hpage hinsert hsame hrun
      exact ⟨(hkeeps p).coherent, fun q => (hkeeps q).image.trans (himage q)⟩
    · have hmark : (page.isDirty || false) = true := by rw [hfresh.dirty, Bool.or_false]
      obtain ⟨x, hunpin, -⟩ := hu.rewrite hf hpin page.data hmark
      exact absurd hfresh.getNextPageId (insertRound_error_go hfetch hpage hinsert hunpin hrun).2
  · obtain ⟨x, hround⟩ := insertRound_ok hv hfetch hpage hinsert
    rw [hround] at hrun
    cases hrun

/-- A round on a page that it does not recognise stops the walk, and it has inserted the record or
lost the bytes of the page. -/
theorem insertRound_foreign (hv : v.Coherent) (hid : p ≠ invalidPageId) (hne : record ≠ [])
    (hforeign : SlottedPage.Foreign p (v.image p)) (hfetch : v.fetchPage p = (some f, u))
    {x : Round PageId Unit (Except Status RecordID)}
    (hrun : (insertRound record p).run v = some (x, w')) :
    ∃ r, x = .stop r ∧ ((∃ rid, r = .ok rid) ∨ w'.image p ≠ v.image p) := by
  obtain ⟨hu, -, hf, hdata, hpin⟩ := hv.fetched hfetch
  obtain ⟨page, hpage, hpid, hfresh⟩ : ∃ page, initIfNeeded (Page.view p (u.pages f).data) =
      (.ok (), page) ∧ page.pageId = p ∧ SlottedPage.Fresh page := by
    have hview : (Page.view p (u.pages f).data).pageId ≠ invalidPageId := hid
    rcases initIfNeeded_cases hview with ⟨hinit, -⟩ | ⟨-, page, hpage, hpid, hfresh⟩
    · rw [hdata, hforeign.2] at hinit
      cases hinit
    · exact ⟨page, hpage, hpid, hfresh⟩
  rcases hinsert : SlottedPage.insertRecord page record with ⟨e | slot, page'⟩
  · cases SlottedPage.insertRecord_error hinsert
    have hmark : (page.isDirty || false) = true := by rw [hfresh.dirty, Bool.or_false]
    obtain ⟨y, hunpin, hy, hyf, hydata, -⟩ := hu.rewrite hf hpin page.data hmark
    have himage : y.image p = page.data := (image_of_frameOf hyf).trans hydata
    have hlost : page.data ≠ v.image p := by
      intro heq
      have hinit := hfresh.isInitialized
      rw [show SlottedPage.isInitialized page =
        SlottedPage.isInitialized (Page.view p (v.image p)) by
          unfold SlottedPage.isInitialized SlottedPage.getSlotCount SlottedPage.freeSpacePointer
          rw [heq, hpid, Page.data_view, Page.pageId_view], hforeign.2] at hinit
      cases hinit
    rw [insertRound_error hfetch hpage hinsert hunpin] at hrun
    by_cases hcode : e.code ≠ .outOfMemory
    · rw [if_pos hcode] at hrun
      cases hrun
      refine ⟨_, rfl, .inr ?_⟩
      rw [himage]
      exact hlost
    rw [if_neg hcode, if_neg (fun h => h hfresh.getNextPageId)] at hrun
    cases happend : (appendNewPage p record).run y with
    | none =>
      rw [happend] at hrun
      cases hrun
    | some a =>
      rw [happend] at hrun
      cases hrun
      refine ⟨_, rfl, .inr ?_⟩
      obtain ⟨-, hfinal⟩ := appendNewPage_full hy hfresh hne (by rw [hinsert]) happend
      rcases hfinal p with h | h
      · rw [h, himage]
        exact hlost
      · rw [h]
        exact hforeign.1.symm
  · obtain ⟨y, hround⟩ := insertRound_ok hv hfetch hpage hinsert
    rw [hround] at hrun
    cases hrun
    exact ⟨_, rfl, .inl ⟨_, rfl⟩⟩

/-! ## The whole call -/

/-- The walk of the call comes to the page `p`, where it has not been before, with the pool `v`. -/
def ComesTo (first : PageId) (record : Bytes) (w : BufferPoolManager) (p : PageId)
    (v : BufferPoolManager) : Prop :=
  record ≠ [] ∧ p ≠ invalidPageId ∧ ∃ visited, p ∉ visited ∧
    (insertWalk record).Enters pool ⟨[], first, (), w⟩ ⟨visited, p, (), v⟩

/-- Until the walk stops the pages are as they were. -/
theorem enters_image {a b : Position PageId Unit BufferPoolManager}
    (h : (insertWalk record).Enters pool a b) (ha : a.world.Coherent) :
    b.world.Coherent ∧ ∀ q, b.world.image q = a.world.image q := by
  induction h with
  | refl => exact ⟨ha, fun _ => rfl⟩
  | go hcurrent _ hround _ ih =>
    obtain ⟨hv, himage⟩ := insertRound_go ha hcurrent hround
    obtain ⟨hb, hrest⟩ := ih hv
    exact ⟨hb, fun q => (hrest q).trans (himage q)⟩

/-- What becomes of a foreign page depends on whether it can be fetched. -/
theorem spares_iff (hw : w.Coherent) {fuel : Nat} {first : PageId}
    (hrun : Program.run ((insertWalk record).loop fuel [] first ()) w = some (r, w'))
    (hcomes : ComesTo first record w p v) (hforeign : SlottedPage.Foreign p (w.image p)) :
    ((∃ e, r = .error e) ∧ w'.image p = w.image p) ↔ (v.fetchPage p).1 = none := by
  obtain ⟨hne, hid, visited, hnew, henters⟩ := hcomes
  obtain ⟨hv, himage⟩ := enters_image henters hw
  have himage : v.image p = w.image p := himage p
  obtain ⟨x, u, hround, hstop⟩ := loop_round henters hid hnew hrun
  have hround : (insertRound record p).run v = some (x, u) := hround
  rcases hfetch : v.fetchPage p with ⟨_ | f, u'⟩
  · rw [insertRound_none hfetch] at hround
    cases hround
    obtain ⟨rfl, rfl⟩ := hstop _ rfl
    have hkeeps := (hv.fetchPage p p).1.image
    rw [hfetch, himage] at hkeeps
    exact iff_of_true ⟨⟨_, rfl⟩, hkeeps⟩ rfl
  · obtain ⟨stopped, rfl, hbad⟩ :=
      insertRound_foreign hv hid hne (by rw [himage]; exact hforeign) hfetch hround
    obtain ⟨rfl, rfl⟩ := hstop _ rfl
    refine iff_of_false (fun ⟨⟨e, he⟩, hkept⟩ => ?_) nofun
    rcases hbad with ⟨rid, hrid⟩ | hlost
    · rw [hrid] at he
      cases he
    · exact hlost (hkept.trans himage.symm)

/-- A call of `InsertRecord` ends, and each foreign page that it comes to keeps its bytes while the
call fails, exactly if none of these pages can be fetched. -/
theorem insert_spares_foreign_iff (hw : w.Coherent) (hin : w.InFile) (first : PageId)
    (record : Bytes) : ∃ r w', (insertRecord first record).run w = some (r, w') ∧
      ((∀ p v, ComesTo first record w p v → SlottedPage.Foreign p (w.image p) →
          (∃ e, r = .error e) ∧ w'.image p = w.image p) ↔
        ∀ p v, ComesTo first record w p v → SlottedPage.Foreign p (w.image p) →
          (v.fetchPage p).1 = none) := by
  rw [insertRecord]
  by_cases hne : record = []
  · rw [if_pos hne]
    refine ⟨_, w, rfl, ?_⟩
    have hnever : ∀ p v, ¬ ComesTo first record w p v := fun p v hcomes => hcomes.1 hne
    exact iff_of_true (fun p v h => absurd h (hnever p v)) fun p v h => absurd h (hnever p v)
  · rw [if_neg hne, insertLoop_eq record chainFuel [] first ()]
    obtain ⟨r, w', hrun⟩ := walk_ends (proper_insertWalk record) first ()
      (Tracks.start ⟨hin, rfl⟩ first ()) (numPages_lt_chainFuel w)
    refine ⟨r, w', hrun, ?_⟩
    constructor <;> intro h p v hcomes hforeign
    · exact (spares_iff hw hrun hcomes hforeign).mp (h p v hcomes hforeign)
    · exact (spares_iff hw hrun hcomes hforeign).mpr (h p v hcomes hforeign)

/-- The page 1 of a heap file with the record `"A"`, but with a free space pointer of 0. -/
def damagedPage : PageData :=
  let d := (PageData.writePageId Image.zero 0 1).writeNat 4 2 1
  SlottedPage.writeSlot ((PageData.writePageId d 8 invalidPageId).splice 4095 [65]) 0 4095 1

/-- A file with the damaged page. -/
def damagedHeap : Option DiskManager :=
  DiskManager.openFile (fun p => if p = 1 then damagedPage else Image.zero) 2
    (by decide) DiskFaults.none

/-- The file of the manager, when no page of it can be read any more. -/
def unreadable (d : DiskManager) : DiskManager :=
  { d with faults := { DiskFaults.none with read := fun _ => true } }

/-- The damaged page is foreign; it is fetched, unless it cannot be read. -/
theorem fetch_damaged : ∃ d, damagedHeap = some d ∧ SlottedPage.Foreign 1 (d.pages 1) ∧
    ((new 1 d).fetchPage 1).1 ≠ none ∧ ((new 1 (unreadable d)).fetchPage 1).1 = none := by
  have heval : damagedHeap.map (fun d => ((d.pages 1).readNat 0 4,
      SlottedPage.isInitialized (Page.view 1 (d.pages 1)), ((new 1 d).fetchPage 1).1.isSome,
      ((new 1 (unreadable d)).fetchPage 1).1)) = some (1, false, true, none) := by
    decide +kernel
  obtain ⟨d, hd, heval⟩ := Option.map_eq_some_iff.mp heval
  simp only [Prod.mk.injEq] at heval
  obtain ⟨hid, hinit, hfetch, hfail⟩ := heval
  refine ⟨d, hd, ⟨fun hzero => ?_, hinit⟩, fun hnone => ?_, hfail⟩
  · rw [hzero] at hid
    exact absurd hid (by decide)
  · rw [hnone] at hfetch
    cases hfetch

/-- The walk comes to its first page. -/
theorem comesTo_first (hne : record ≠ []) (hid : p ≠ invalidPageId) : ComesTo p record w p w :=
  ⟨hne, hid, [], List.not_mem_nil, .refl _⟩

/-- The call does not spare the damaged page, but does so when it cannot be read. -/
theorem insert_spares_foreign_damaged : ∃ d r w' r' v', damagedHeap = some d ∧
    ComesTo 1 [66] (new 1 d) 1 (new 1 d) ∧ SlottedPage.Foreign 1 ((new 1 d).image 1) ∧
    (insertRecord 1 [66]).run (new 1 d) = some (r, w') ∧
    (insertRecord 1 [66]).run (new 1 (unreadable d)) = some (r', v') ∧
    (¬ ∀ p v, ComesTo 1 [66] (new 1 d) p v → SlottedPage.Foreign p ((new 1 d).image p) →
      (∃ e, r = .error e) ∧ w'.image p = (new 1 d).image p) ∧
    (∃ e, r' = .error e) ∧ v'.image 1 = (new 1 d).image 1 := by
  obtain ⟨d, hd, hforeign, hfetch, hfail⟩ := fetch_damaged
  have hcomes : ∀ w : BufferPoolManager, ComesTo 1 [66] w 1 w := fun _ =>
    comesTo_first (List.cons_ne_nil _ _) (by decide)
  obtain ⟨r, w', hrun, hiff⟩ :=
    insert_spares_foreign_iff (new_coherent Nat.one_pos d) (new_inFile 1 d) 1 [66]
  obtain ⟨r', v', hrun', hiff'⟩ := insert_spares_foreign_iff
    (new_coherent Nat.one_pos (unreadable d)) (new_inFile 1 (unreadable d)) 1 [66]
  have honly : ∀ p v, ComesTo 1 [66] (new 1 (unreadable d)) p v → (v.fetchPage p).1 = none := by
    intro p v h
    obtain ⟨-, -, visited, -, henters⟩ := h
    cases henters with
    | refl => exact hfail
    | go _ _ hround =>
      have hstops : (insertRound [66] 1).run (new 1 (unreadable d)) = _ :=
        insertRound_none (Prod.ext hfail rfl)
      cases hround.symm.trans hstops
  refine ⟨d, r, w', r', v', hd, hcomes _, hforeign, hrun, hrun', fun hspared => ?_, ?_⟩
  · exact hfetch (hiff.mp hspared 1 _ (hcomes _) hforeign)
  · exact hiff'.mpr (fun p v h _ => honly p v h) 1 _ (hcomes _) hforeign

/-- An insertion into the damaged page. -/
theorem insert_damaged : damagedHeap.map (fun d =>
    (SlottedPage.isInitialized (Page.view 1 ((new 1 d).image 1)), ((new 1 d).image 1).readNat 0 4,
      ((insertRecord 1 [66]).run (new 1 d)).map fun r =>
        (r.1, SlottedPage.isInitialized (Page.view 1 (r.2.image 1))))) =
    some (false, 1, some (.ok ⟨1, 0⟩, true)) := by
  decide +kernel

/-- The read-only walk reports the damaged page. -/
theorem getFirstRecord_damaged :
    damagedHeap.bind (fun d => ((getFirstRecord 1).run (new 1 d)).map Prod.fst) =
      some (.error (.ioError "HeapFile contains an uninitialized page")) := by
  decide +kernel

/-- `InsertRecord` reports success and has erased the page. -/
theorem insert_erases_damaged : ∃ d w', damagedHeap = some d ∧
    ComesTo 1 [66] (new 1 d) 1 (new 1 d) ∧ SlottedPage.Foreign 1 ((new 1 d).image 1) ∧
      (insertRecord 1 [66]).run (new 1 d) = some (.ok ⟨1, 0⟩, w') ∧
      w'.image 1 ≠ (new 1 d).image 1 ∧ ∃ v, (getFirstRecord 1).run (new 1 d) =
        some (.error (.ioError "HeapFile contains an uninitialized page"), v) := by
  have hinsert := insert_damaged
  have hget := getFirstRecord_damaged
  cases hd : damagedHeap with
  | none =>
    rw [hd] at hinsert
    cases hinsert
  | some d =>
    rw [hd] at hinsert hget
    simp only [Option.map_some, Option.some.injEq, Prod.mk.injEq, Option.bind_some,
      Option.map_eq_some_iff, Prod.exists] at hinsert hget
    obtain ⟨hinit, hid, r, w', hrun, hr, hfresh⟩ := hinsert
    obtain ⟨r', v, hget, hr'⟩ := hget
    refine ⟨d, w', rfl, ⟨nofun, by decide, [], nofun, .refl _⟩, ⟨fun hzero => ?_, hinit⟩, ?_,
      fun hsame => ?_, v, ?_⟩
    · rw [hzero] at hid
      exact absurd hid (by decide)
    · rw [hrun, hr]
    · rw [hsame, hinit] at hfresh
      cases hfresh
    · rw [hget, ← hr']

end HeapFile

end MiniDbms
