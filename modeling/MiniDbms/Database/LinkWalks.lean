import MiniDbms.Storage.HeapFileWalks
import MiniDbms.Index.HashIndexWalks

/-!
# Every walk along links ends

The eight public functions that follow links stored in pages: whatever the file holds, each call
ends, visits each page of the file at most once (`link_walk_ends`), and answers `IO_ERROR` if its
walk gets to a page that it has visited.
-/

namespace MiniDbms

open Lib PagedProgram Program LinkWalk BufferPoolManager

variable {w w' : BufferPoolManager} {n : Nat}

/-! ## One walk -/

section

variable {σ ρ : Type} {l : LinkWalk PageId FrameId PageData σ ρ}
  {a : Position PageId σ BufferPoolManager}

/-- A walk over a file of `n` pages ends, has visited at most `n` pages wherever it gets, and
detects cycles. -/
theorem walk_spec (hl : l.Proper) (ha : Tracks (OfSize n) (filePages n) a) :
    ∃ result w', Program.run (l.loop chainFuel a.visited a.current a.state) a.world =
        some (result, w') ∧ w'.InFile ∧
      ∀ b, l.Enters pool a b → b.visited.length ≤ n ∧
        (b.current ≠ l.last → b.current ∈ b.visited → result = l.cycle) := by
  have hn : a.world.disk.numPages = n := ha.world.2
  obtain ⟨result, w', hrun⟩ :=
    walk_ends hl a.current a.state (hn ▸ ha) (numPages_lt_chainFuel a.world)
  refine ⟨result, w', hrun, run_inFile ha.world.1 hrun, fun b hb => ⟨?_, fun hlast hin => ?_⟩⟩
  · exact le_trans (hb.tracks (staysOn hl n) ha).length_le (card_filePages_le n)
  · exact (loop_cycle hb hlast hin hrun).1

/-- The walk that starts at a page gets to another page. -/
def Walks (l : LinkWalk PageId FrameId PageData σ ρ) (first : PageId) (s : σ)
    (w : BufferPoolManager) (visited : List PageId) (current : PageId) : Prop :=
  ∃ s' w', l.Enters pool ⟨[], first, s, w⟩ ⟨visited, current, s', w'⟩

theorem walks_spec (hl : l.Proper) (hw : OfSize n w) (first : PageId) (s : σ) :
    ∃ result w', Program.run (l.loop chainFuel [] first s) w = some (result, w') ∧ w'.InFile ∧
      ∀ visited current, Walks l first s w visited current → visited.length ≤ n ∧
        (current ≠ l.last → current ∈ visited → result = l.cycle) := by
  obtain ⟨result, w', hrun, hin, hall⟩ := walk_spec hl (Tracks.start hw first s)
  refine ⟨result, w', hrun, hin, ?_⟩
  rintro visited current ⟨s', v, henters⟩
  exact hall _ henters

end

/-- A program that ends in every case. -/
theorem halts_of_ends {α : Type} {x : Program α} {P : List PageId → Bool → α → Prop}
    (hx : x.Ends P [] true) (hw : w.InFile) : ∃ r w', x.run w = some (r, w') := by
  obtain ⟨r, w', -, -, hrun, -⟩ :=
    run_ends (n := 0) hx ⟨hw, List.forall_mem_nil _, fun he => by cases he⟩
  exact ⟨r, w', hrun⟩

/-- A program that ends in every case and asks for no page leaves a file of the same size. -/
theorem run_ofSize {α : Type} {x : Program α}
    (hx : x.Ends (fun _ grown _ => grown = false) [] false)
    (hw : OfSize n w) : ∃ r w', x.run w = some (r, w') ∧ OfSize n w' := by
  obtain ⟨r, w', seen, grown, hrun, hgrown, hs⟩ :=
    run_ends hx ⟨hw.1, List.forall_mem_nil _, fun _ => hw.2⟩
  exact ⟨r, w', hrun, hs.inFile, hs.numPages hgrown⟩

/-! ## The walks of `Destroy` -/

namespace HashIndex

/-- Where the walks of `Destroy` along the chains that start at the given pages get. -/
inductive Destroys : List PageId → List PageId → BufferPoolManager → List PageId →
    PageId → Prop where
  | here {start : PageId} {rest visited visited' : List PageId} {current : PageId}
      {w w' : BufferPoolManager} :
      destroyWalk.Enters pool ⟨visited, start, (), w⟩ ⟨visited', current, (), w'⟩ →
      Destroys (start :: rest) visited w visited' current
  | later {start : PageId} {rest visited visited' visited'' : List PageId} {current : PageId}
      {w w' : BufferPoolManager} :
      (destroyChain chainFuel visited start).run w = some (.ok visited', w') →
      Destroys rest visited' w' visited'' current →
      Destroys (start :: rest) visited w visited'' current

/-- The pages visited after a chain has been destroyed. -/
theorem tracks_destroyChain {visited visited' : List PageId} {start : PageId}
    (ha : Tracks (OfSize n) (filePages n) ⟨visited, start, (), w⟩)
    (hrun : Program.run (destroyChain chainFuel visited start) w = some (.ok visited', w'))
    (next : PageId) : Tracks (OfSize n) (filePages n) ⟨visited', next, (), w'⟩ := by
  rw [destroyChain_eq chainFuel visited start ()] at hrun
  obtain ⟨b, henters, hfinish⟩ := loop_finishes (i := pool) (a := ⟨visited, start, (), w⟩) hrun
  have hb := henters.tracks (staysOn proper_destroyWalk n) ha
  generalize hresult : (Except.ok visited' : Except Status (List PageId)) = result at hfinish
  cases hfinish with
  | last =>
    cases hresult
    exact ⟨hb.world, hb.nodup, hb.subset⟩
  | cycle => cases hresult
  | stop _ _ hround =>
    obtain ⟨e, he⟩ := run_always (always_destroyRound b.current) hround _ rfl
    rw [he] at hresult
    cases hresult

theorem destroyChains_spec : ∀ (starts visited : List PageId) (w : BufferPoolManager),
    (∀ start, Tracks (OfSize n) (filePages n) ⟨visited, start, (), w⟩) →
    ∃ result w', (destroyChains starts visited).run w = some (result, w') ∧ w'.InFile ∧
      ∀ visited' current, Destroys starts visited w visited' current → visited'.length ≤ n ∧
        (current ≠ invalidPageId → current ∈ visited' →
          result = .error (.ioError "Cycle detected while destroying hash index")) := by
  intro starts
  induction starts with
  | nil =>
    intro visited w ha
    exact ⟨_, w, rfl, (ha invalidPageId).world.1, nofun⟩
  | cons start rest ih =>
    intro visited w ha
    obtain ⟨result, v, hrun, hv, hall⟩ := walk_spec proper_destroyWalk (ha start)
    have hchain : (destroyChain chainFuel visited start).run w = some (result, v) := by
      rw [destroyChain_eq chainFuel visited start ()]
      exact hrun
    rw [destroyChains, run_bind, hchain]
    cases result with
    | error e =>
      refine ⟨_, v, rfl, hv, fun visited' current h => ?_⟩
      cases h with
      | here henters =>
        obtain ⟨hlength, hcycle⟩ := hall _ henters
        refine ⟨hlength, fun hlast hin => ?_⟩
        cases hcycle hlast hin
        rfl
      | later hrun' =>
        rw [hchain] at hrun'
        cases hrun'
    | ok visited' =>
      obtain ⟨result, w', hrest, hw', hall'⟩ :=
        ih visited' v (tracks_destroyChain (ha start) hchain)
      refine ⟨result, w', hrest, hw', fun visited'' current h => ?_⟩
      cases h with
      | here henters =>
        obtain ⟨hlength, hcycle⟩ := hall _ henters
        refine ⟨hlength, fun hlast hin => ?_⟩
        cases hcycle hlast hin
      | later hrun' h =>
        rw [hchain] at hrun'
        cases hrun'
        exact hall' _ _ h

end HashIndex

/-! ## The calls -/

/-- The public calls that follow links. -/
inductive LinkCall where
  | insertRecord (firstPageId : PageId) (record : Bytes)
  | containsPage (firstPageId pageId : PageId)
  | getFirstRecord (firstPageId : PageId)
  | getNextRecord (rid : RecordID)
  | insert (header : PageId) (key : Bytes) (value : RecordID)
  | getValue (header : PageId) (key : Bytes)
  | remove (header : PageId) (key : Bytes) (value : Option RecordID)
  | destroy (header : PageId)

namespace LinkCall

/-- The status that a call returns. -/
def statusOf {α : Type} (x : Program (Except Status α)) : Program (Except Status Unit) := do
  return (← x).map fun _ => ()

def exec : LinkCall → Program (Except Status Unit)
  | insertRecord firstPageId record => statusOf (HeapFile.insertRecord firstPageId record)
  | containsPage firstPageId pageId => statusOf (HeapFile.containsPage firstPageId pageId)
  | getFirstRecord firstPageId => statusOf (HeapFile.getFirstRecord firstPageId)
  | getNextRecord rid => statusOf (HeapFile.getNextRecord rid)
  | insert header key value => HashIndex.insert header key value
  | getValue header key => statusOf (HashIndex.getValue header key)
  | remove header key value => HashIndex.remove header key value
  | destroy header => HashIndex.destroy header

/-- The walk of the call along the chain of a bucket. -/
def WalksBucket {σ ρ : Type} (l : LinkWalk PageId FrameId PageData σ ρ) (header : PageId)
    (key : Bytes)
    (s : σ) (w : BufferPoolManager) (visited : List PageId) (current : PageId) : Prop :=
  ∃ bucketIndex first w', (HashIndex.getBucketPageId header key).run w =
    some (.ok (bucketIndex, first), w') ∧ Walks l first s w' visited current

/-- The loop of the call has visited the pages `visited` and is on the page `current`. -/
def Visits (w : BufferPoolManager) : LinkCall → List PageId → PageId → Prop
  | insertRecord firstPageId record => fun visited current =>
    record ≠ [] ∧ Walks (HeapFile.insertWalk record) firstPageId () w visited current
  | containsPage firstPageId pageId => fun visited current =>
    0 < pageId.toInt ∧ Walks (HeapFile.containsWalk pageId) firstPageId () w visited current
  | getFirstRecord firstPageId => Walks HeapFile.findWalk firstPageId 0 w
  | getNextRecord rid => fun visited current =>
    0 < rid.pageId.toInt ∧
      Walks HeapFile.findWalk rid.pageId (rid.slotId.toNat + 1) w visited current
  | insert header key value => fun visited current =>
    key ≠ [] ∧ 0 < value.pageId.toInt ∧ WalksBucket (HashIndex.insertWalk key value) header key
      (invalidPageId, invalidPageId) w visited current
  | getValue header key => WalksBucket (HashIndex.getValueWalk key) header key [] w
  | remove header key value => WalksBucket (HashIndex.removeWalk key value) header key 0 w
  | destroy header => fun visited current =>
    0 < header.toInt ∧ ∃ starts w', (HashIndex.destroyStarts header).run w = some (.ok starts, w') ∧
      HashIndex.Destroys starts [] w' visited current

/-- The result of a call on a file of `n` pages: its loop makes at most one round for each page and
one more, and it fails with `IO_ERROR` if it gets to a page that it has visited. -/
def Ended (n : Nat) (visits : List PageId → PageId → Prop) (result : Except Status Unit) : Prop :=
  ∀ visited current, visits visited current → visited.length ≤ n ∧
    (current ≠ invalidPageId → current ∈ visited → ∃ msg, result = .error ⟨.ioError, msg⟩)

theorem ended_none {visits : List PageId → PageId → Prop} {result : Except Status Unit}
    (h : ∀ visited current, ¬ visits visited current) : Ended n visits result :=
  fun visited current hv => absurd hv (h visited current)

section

variable {σ α : Type} {l : LinkWalk PageId FrameId PageData σ (Except Status α)} {s : σ}
  {first : PageId} {msg : String}

/-- A walk that is at its end makes no round. -/
theorem ended_last (hlast : l.last = invalidPageId) (result : Except Status Unit) :
    Ended n (Walks l invalidPageId s w) result := by
  rintro visited current ⟨s', v, henters⟩
  cases henters with
  | refl => exact ⟨Nat.zero_le _, fun hne => absurd rfl hne⟩
  | go hne => exact absurd hlast.symm hne

/-- A walk and what follows it. -/
theorem ended_loop (hl : l.Proper) (hlast : l.last = invalidPageId)
    (hcycle : l.cycle = .error (.ioError msg))
    (hw : OfSize n w) {rest : Except Status α → Program (Except Status Unit)}
    (hrest : ∀ result {v : BufferPoolManager}, v.InFile →
      ∃ r v', (rest result).run v = some (r, v'))
    (herror : ∀ e, rest (.error e) = pure (.error e)) :
    ∃ result w', Program.run (l.loop chainFuel [] first s >>= rest) w = some (result, w') ∧
      Ended n (Walks l first s w) result := by
  obtain ⟨result, v, hrun, hv, hall⟩ := walks_spec hl hw first s
  obtain ⟨r, v', hrest'⟩ := hrest result hv
  refine ⟨r, v', ?_, fun visited current hwalks => ?_⟩
  · rw [run_bind, hrun]
    exact hrest'
  · obtain ⟨hlength, hin⟩ := hall visited current hwalks
    refine ⟨hlength, fun hne hmem => ?_⟩
    rw [hin (hlast ▸ hne) hmem, hcycle, herror] at hrest'
    cases hrest'
    exact ⟨_, rfl⟩

/-- A call of the heap file that is one walk. -/
theorem ended_statusOf (hl : l.Proper) (hlast : l.last = invalidPageId)
    (hcycle : l.cycle = .error (.ioError msg)) (hw : OfSize n w) {x : Program (Except Status α)}
    (hx : x = l.loop chainFuel [] first s) :
    ∃ result w', (statusOf x).run w = some (result, w') ∧ Ended n (Walks l first s w) result := by
  subst hx
  exact ended_loop hl hlast hcycle hw (fun result v _ => ⟨_, v, rfl⟩) fun _ => rfl

/-- A call of the hash index, which finds the first page of a bucket and then walks. -/
theorem ended_bucket {header : PageId} {key : Bytes} (hw : OfSize n w)
    {k : Except Status (Nat × PageId) → Program (Except Status Unit)}
    (herror : ∀ e, k (.error e) = pure (.error e))
    (hok : ∀ bucketIndex first {v : BufferPoolManager}, OfSize n v →
      ∃ result v', (k (.ok (bucketIndex, first))).run v = some (result, v') ∧
        Ended n (Walks l first s v) result) :
    ∃ result w', (HashIndex.getBucketPageId header key >>= k).run w = some (result, w') ∧
      Ended n (WalksBucket l header key s w) result := by
  obtain ⟨r, v, hrun, hv⟩ := run_ofSize (HashIndex.ends_getBucketPageId header key) hw
  rw [run_bind, hrun]
  cases r with
  | error e =>
    refine ⟨.error e, v, by rw [Option.bind_some, herror]; rfl, ended_none ?_⟩
    rintro visited current ⟨b, first, u, hrun', -⟩
    rw [hrun] at hrun'
    cases hrun'
  | ok found =>
    obtain ⟨result, v', hrun', hended⟩ := hok found.1 found.2 hv
    refine ⟨result, v', hrun', ?_⟩
    rintro visited current ⟨b, first, u, hrun'', hwalks⟩
    rw [hrun] at hrun''
    cases hrun''
    exact hended visited current hwalks

end

theorem Ended.mono {visits visits' : List PageId → PageId → Prop} {result : Except Status Unit}
    (h : Ended n visits result) (himp : ∀ visited current, visits' visited current →
      visits visited current) : Ended n visits' result :=
  fun visited current hv => h visited current (himp visited current hv)

theorem ended_insertRecord (hw : OfSize n w) (firstPageId : PageId) (record : Bytes) :
    ∃ result w', (statusOf (HeapFile.insertRecord firstPageId record)).run w = some (result, w') ∧
      Ended n (Visits w (.insertRecord firstPageId record)) result := by
  rw [HeapFile.insertRecord]
  by_cases hrecord : record = []
  · rw [if_pos hrecord]
    refine ⟨_, w, rfl, ended_none ?_⟩
    rintro visited current ⟨hne, -⟩
    exact hne hrecord
  · rw [if_neg hrecord]
    obtain ⟨result, w', hrun, hended⟩ :=
      ended_statusOf (HeapFile.proper_insertWalk record) rfl rfl hw
      (HeapFile.insertLoop_eq record chainFuel [] firstPageId ())
    exact ⟨result, w', hrun, hended.mono fun _ _ h => h.2⟩

theorem ended_containsPage (hw : OfSize n w) (firstPageId pageId : PageId) :
    ∃ result w', (statusOf (HeapFile.containsPage firstPageId pageId)).run w = some (result, w') ∧
      Ended n (Visits w (.containsPage firstPageId pageId)) result := by
  rw [HeapFile.containsPage]
  by_cases hpage : pageId.toInt ≤ headerPageId.toInt
  · rw [if_pos hpage]
    refine ⟨_, w, rfl, ended_none ?_⟩
    rintro visited current ⟨hpos, -⟩
    rw [toInt_headerPageId] at hpage
    omega
  · rw [if_neg hpage]
    obtain ⟨result, w', hrun, hended⟩ :=
      ended_statusOf (HeapFile.proper_containsWalk pageId) rfl rfl hw
      (HeapFile.containsLoop_eq pageId chainFuel [] firstPageId ())
    exact ⟨result, w', hrun, hended.mono fun _ _ h => h.2⟩

theorem ended_getNextRecord (hw : OfSize n w) (rid : RecordID) :
    ∃ result w', (statusOf (HeapFile.getNextRecord rid)).run w = some (result, w') ∧
      Ended n (Visits w (.getNextRecord rid)) result := by
  rw [HeapFile.getNextRecord]
  by_cases hpage : rid.pageId.toInt ≤ headerPageId.toInt
  · rw [if_pos hpage]
    refine ⟨_, w, rfl, ended_none ?_⟩
    rintro visited current ⟨hpos, -⟩
    rw [toInt_headerPageId] at hpage
    omega
  · rw [if_neg hpage]
    obtain ⟨result, w', hrun, hended⟩ := ended_statusOf HeapFile.proper_findWalk rfl rfl hw
      (HeapFile.findLoop_eq chainFuel [] rid.pageId (rid.slotId.toNat + 1))
    exact ⟨result, w', hrun, hended.mono fun _ _ h => h.2⟩

theorem ended_insert (hw : OfSize n w) (header : PageId) (key : Bytes) (value : RecordID) :
    ∃ result w', (HashIndex.insert header key value).run w = some (result, w') ∧
      Ended n (Visits w (.insert header key value)) result := by
  by_cases hkey : key = []
  · refine ⟨_, w, by rw [HashIndex.insert, if_pos hkey]; rfl, ended_none ?_⟩
    rintro visited current ⟨hne, -⟩
    exact hne hkey
  by_cases hpage : value.pageId.toInt ≤ headerPageId.toInt
  · refine ⟨_, w, by rw [HashIndex.insert, if_neg hkey, if_pos hpage]; rfl, ended_none ?_⟩
    rintro visited current ⟨-, hpos, -⟩
    rw [toInt_headerPageId] at hpage
    omega
  have hbucket : ∃ result w', (HashIndex.insert header key value).run w = some (result, w') ∧
      Ended n (WalksBucket (HashIndex.insertWalk key value) header key
        (invalidPageId, invalidPageId) w) result := by
    rw [HashIndex.insert, if_neg hkey, if_neg hpage]
    apply ended_bucket hw (fun _ => rfl)
    intro bucketIndex first v hv
    dsimp only
    by_cases hfirst : first = invalidPageId
    · subst hfirst
      rw [if_pos rfl]
      obtain ⟨r, v', hrun⟩ :=
        halts_of_ends (HashIndex.ends_createPrimaryBucket header bucketIndex key value) hv.1
      exact ⟨r, v', hrun, ended_last rfl r⟩
    · rw [if_neg hfirst, HashIndex.insertLoop_eq key value chainFuel [] first
        (invalidPageId, invalidPageId)]
      apply ended_loop (HashIndex.proper_insertWalk key value) rfl rfl hv
      · rintro (e | _ | ⟨firstPageWithSpace, lastPageId⟩) u hu
        · exact ⟨_, u, rfl⟩
        · exact ⟨_, u, rfl⟩
        dsimp only
        split
        · exact halts_of_ends (HashIndex.ends_insertIntoPage firstPageWithSpace key value) hu
        split
        · exact ⟨_, u, rfl⟩
        · exact halts_of_ends (HashIndex.ends_appendOverflowBucket lastPageId key value) hu
      · exact fun _ => rfl
  obtain ⟨result, w', hrun, hended⟩ := hbucket
  exact ⟨result, w', hrun, hended.mono fun _ _ h => h.2.2⟩

theorem ended_remove (hw : OfSize n w) (header : PageId) (key : Bytes) (value : Option RecordID) :
    ∃ result w', (HashIndex.remove header key value).run w = some (result, w') ∧
      Ended n (Visits w (.remove header key value)) result := by
  show ∃ result w', _ ∧ Ended n (WalksBucket (HashIndex.removeWalk key value) header key 0 w) result
  unfold HashIndex.remove
  apply ended_bucket hw (fun _ => rfl)
  intro bucketIndex first v hv
  dsimp only
  by_cases hfirst : first = invalidPageId
  · subst hfirst
    rw [if_pos rfl]
    exact ⟨_, v, rfl, ended_last rfl _⟩
  · rw [if_neg hfirst, HashIndex.removeLoop_eq]
    apply ended_loop (HashIndex.proper_removeWalk key value) rfl rfl hv
    · rintro (e | totalRemoved) u hu
      · exact ⟨_, u, rfl⟩
      dsimp only
      split <;> exact ⟨_, u, rfl⟩
    · exact fun _ => rfl

theorem statusOf_getValue (header : PageId) (key : Bytes) :
    statusOf (HashIndex.getValue header key) =
    HashIndex.getBucketPageId header key >>= fun r => statusOf (match r with
      | .error e => pure (.error e)
      | .ok (_, bucketPageId) => HashIndex.getValueLoop key chainFuel [] bucketPageId []) :=
  PagedProgram.bind_assoc _ _ _

theorem ended_getValue (hw : OfSize n w) (header : PageId) (key : Bytes) :
    ∃ result w', (statusOf (HashIndex.getValue header key)).run w = some (result, w') ∧
      Ended n (Visits w (.getValue header key)) result := by
  show ∃ result w', _ ∧ Ended n (WalksBucket (HashIndex.getValueWalk key) header key [] w) result
  rw [statusOf_getValue]
  apply ended_bucket hw (fun _ => rfl)
  intro bucketIndex first v hv
  exact ended_statusOf (HashIndex.proper_getValueWalk key) rfl rfl hv
    (HashIndex.getValueLoop_eq key _ _ _ _)

theorem ended_destroy (hw : OfSize n w) (header : PageId) :
    ∃ result w', (HashIndex.destroy header).run w = some (result, w') ∧
      Ended n (Visits w (.destroy header)) result := by
  by_cases hpos : header.toInt ≤ headerPageId.toInt
  · refine ⟨_, w, by rw [HashIndex.destroy, if_pos hpos]; rfl, ended_none ?_⟩
    rintro visited current ⟨hpos', -⟩
    rw [toInt_headerPageId] at hpos
    omega
  rw [HashIndex.destroy_eq hpos]
  obtain ⟨r, v, hrun, hv⟩ := run_ofSize (HashIndex.ends_destroyStarts header) hw
  rw [run_bind, hrun]
  cases r with
  | error e =>
    refine ⟨_, v, rfl, ended_none ?_⟩
    rintro visited current ⟨-, starts, u, hrun', -⟩
    rw [hrun] at hrun'
    cases hrun'
  | ok starts =>
    obtain ⟨result, u, hchains, hu, hall⟩ := HashIndex.destroyChains_spec starts [] v
      fun start => Tracks.start hv start ()
    have hcycle : ∀ final, (∀ e, result = .error e → final = .error e) →
        Ended n (Visits w (.destroy header)) final := by
      rintro final hfinal visited current ⟨-, starts', v', hrun', hvisits⟩
      rw [hrun] at hrun'
      cases hrun'
      obtain ⟨hlength, hin⟩ := hall visited current hvisits
      exact ⟨hlength, fun hne hmem => ⟨_, hfinal _ (hin hne hmem)⟩⟩
    dsimp only [Option.bind_some]
    rw [run_bind, hchains]
    cases result with
    | error e => exact ⟨_, u, rfl, hcycle _ fun e' he => he⟩
    | ok =>
      obtain ⟨r, w', hend⟩ := halts_of_ends (HashIndex.ends_destroyHeader header) hu
      exact ⟨r, w', hend, hcycle r fun e he => by cases he⟩

/-- Whatever the file holds, every call that follows links ends; its loop makes at most one round
for each page of the file and one more, and it answers `IO_ERROR` if it gets to a page that it has
visited. -/
theorem link_walks_end (hw : Opened w) (call : LinkCall) :
    ∃ result w', call.exec.run w = some (result, w') ∧
      ∀ visited current, call.Visits w visited current →
        visited.length ≤ w.disk.numPages ∧
          (current ≠ invalidPageId → current ∈ visited →
            ∃ msg, result = .error ⟨.ioError, msg⟩) := by
  have hsize : OfSize w.disk.numPages w := ⟨hw.inFile, rfl⟩
  cases call with
  | insertRecord firstPageId record => exact ended_insertRecord hsize firstPageId record
  | containsPage firstPageId pageId => exact ended_containsPage hsize firstPageId pageId
  | getFirstRecord firstPageId =>
    exact ended_statusOf HeapFile.proper_findWalk rfl rfl hsize (HeapFile.findLoop_eq _ _ _ _)
  | getNextRecord rid => exact ended_getNextRecord hsize rid
  | insert header key value => exact ended_insert hsize header key value
  | getValue header key => exact ended_getValue hsize header key
  | remove header key value => exact ended_remove hsize header key value
  | destroy header => exact ended_destroy hsize header

/-- A page of a heap file without records. -/
def emptyPage (p next : PageId) : PageData :=
  PageData.writePageId (SlottedPage.init (Page.view p Image.zero)).2.data 8 next

/-- A file in which the pages 1 and 2 of a heap file are linked to each other. -/
def cyclicHeap : Option DiskManager :=
  DiskManager.openFile (fun p =>
    if p = 1 then emptyPage 1 2 else if p = 2 then emptyPage 2 1 else Image.zero) 3 (by decide)
    DiskFaults.none

/-- The walk along the cycle comes back to page 1, and the call fails. -/
theorem link_walks_end_cyclic : ∃ d result w', cyclicHeap = some d ∧
    (exec (.getFirstRecord 1)).run (new 1 d) = some (result, w') ∧
    Visits (new 1 d) (.getFirstRecord 1) [2, 1] 1 ∧ (∃ msg, result = .error ⟨.ioError, msg⟩) ∧
    ∀ visited current, Visits (new 1 d) (.getFirstRecord 1) visited current →
      visited.length ≤ d.numPages := by
  have heval : cyclicHeap.bind (fun d => ((HeapFile.findRound 1 0).run (new 1 d)).bind fun r =>
      ((HeapFile.findRound 2 0).run r.2).map fun r' => (r.1.next, r'.1.next)) =
      some (some (2, 0), some (1, 0)) := by
    decide +kernel
  obtain ⟨d, hd, heval⟩ := Option.bind_eq_some_iff.mp heval
  obtain ⟨⟨x, v⟩, hfirst, heval⟩ := Option.bind_eq_some_iff.mp heval
  obtain ⟨⟨y, u⟩, hsecond, heval⟩ := Option.map_eq_some_iff.mp heval
  obtain ⟨hx, hy⟩ := Prod.mk.inj heval
  cases Round.eq_go hx
  cases Round.eq_go hy
  have hvisits : Visits (new 1 d) (.getFirstRecord 1) [2, 1] 1 :=
    ⟨0, u, .go (by decide) List.not_mem_nil hfirst (.go (by decide) (by decide) hsecond (.refl _))⟩
  obtain ⟨result, w', hrun, hall⟩ := link_walks_end (.new 1 d) (.getFirstRecord 1)
  exact ⟨d, result, w', hd, hrun, hvisits, (hall _ _ hvisits).2 (by decide) (by simp),
    fun visited current h => (hall visited current h).1⟩

end LinkCall

end MiniDbms
