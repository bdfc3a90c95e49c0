import MiniDbms.Index.HashIndexContents

/-!
# A hash index as a set of pairs

The abstract index is a set of pairs of a key and a `RecordID`. `IndexStep s op r s'` says
what an operation `op` with the result `r` does to it, and `hashIndex_run` that every run on
a new index, whatever its bucket count, is a run of such steps.
-/

namespace MiniDbms

open Lib PagedProgram Program HashIndexBucketPage HashIndex

/-- The operations of an index: `remove` is both `Remove(key)` and `Remove(key, value)`. -/
inductive IndexOp where
  | insert (key : Bytes) (value : RecordID)
  | remove (key : Bytes) (value : Option RecordID)
  | getValue (key : Bytes)

/-- The status of a change, or the values found. -/
inductive IndexResult where
  | changed (r : Except Status Unit)
  | found (r : Except Status (List RecordID))
  deriving DecidableEq

namespace IndexOp

def key : IndexOp → Bytes
  | .insert key _ => key
  | .remove key _ => key
  | .getValue key => key

def exec (header : PageId) : IndexOp → Program IndexResult
  | .insert key value => do return .changed (← HashIndex.insert header key value)
  | .remove key value => do return .changed (← HashIndex.remove header key value)
  | .getValue key => do return .found (← HashIndex.getValue header key)

end IndexOp

/-- What an operation does to the set of pairs. An insertion of a valid pair fails only if no page
could be allocated. -/
inductive IndexStep (noPage : Prop) (s : Set Entry) : IndexOp → IndexResult → Set Entry → Prop where
  | inserted (key : Bytes) (value : RecordID) (hvalid : ValidPair (key, value)) :
      IndexStep noPage s (.insert key value) (.changed (.ok ())) (Insert.insert (key, value) s)
  | noPage (key : Bytes) (value : RecordID) (e : Status) (hvalid : ValidPair (key, value))
      (hnot : (key, value) ∉ s) (hno : noPage) (hcode : e.code = .outOfMemory) :
      IndexStep noPage s (.insert key value) (.changed (.error e)) s
  | insertRejected (key : Bytes) (value : RecordID) (e : Status)
      (hinvalid : key = [] ∨ 64 < key.length ∨ value.pageId.toInt ≤ 0)
      (hcode : e.code = .invalidArgument) :
      IndexStep noPage s (.insert key value) (.changed (.error e)) s
  | removed (key : Bytes) (value : Option RecordID) (hkey : key.length ≤ 64)
      (hin : ∃ e ∈ s, Matches key value e) :
      IndexStep noPage s (.remove key value) (.changed (.ok ())) (s \ {e | Matches key value e})
  | notFound (key : Bytes) (value : Option RecordID) (e : Status) (hkey : key.length ≤ 64)
      (hnone : ∀ e ∈ s, ¬ Matches key value e) (hcode : e.code = .notFound) :
      IndexStep noPage s (.remove key value) (.changed (.error e)) s
  | removeRejected (key : Bytes) (value : Option RecordID) (e : Status) (hkey : 64 < key.length)
      (hcode : e.code = .invalidArgument) :
      IndexStep noPage s (.remove key value) (.changed (.error e)) s
  | found (key : Bytes) (values : List RecordID) (hkey : key.length ≤ 64) (hnodup : values.Nodup)
      (hmem : ∀ value, value ∈ values ↔ (key, value) ∈ s) :
      IndexStep noPage s (.getValue key) (.found (.ok values)) s
  | getRejected (key : Bytes) (e : Status) (hkey : 64 < key.length)
      (hcode : e.code = .invalidArgument) :
      IndexStep noPage s (.getValue key) (.found (.error e)) s

variable {noPage noPage' : Prop} {s s' : Set Entry} {op : IndexOp} {r : IndexResult}

theorem IndexStep.mono (h : IndexStep noPage s op r s') (hno : noPage → noPage') :
    IndexStep noPage' s op r s' := by
  cases h with
  | inserted key value hvalid => exact .inserted key value hvalid
  | noPage key value e hvalid hnot hp hcode => exact .noPage key value e hvalid hnot (hno hp) hcode
  | insertRejected key value e hinvalid hcode => exact .insertRejected key value e hinvalid hcode
  | removed key value hkey hin => exact .removed key value hkey hin
  | notFound key value e hkey hnone hcode => exact .notFound key value e hkey hnone hcode
  | removeRejected key value e hkey hcode => exact .removeRejected key value e hkey hcode
  | found key values hkey hnodup hmem => exact .found key values hkey hnodup hmem
  | getRejected key e hkey hcode => exact .getRejected key e hkey hcode

/-- The pairs of other keys stay. -/
theorem IndexStep.other_key (h : IndexStep noPage s op r s') {e : Entry} (he : e.1 ≠ op.key) :
    e ∈ s' ↔ e ∈ s := by
  cases h with
  | inserted key value =>
    rw [Set.mem_insert_iff, or_iff_right]
    rintro rfl
    exact he rfl
  | removed key value =>
    rw [Set.mem_sdiff, and_iff_left]
    exact fun hm => he hm.1
  | _ => rfl

namespace HashIndex

variable {h h' : Pages} {header : PageId} {b : Buckets} {ext : PageId → Nat}

/-- The values of a key are those of its pairs, each once. -/
theorem values_spec (hw : WellFormed header b) (hc : 0 < b.count) (key : Bytes) :
    (((b.entriesFor key).filter fun e => e.1 = key).map Prod.snd).Nodup ∧
      ∀ value, value ∈ ((b.entriesFor key).filter fun e => e.1 = key).map Prod.snd ↔
        (key, value) ∈ b.pairs := by
  constructor
  · apply List.Nodup.map_on _ ((hw.distinct _ (bucketOf_lt hc key)).filter _)
    intro x hx y hy hxy
    have hxk := (List.mem_filter.mp hx).2
    have hyk := (List.mem_filter.mp hy).2
    rw [decide_eq_true_eq] at hxk hyk
    exact Prod.ext (hxk.trans hyk.symm) hxy
  · intro value
    rw [List.mem_map]
    constructor
    · rintro ⟨⟨k, v⟩, he, rfl⟩
      obtain ⟨hin, hk⟩ := List.mem_filter.mp he
      rw [decide_eq_true_eq] at hk
      subst hk
      exact hin
    · intro hin
      exact ⟨(key, value), List.mem_filter.mpr ⟨hin, by simp⟩, rfl⟩

theorem insert_rejected {key : Bytes} {value : RecordID}
    (hk : key = [] ∨ 64 < key.length ∨ value.pageId.toInt ≤ 0) :
    Runs (poolContext ext) (insert header key value)
      (fun r h' => (∃ e, r = .error e ∧ e.code = .invalidArgument) ∧ h' = h) h := by
  unfold insert
  split
  · exact runs_pure ⟨⟨_, rfl, rfl⟩, rfl⟩
  rename_i hne
  split
  · exact runs_pure ⟨⟨_, rfl, rfl⟩, rfl⟩
  rename_i hpos
  have hlong : maxKeyLength < key.length := by
    rw [toInt_headerPageId] at hpos
    exact (hk.resolve_left hne).resolve_right hpos
  refine ((getBucketPageId_long hlong).mono fun r h' hr => ?_).bind
  obtain ⟨rfl, e, rfl, hcode⟩ := hr
  exact runs_pure ⟨⟨e, rfl, hcode⟩, rfl⟩

theorem remove_rejected {key : Bytes} (hk : maxKeyLength < key.length) (value : Option RecordID) :
    Runs (poolContext ext) (remove header key value)
      (fun r h' => (∃ e, r = .error e ∧ e.code = .invalidArgument) ∧ h' = h) h := by
  refine ((getBucketPageId_long hk).mono fun r h' hr => ?_).bind
  obtain ⟨rfl, e, rfl, hcode⟩ := hr
  exact runs_pure ⟨⟨e, rfl, hcode⟩, rfl⟩

theorem getValue_rejected {key : Bytes} (hk : maxKeyLength < key.length) :
    Runs (poolContext ext) (getValue header key)
      (fun r h' => (∃ e, r = .error e ∧ e.code = .invalidArgument) ∧ h' = h) h := by
  refine ((getBucketPageId_long hk).mono fun r h' hr => ?_).bind
  obtain ⟨rfl, e, rfl, hcode⟩ := hr
  exact runs_pure ⟨⟨e, rfl, hcode⟩, rfl⟩

/-- One operation is one step of the set. -/
theorem exec_runs (hi : IndexHolds h header b) (op : IndexOp) :
    Runs (poolContext ext) (op.exec header) (fun r h' => ∃ b',
      IndexStep (h'.failed = true) b.pairs op r b'.pairs ∧ IndexHolds h' header b') h := by
  cases op with
  | insert key value =>
    by_cases hk : ValidPair (key, value)
    · refine ((insert_runs hi hk).mono fun r h' hr => ?_).bind
      refine runs_pure ?_
      cases hr with
      | present hin =>
        have hstep := @IndexStep.inserted (h.failed = true) b.pairs key value hk
        have hin' : (key, value) ∈ b.pairs := hin
        rw [Set.insert_eq_of_mem hin'] at hstep
        exact ⟨b, hstep, hi⟩
      | done h' chain hnot hchain holds =>
        refine ⟨_, ?_, holds⟩
        rw [pairs_of_inserted hchain]
        exact .inserted key value hk
      | full err hnot hfull hcode =>
        exact ⟨b, .noPage key value err hk hnot rfl hcode, hi.congr fun _ _ => rfl⟩
    · have hinvalid : key = [] ∨ 64 < key.length ∨ value.pageId.toInt ≤ 0 := by
        by_contra hno
        simp only [not_or, Nat.not_lt, Int.not_le] at hno
        exact hk hno
      refine ((insert_rejected hinvalid).mono fun r h' hr => ?_).bind
      obtain ⟨⟨e, rfl, hcode⟩, rfl⟩ := hr
      exact runs_pure ⟨b, .insertRejected key value e hinvalid hcode, hi⟩
  | remove key value =>
    by_cases hk : key.length ≤ 64
    · refine ((remove_runs hi hk value).mono fun r h' hr => ?_).bind
      refine runs_pure ?_
      cases hr with
      | done h' chain hin hchain holds =>
        obtain ⟨e, he, hm⟩ := hin
        have hin' : e ∈ b.pairs := by
          rw [Buckets.mem_pairs, hm.1]
          exact he
        refine ⟨_, ?_, holds⟩
        rw [pairs_of_removed hchain]
        exact .removed key value hk ⟨e, hin', hm⟩
      | absent err hnone hcode =>
        refine ⟨b, .notFound key value err hk (fun e he hm => ?_) hcode, hi⟩
        apply hnone e _ hm
        rw [Buckets.mem_pairs, hm.1] at he
        exact he
    · have hlong : 64 < key.length := by omega
      refine ((remove_rejected hlong value).mono fun r h' hr => ?_).bind
      obtain ⟨⟨e, rfl, hcode⟩, rfl⟩ := hr
      exact runs_pure ⟨b, .removeRejected key value e hlong hcode, hi⟩
  | getValue key =>
    by_cases hk : key.length ≤ 64
    · refine ((getValue_runs hi hk).mono fun r h' hr => ?_).bind
      obtain ⟨rfl, rfl⟩ := hr
      obtain ⟨hnodup, hmem⟩ := values_spec hi.wellFormed hi.count_pos key
      exact runs_pure ⟨b, .found key _ hk hnodup hmem, hi⟩
    · have hlong : 64 < key.length := by omega
      refine ((getValue_rejected hlong).mono fun r h' hr => ?_).bind
      obtain ⟨⟨e, rfl, hcode⟩, rfl⟩ := hr
      exact runs_pure ⟨b, .getRejected key e hlong hcode, hi⟩

/-! ## Runs -/

/-- The file cannot grow: it has as many pages as there are page ids. -/
def FileFull (w : BufferPoolManager) : Prop := w.disk.numPages = maxPages

/-- Where no access fails, an allocation fails only when the file cannot grow. -/
theorem fileFull_of_failed {w : BufferPoolManager} (hw : Holds ext w h)
    (hf : ∀ n, w.disk.faults.allocate n = false) (hfailed : h.failed = true) : FileFull w := by
  obtain ⟨_, hrep⟩ := hw
  refine (hrep.failed hfailed).resolve_left ?_
  rintro ⟨n, hn⟩
  rw [hf n] at hn
  cases hn

/-- Every operation of the run ends and is a step of the set of pairs `s`, which leaves the pairs of
all other keys alone. An insertion fails only when the file cannot grow. -/
def IndexRun (header : PageId) : BufferPoolManager → Set Entry → List IndexOp → Prop
  | _, _, [] => True
  | w, s, op :: ops => ∃ r w' s', (op.exec header).run w = some (r, w') ∧
      IndexStep (FileFull w') s op r s' ∧ (∀ e : Entry, e.1 ≠ op.key → (e ∈ s' ↔ e ∈ s)) ∧
      IndexRun header w' s' ops

theorem indexRun_of_holds {w : BufferPoolManager} (hw : Holds ext w h)
    (hf : ∀ n, w.disk.faults.allocate n = false) (hi : IndexHolds h header b) (ops : List IndexOp) :
    IndexRun header w b.pairs ops := by
  induction ops generalizing w h b with
  | nil => trivial
  | cons op ops ih =>
    obtain ⟨r, w', h', hrun, ⟨b', hstep, hi'⟩, hw', hext⟩ := run_of_runs hw (exec_runs hi op)
    have hf' : ∀ n, w'.disk.faults.allocate n = false := by
      rw [hext.faults]
      exact hf
    exact ⟨r, w', b'.pairs, hrun, hstep.mono (fileFull_of_failed hw' hf'), fun e => hstep.other_key,
      ih hw' hf' hi'⟩

/-- A new index refines a set of pairs, over every run on a pool whose disk accesses succeed and
that has a frame left, whatever pins the other clients hold. -/
theorem hashIndex_run {w : BufferPoolManager} (hw : Holds ext w h)
    (hf : ∀ n, w.disk.faults.allocate n = false) (bucketCount : Nat) (hpos : 1 ≤ bucketCount)
    (hle : bucketCount ≤ 1020) :
    ∃ r w', (create bucketCount).run w = some (r, w') ∧
      ((∃ header, r = .ok header ∧ ∀ ops, IndexRun header w' ∅ ops) ∨
        ((∃ e, r = .error e ∧ e.code = .outOfMemory) ∧ FileFull w')) := by
  obtain ⟨r, w', h', hrun, hr, hw', hext⟩ := run_of_runs hw (create_runs hpos hle)
  have hf' : ∀ n, w'.disk.faults.allocate n = false := by
    rw [hext.faults]
    exact hf
  refine ⟨r, w', hrun, ?_⟩
  rcases hr with ⟨n, d, rfl, -, -, hi⟩ | ⟨e, rfl, hcode, rfl⟩
  · refine .inl ⟨n, rfl, fun ops => ?_⟩
    rw [← Buckets.pairs_empty bucketCount]
    exact indexRun_of_holds hw' hf' hi ops
  · exact .inr ⟨⟨e, rfl, hcode⟩, fileFull_of_failed hw' hf' rfl⟩

theorem hashIndex_run_new :
    ∃ w, (create 64).run (BufferPoolManager.new 1 (DiskManager.newFile DiskFaults.none)) =
        some (.ok 1, w) ∧
      IndexRun 1 w ∅ [.insert [7] ⟨9, 0⟩, .insert [7] ⟨9, 1⟩, .getValue [7], .remove [7] none] := by
  obtain ⟨r, w, hrun, hr⟩ := hashIndex_run
    (holds_new Nat.one_pos (d := DiskManager.newFile DiskFaults.none) DiskFaults.none_reliable)
    (fun _ => rfl) 64 (by decide) (by decide)
  have hval : ((create 64).run
      (BufferPoolManager.new 1 (DiskManager.newFile DiskFaults.none))).map Prod.fst =
      some (.ok 1) := by rfl
  rw [hrun] at hval
  cases hval
  rcases hr with ⟨header, hheader, hops⟩ | ⟨⟨e, he, -⟩, -⟩
  · cases hheader
    exact ⟨w, hrun, hops _⟩
  · cases he

end HashIndex

end MiniDbms
