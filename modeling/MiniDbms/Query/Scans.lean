import MiniDbms.Lib.Enumeration
import MiniDbms.Query.Semantics
import MiniDbms.Storage.HeapFileChanges
import MiniDbms.Index.HashIndexRuns

/-!
# What a plan yields

`Produces ext h plan records status`: the plan opens, `Next` returns the records, each once and in
this order, and then nothing, and `Close` returns the status; the pages stay as they are. Each
operator is described by what it makes of the records of its child: a sequential scan yields the
records of the heap file (`seqScan_produces`), an index scan those with the ids that the index has
for its key (`indexScan_produces`), a filter keeps those that satisfy its condition
(`filter_produces`), and a projection encodes the selected columns (`projection_produces`).
-/

namespace MiniDbms

open Lib PagedProgram Program HeapFile

/-- From the state `s` on, the operator returns the records, and then `Close` the status. -/
def AbstractOperator.YieldsFrom {σ : Type} (operator : AbstractOperator σ) (ext : PageId → Nat)
    (h : Pages) (status : Except Status Unit) (records : List Record) (s : σ) : Prop :=
  Yields (poolContext ext) operator.next h (fun s => operator.close s = status) records s

/-- The plan opens and returns the records. -/
def Plan.Produces (ext : PageId → Nat) (h : Pages) (plan : Plan) (records : List Record)
    (status : Except Status Unit) : Prop :=
  Runs (poolContext ext) (plan.operator.openOperator plan.state) (fun r h' => h' = h ∧
    r.1 = .ok () ∧ plan.operator.YieldsFrom ext h status records r.2) h

/-! ## Sequential scans -/

namespace Chain

/-- A heap file has fewer records than a scan has turns. -/
theorem length_records_le (chain : Chain) (hb : chain.Bounded) :
    chain.records.length ≤ 1020 * chain.length := by
  have hlive : ∀ (q : PageId) (slots : List (Option Bytes)) (i : Nat),
      (liveSlots q i slots).length ≤ slots.length := by
    intro q slots
    induction slots with
    | nil => exact fun i => Nat.le_refl 0
    | cons o slots ih =>
      intro i
      have := ih (i + 1)
      cases o with
      | none =>
        rw [liveSlots, List.length_cons]
        omega
      | some data =>
        rw [liveSlots, List.length_cons, List.length_cons]
        omega
  induction chain with
  | nil => exact Nat.le_refl 0
  | cons x rest ih =>
    obtain ⟨q, slots⟩ := x
    have h₁ := hlive q slots 0
    have h₂ : slots.length ≤ 1020 := hb (q, slots) List.mem_cons_self
    have h₃ := ih fun y hy => hb y (List.mem_cons_of_mem _ hy)
    rw [records, List.length_append, List.length_cons]
    omega

end Chain

namespace HeapFile

variable {h : Pages} {p : PageId} {chain : Chain} {ext : PageId → Nat}

theorem length_records_lt (hh : HeapHolds h p chain) : chain.records.length < scanFuel := by
  have h₁ := chain.length_records_le hh.holds.bounded
  have h₂ := length_lt_chainFuel hh.nodup fun q => hh.holds.good_of_mem
  rw [length_chainIds] at h₂
  have h₃ : chainFuel = 4294967298 := rfl
  have h₄ : scanFuel = 18446744073709551616 := rfl
  omega

end HeapFile

namespace SeqScanOperator

variable {h : Pages} {p : PageId} {chain : Chain} {ext : PageId → Nat}

/-- The records that a scan in the state `s` has still to return. -/
def Rest (chain : Chain) (records : List Record) (s : SeqScanState) : Prop :=
  s.finished = false ∧ s.status = .ok () ∧
    ((s.started = false ∧ records = chain.records) ∨
      (s.started = true ∧ s.currentRid.pageId ∈ chain.ids ∧
        records = chain.recordsFrom s.currentRid.pageId (s.currentRid.slotId.toNat + 1)))

/-- The first of the records that are left leaves the others. -/
theorem Rest.next (hh : HeapHolds h p chain) {record : Record} {records : List Record}
    {s : SeqScanState} (hs : Rest chain (record :: records) s) :
    record.rid.pageId ∈ chain.ids ∧
      chain.recordsFrom record.rid.pageId (record.rid.slotId.toNat + 1) = records := by
  obtain ⟨-, -, ⟨-, hr⟩ | ⟨-, -, hr⟩⟩ := hs
  · refine ⟨Chain.pageId_mem_ids (by rw [← hr]; exact List.mem_cons_self), ?_⟩
    apply Chain.recordsAfter_next hh.holds.bounded hh.nodup (i := 0)
    rw [Chain.recordsAfter_zero, ← hr]
  · exact ⟨Chain.recordsFrom_mem hr.symm, Chain.recordsFrom_next hh.holds.bounded hh.nodup hr.symm⟩

/-- The call of the heap file that `Next` makes. -/
theorem read_runs (hh : HeapHolds h p chain) {records : List Record} {s : SeqScanState}
    (hs : Rest chain records s) :
    Runs (poolContext ext) (if s.started then getNextRecord s.currentRid else getFirstRecord p)
      (fun r h' => h' = h ∧ Scans records r) h := by
  obtain ⟨-, -, ⟨hstarted, rfl⟩ | ⟨hstarted, hmem, rfl⟩⟩ := hs
  · rw [hstarted, if_neg Bool.false_ne_true]
    exact getFirstRecord_runs hh.holds hh.nodup
  · rw [hstarted, if_pos rfl]
    exact getNextRecord_runs hh.holds hh.nodup hmem

/-- At the end of the scan. -/
theorem next_runs_nil (hh : HeapHolds h p chain) {s : SeqScanState} (hs : Rest chain [] s) :
    Runs (poolContext ext) (next p s)
    (fun r h' => h' = h ∧ r.1 = none ∧ r.2.status = .ok ()) h := by
  rw [next_eq hs.1]
  refine ((read_runs hh hs).mono fun r h' hr => ?_).bind
  obtain ⟨rfl, e, rfl, hcode⟩ := hr
  rw [advance, if_pos hcode]
  exact runs_pure ⟨rfl, rfl, hs.2.1⟩

theorem next_runs_cons (hh : HeapHolds h p chain) {record : Record} {records : List Record}
    {s : SeqScanState} (hs : Rest chain (record :: records) s) :
    Runs (poolContext ext) (next p s) (fun r h' => h' = h ∧ r.1 = some record ∧
      Rest chain records r.2) h := by
  rw [next_eq hs.1]
  refine ((read_runs hh hs).mono fun r h' hr => ?_).bind
  obtain ⟨rfl, rfl⟩ := hr
  obtain ⟨hmem, hrest⟩ := hs.next hh
  exact runs_pure ⟨rfl, rfl, hs.1, hs.2.1, .inr ⟨rfl, hmem, hrest.symm⟩⟩

theorem yieldsFrom (hh : HeapHolds h p chain) (records : List Record) (s : SeqScanState)
    (hs : Rest chain records s) : (operator p).YieldsFrom ext h (.ok ()) records s :=
  yields_of_invariant (Rest chain) (fun _ => next_runs_nil hh) (fun _ _ _ => next_runs_cons hh)
    records s hs

theorem rest_start (chain : Chain) : Rest chain chain.records {} :=
  ⟨rfl, rfl, .inl ⟨rfl, rfl⟩⟩

end SeqScanOperator

section

variable {h : Pages} {p : PageId} {chain : Chain} {ext : PageId → Nat}

/-- A sequential scan yields the live records in the order of the chain and of the slots. -/
theorem seqScan_produces (hh : HeapHolds h p chain) :
    (Plan.seqScan p).Produces ext h chain.records (.ok ()) :=
  runs_pure ⟨rfl, rfl, SeqScanOperator.yieldsFrom hh _ _ (SeqScanOperator.rest_start chain)⟩

/-! ## Index scans -/

/-- The states of an index scan whose record ids are those of live records. -/
theorem IndexScanOperator.yieldsFrom {index : PageId} {key : Bytes} (hh : HeapHolds h p chain)
    (records : List Record) (s : IndexScanState)
    (hs : s = ⟨records.map Record.rid, .ok ()⟩ ∧
      ∀ record ∈ records, chain.record record.rid = some record.data) :
    (operator index key).YieldsFrom ext h (.ok ()) records s := by
  refine yields_of_invariant (fun (l : List Record) s => s = ⟨l.map Record.rid, .ok ()⟩ ∧
      ∀ record ∈ l, chain.record record.rid = some record.data)
    (fun s hs => ?_) (fun record rest s hs => ?_) records s hs
  · obtain ⟨rfl, -⟩ := hs
    exact runs_pure ⟨rfl, rfl, rfl⟩
  · obtain ⟨rfl, hlive⟩ := hs
    have hr := hlive record List.mem_cons_self
    have hmem : record.rid.pageId ∈ chain.ids := mem_ids_of_record hr
    refine ((HeapFile.getRecord_runs hh.holds hmem).mono fun r h' hrun => ?_).bind
    obtain ⟨rfl, hrun⟩ := hrun
    rw [hr] at hrun
    subst hrun
    exact runs_pure ⟨rfl, rfl, rfl, fun x hx => hlive x (List.mem_cons_of_mem _ hx)⟩

/-- An index scan yields the live records that the index has for the key, each once. -/
theorem indexScan_produces {index : PageId} {key : Bytes} {b : Buckets}
    (hi : HashIndex.IndexHolds h index b) (hk : key.length ≤ HashIndexBucketPage.maxKeyLength)
    (hh : HeapHolds h p chain) (hlive : ∀ e ∈ b.pairs, chain.record e.2 ≠ none) :
    ∃ records, (Plan.indexScan index key).Produces ext h records (.ok ()) ∧
      (records.map Record.rid).Nodup ∧ ∀ record, record ∈ records ↔
        (key, record.rid) ∈ b.pairs ∧ chain.record record.rid = some record.data := by
  obtain ⟨hnodup, hmem⟩ := HashIndex.values_spec hi.wellFormed hi.count_pos key
  set values := ((b.entriesFor key).filter fun e => e.1 = key).map Prod.snd with hvalues
  set records := values.map fun rid => (⟨rid, (chain.record rid).getD []⟩ : Record) with hrecords
  have hmap : records.map Record.rid = values := by
    rw [hrecords, List.map_map]
    exact List.map_id values
  have hrecord : ∀ record, record ∈ records ↔
      (key, record.rid) ∈ b.pairs ∧ chain.record record.rid = some record.data := by
    intro record
    rw [hrecords, List.mem_map]
    constructor
    · rintro ⟨rid, hin, rfl⟩
      have hpair := (hmem rid).mp hin
      obtain ⟨data, hdata⟩ := Option.ne_none_iff_exists'.mp (hlive _ hpair)
      exact ⟨hpair, by dsimp only at hdata ⊢; rw [hdata, Option.getD_some]⟩
    · rintro ⟨hpair, hdata⟩
      exact ⟨record.rid, (hmem _).mpr hpair, by rw [hdata, Option.getD_some]⟩
  refine ⟨records, ?_, by rw [hmap]; exact hnodup, hrecord⟩
  refine ((HashIndex.getValue_runs hi hk).mono fun r h' hr => ?_).bind
  obtain ⟨rfl, rfl⟩ := hr
  refine runs_pure ⟨rfl, rfl, IndexScanOperator.yieldsFrom hh records _ ⟨?_, fun record hin => ?_⟩⟩
  · rw [hmap]
  · exact ((hrecord record).mp hin).2

end

/-! ## Filters -/

namespace FilterOperator

variable {σ : Type} {child : AbstractOperator σ} {schema : Schema} {condition : Condition}
  {k : Nat} {target : FieldValue} {ext : PageId → Nat} {h : Pages} {status : Except Status Unit}

theorem evaluate_eq (ht : condition.Target schema k target) {record : Record}
    (hrow : ∃ values, RecordCodec.deserialize schema record.data = .ok values) :
    evaluate schema condition k target record =
      .ok (decide (SatisfiesAll schema [condition] record.data)) := by
  obtain ⟨values, hvalues⟩ := hrow
  obtain ⟨actual, hget, hactual⟩ := RecordCodec.getValue_eq hvalues (Schema.lt_of_columnIndex ht.1)
  rw [evaluate, hget]
  dsimp only
  congr 1
  rw [Bool.eq_iff_iff, compareValues_iff, decide_eq_true_eq, satisfiesAll_iff hvalues,
    List.forall_mem_singleton, Condition.satisfies_iff ht hactual]

/-- The states of an open filter whose child has the records `records` left. -/
structure Rest (child : AbstractOperator σ) (ext : PageId → Nat) (h : Pages)
    (status : Except Status Unit) (schema : Schema) (k : Nat) (target : FieldValue)
    (records : List Record) (s : FilterState σ) : Prop where
  opened : s = ⟨s.child, k, target, .ok ()⟩
  yields : child.YieldsFrom ext h status records s.child
  rows : ∀ record ∈ records, ∃ values, RecordCodec.deserialize schema record.data = .ok values

/-- The records that satisfy the condition. -/
def kept (schema : Schema) (condition : Condition) (records : List Record) : List Record :=
  records.filter fun record => SatisfiesAll schema [condition] record.data

/-- The loop of `Next` goes to the first record that satisfies the condition. -/
theorem nextLoop_runs (ht : condition.Target schema k target) :
    ∀ (fuel : Nat) (records : List Record) (s : FilterState σ),
      Rest child ext h status schema k target records s → records.length < fuel →
      Runs (poolContext ext) (nextLoop child schema condition fuel s) (fun r h' => h' = h ∧
        match kept schema condition records with
        | [] => r.1 = none ∧ close child r.2 = status
        | record :: more => r.1 = some record ∧ ∃ rest, kept schema condition rest = more ∧
            rest.length < records.length ∧ Rest child ext h status schema k target rest r.2) h := by
  intro fuel
  induction fuel with
  | zero => exact fun records s _ hlt => absurd hlt (Nat.not_lt_zero _)
  | succ fuel ih =>
    intro records s hs hlt
    obtain ⟨hs, hy, hrows⟩ := hs
    rw [hs]
    refine hy.call (fun c hnil hclose => ?_) fun record rest c hcons hrest => ?_
    · subst hnil
      exact runs_pure ⟨rfl, rfl, hclose⟩
    · subst hcons
      have hrow := hrows record List.mem_cons_self
      have hs' : Rest child ext h status schema k target rest ⟨c, k, target, .ok ()⟩ :=
        ⟨rfl, hrest, fun x hx => hrows x (List.mem_cons_of_mem _ hx)⟩
      rw [List.length_cons] at hlt
      dsimp only
      rw [evaluate_eq ht hrow, kept, List.filter_cons, ← kept]
      by_cases hsat : SatisfiesAll schema [condition] record.data
      · rw [decide_eq_true hsat, if_pos rfl]
        refine runs_pure ⟨rfl, rfl, rest, rfl, ?_, hs'⟩
        rw [List.length_cons]
        omega
      · rw [decide_eq_false hsat, if_neg Bool.false_ne_true]
        refine (ih rest _ hs' (by omega)).mono fun r h' hr => ⟨hr.1, ?_⟩
        replace hr := hr.2
        cases hkept : kept schema condition rest with
        | nil =>
          rw [hkept] at hr
          exact hr
        | cons record' more =>
          rw [hkept] at hr
          obtain ⟨hsome, rest', hmore, hlt', hs''⟩ := hr
          refine ⟨hsome, rest', hmore, ?_, hs''⟩
          rw [List.length_cons]
          omega

theorem yieldsFrom (ht : condition.Target schema k target) {records : List Record}
    {s : FilterState σ} (hs : Rest child ext h status schema k target records s)
    (hlt : records.length < scanFuel) :
    (operator child schema condition).YieldsFrom ext h status
    (kept schema condition records) s := by
  have hnext : ∀ records s, Rest child ext h status schema k target records s →
      next child schema condition s = nextLoop child schema condition scanFuel s := by
    intro records s hs
    rw [hs.opened]
    rfl
  refine yields_of_invariant (fun l s => ∃ records, l = kept schema condition records ∧
      records.length < scanFuel ∧ Rest child ext h status schema k target records s)
    (fun s hs => ?_) (fun record more s hs => ?_) _ s ⟨records, rfl, hlt, hs⟩
  · obtain ⟨records, hkept, hlt, hs⟩ := hs
    show Runs _ (next child schema condition s) _ _
    rw [hnext records s hs]
    refine (nextLoop_runs ht _ records s hs hlt).mono fun r h' hr => ?_
    rw [← hkept] at hr
    exact hr
  · obtain ⟨records, hkept, hlt, hs⟩ := hs
    show Runs _ (next child schema condition s) _ _
    rw [hnext records s hs]
    refine (nextLoop_runs ht _ records s hs hlt).mono fun r h' hr => ?_
    rw [← hkept] at hr
    obtain ⟨rfl, hsome, rest, hmore, hlt', hs'⟩ := hr
    exact ⟨rfl, hsome, rest, hmore.symm, hlt'.trans hlt, hs'⟩

end FilterOperator

section

variable {plan : Plan} {schema : Schema} {condition : Condition} {ext : PageId → Nat} {h : Pages}
  {status : Except Status Unit} {records : List Record}

/-- A plan that does not open. -/
def Plan.Fails (ext : PageId → Nat) (h : Pages) (plan : Plan) : Prop :=
  Runs (poolContext ext) (plan.operator.openOperator plan.state) (fun r h' => h' = h ∧
    ∃ e, r.1 = .error e) h

/-- A filter keeps the records that satisfy its condition. -/
theorem filter_produces {k : Nat} {target : FieldValue} (ht : condition.Target schema k target)
    (hp : plan.Produces ext h records status)
    (hrows : ∀ record ∈ records, ∃ values,
      RecordCodec.deserialize schema record.data = .ok values) (hlt : records.length < scanFuel) :
    (plan.filter schema condition).Produces ext h (FilterOperator.kept schema condition records)
      status := by
  show Runs _ (FilterOperator.openOperator plan.operator schema condition _) _ _
  unfold FilterOperator.openOperator
  rw [ht.1]
  dsimp only
  rw [ht.2]
  refine (Runs.mono hp fun r h' hr => ?_).bind
  obtain ⟨rfl, hok, hy⟩ := hr
  refine runs_pure ⟨rfl, hok, ?_⟩
  exact FilterOperator.yieldsFrom ht ⟨rfl, hy, hrows⟩ hlt

/-- A filter whose condition has no target does not open. -/
theorem filter_fails (ht : ∀ k target, ¬ condition.Target schema k target) :
    (plan.filter schema condition).Fails ext h := by
  show Runs _ (FilterOperator.openOperator plan.operator schema condition _) _ _
  unfold FilterOperator.openOperator
  cases hk : schema.columnIndex condition.column with
  | none => exact runs_pure ⟨rfl, _, rfl⟩
  | some k =>
    dsimp only
    cases hl : convertLiteral (schema.getD k ⟨[], .integer, 0⟩) condition.value false with
    | error e => exact runs_pure ⟨rfl, e, rfl⟩
    | ok target => exact absurd ⟨hk, hl⟩ (ht k target)

/-- A filter does not open if its child does not. -/
theorem Plan.Fails.filter (hp : plan.Fails ext h) (schema : Schema) (condition : Condition) :
    (plan.filter schema condition).Fails ext h := by
  by_cases ht : ∃ k target, condition.Target schema k target
  · obtain ⟨k, target, hk, hl⟩ := ht
    show Runs _ (FilterOperator.openOperator plan.operator schema condition _) _ _
    unfold FilterOperator.openOperator
    rw [hk]
    dsimp only
    rw [hl]
    refine (Runs.mono hp fun r h' hr => ?_).bind
    obtain ⟨rfl, e, he⟩ := hr
    exact runs_pure ⟨rfl, e, he⟩
  · exact filter_fails fun k target h => ht ⟨k, target, h⟩

/-- The filters of a WHERE clause, one above the other. -/
def Plan.filters (plan : Plan) (schema : Schema) (conditions : List Condition) : Plan :=
  conditions.foldl (fun plan condition => plan.filter schema condition) plan

theorem filters_produces : ∀ (conditions : List Condition) (plan : Plan) (records : List Record),
    (∀ condition ∈ conditions, ∃ k target, condition.Target schema k target) →
    plan.Produces ext h records status →
    (∀ record ∈ records, ∃ values, RecordCodec.deserialize schema record.data = .ok values) →
    records.length < scanFuel →
    (plan.filters schema conditions).Produces ext h
      (records.filter fun record => SatisfiesAll schema conditions record.data) status := by
  intro conditions
  induction conditions with
  | nil =>
    intro plan records _ hp hrows _
    rw [List.filter_eq_self.mpr]
    · exact hp
    · intro record hin
      obtain ⟨values, hvalues⟩ := hrows record hin
      exact decide_eq_true ⟨values, hvalues, nofun⟩
  | cons condition conditions ih =>
    intro plan records hts hp hrows hlt
    obtain ⟨k, target, ht⟩ := hts condition List.mem_cons_self
    have hle := List.length_filter_le
      (fun record : Record => decide (SatisfiesAll schema [condition] record.data)) records
    have hrest := ih (plan.filter schema condition) (FilterOperator.kept schema condition records)
      (fun x hx => hts x (List.mem_cons_of_mem _ hx)) (filter_produces ht hp hrows hlt)
      (fun record hin => hrows record (List.mem_filter.mp hin).1)
        (by unfold FilterOperator.kept; omega)
    have heq : (FilterOperator.kept schema condition records).filter
        (fun record => decide (SatisfiesAll schema conditions record.data)) =
        records.filter fun record => SatisfiesAll schema (condition :: conditions) record.data := by
      rw [FilterOperator.kept, List.filter_filter]
      congr 1
      funext record
      rw [Bool.eq_iff_iff, Bool.and_eq_true, decide_eq_true_eq, decide_eq_true_eq,
        decide_eq_true_eq]
      exact and_comm.trans satisfiesAll_cons.symm
    rw [← heq]
    exact hrest

/-- The filters do not open if one of the conditions has no target. -/
theorem filters_fails : ∀ (conditions : List Condition) (plan : Plan),
    (plan.Fails ext h ∨ ∃ condition ∈ conditions, ∀ k target, ¬ condition.Target schema k target) →
    (plan.filters schema conditions).Fails ext h := by
  intro conditions
  induction conditions with
  | nil =>
    intro plan hf
    exact hf.resolve_right (by rintro ⟨x, hx, -⟩; cases hx)
  | cons condition conditions ih =>
    intro plan hf
    apply ih
    rcases hf with hf | ⟨x, hx, ht⟩
    · exact .inl (hf.filter schema condition)
    · rcases List.mem_cons.mp hx with rfl | hx
      · exact .inl (filter_fails ht)
      · exact .inr ⟨x, hx, ht⟩

end

/-! ## Projections -/

namespace ProjectionOperator

variable {σ : Type} {child : AbstractOperator σ} {schema : Schema} {fields : List Nat}
  {ext : PageId → Nat} {h : Pages}

/-- The records with the selected columns, up to the first that cannot be encoded, and the status
then. -/
def projectAll (schema : Schema) (fields : List Nat) :
    List Record → List Record × Except Status Unit
  | [] => ([], .ok ())
  | record :: records =>
    match RecordCodec.project schema record.data fields with
    | .error e => ([], .error e)
    | .ok data =>
      (⟨record.rid, data⟩ :: (projectAll schema fields records).1,
        (projectAll schema fields records).2)

theorem yieldsFrom : ∀ (records : List Record) (s : ProjectionState σ), s.status = .ok () →
    child.YieldsFrom ext h (.ok ()) records s.child →
    (operator child schema fields).YieldsFrom ext h (projectAll schema fields records).2
      (projectAll schema fields records).1 s := by
  intro records
  induction records with
  | nil =>
    rintro ⟨c, status⟩ rfl hc
    apply yields_nil
    refine hc.call (fun c' _ hclose => ?_) fun record rest c' hcons _ => nomatch hcons
    exact runs_pure ⟨rfl, rfl, hclose⟩
  | cons record records ih =>
    rintro ⟨c, status⟩ rfl hc
    rw [projectAll]
    cases hp : RecordCodec.project schema record.data fields with
    | error e =>
      apply yields_nil
      refine hc.call (fun c' hnil _ => nomatch hnil) fun record' rest c' hcons hrest => ?_
      cases hcons
      dsimp only
      rw [hp]
      exact runs_pure ⟨rfl, rfl, rfl⟩
    | ok data =>
      apply yields_cons
      refine hc.call (fun c' hnil _ => nomatch hnil) fun record' rest c' hcons hrest => ?_
      cases hcons
      dsimp only
      rw [hp]
      exact runs_pure ⟨rfl, rfl, ih ⟨c', .ok ()⟩ rfl hrest⟩

end ProjectionOperator

section

variable {plan : Plan} {schema : Schema} {fields : List Nat} {ext : PageId → Nat} {h : Pages}
  {records : List Record}

theorem projection_produces (hp : plan.Produces ext h records (.ok ())) (hne : fields ≠ [])
    (hlt : ∀ index ∈ fields, index < schema.getColumnCount) :
    (plan.projection schema fields).Produces ext h
      (ProjectionOperator.projectAll schema fields records).1
      (ProjectionOperator.projectAll schema fields records).2 := by
  show Runs _ (ProjectionOperator.openOperator plan.operator schema fields _) _ _
  unfold ProjectionOperator.openOperator
  have hrange : ¬ ∃ index ∈ fields, schema.getColumnCount ≤ index := by
    rintro ⟨index, hin, hle⟩
    have := hlt index hin
    omega
  rw [if_neg hne, if_neg hrange]
  refine (Runs.mono hp fun r h' hr => ?_).bind
  obtain ⟨rfl, hok, hy⟩ := hr
  exact runs_pure ⟨rfl, hok, ProjectionOperator.yieldsFrom records _ rfl hy⟩

/-- A projection does not open if its child does not. -/
theorem Plan.Fails.projection (hp : plan.Fails ext h) (schema : Schema) (fields : List Nat) :
    (plan.projection schema fields).Fails ext h := by
  show Runs _ (ProjectionOperator.openOperator plan.operator schema fields _) _ _
  unfold ProjectionOperator.openOperator
  split
  · exact runs_pure ⟨rfl, _, rfl⟩
  split
  · exact runs_pure ⟨rfl, _, rfl⟩
  · refine (Runs.mono hp fun r h' hr => ?_).bind
    obtain ⟨rfl, e, he⟩ := hr
    exact runs_pure ⟨rfl, e, he⟩

end

end MiniDbms
