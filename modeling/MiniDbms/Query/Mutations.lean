import MiniDbms.Database.TableRuns
import MiniDbms.Query.Plans

/-!
# UPDATE and DELETE

Both statements drain their plan and then change the collected rows one by one. The collected rows
are those that satisfy the WHERE clause before the statement, each once (`Selects`), and a prefix of
them is changed: all when the statement succeeds (`Mutation.exec_runs`). `RowsChanged` is the effect
of a list of changes on the heap files.
-/

namespace MiniDbms

open Lib PagedProgram Program HashIndex StringMap CatalogManager QueryExecutor

/-- The rows of the list have been changed in the heap file at `p`, and nothing else. -/
structure RowsChanged {α : Type} (chains : PageId → Chain) (p : PageId) (rid : α → RecordID)
    (New : α → Option Bytes → Prop) (l : List α) (chains' : PageId → Chain) : Prop where
  changed : ∀ a ∈ l, New a ((chains' p).record (rid a))
  unchanged : ∀ x, x ∉ l.map rid → (chains' p).record x = (chains p).record x
  others : ∀ q, q ≠ p → ∀ x, (chains' q).record x = (chains q).record x

namespace RowsChanged

variable {α : Type} {chains chains' chains'' : PageId → Chain} {p : PageId} {rid : α → RecordID}
  {New : α → Option Bytes → Prop} {l : List α}

theorem nil (h : ∀ q x, (chains' q).record x = (chains q).record x) :
    RowsChanged chains p rid New [] chains' :=
  ⟨nofun, fun x _ => h p x, fun q _ => h q⟩

/-- One change, and then those of a list that does not have the row again. -/
theorem cons {a : α} {r : Option Bytes} (hr : TableStorage.RowChanged chains p (rid a) r chains')
    (hnew : New a r) (hnot : rid a ∉ l.map rid) (h : RowsChanged chains' p rid New l chains'') :
    RowsChanged chains p rid New (a :: l) chains'' where
  changed b hb := by
    rcases List.mem_cons.mp hb with rfl | hb
    · rw [h.unchanged _ hnot, hr.changed, if_pos rfl]
      exact hnew
    · exact h.changed b hb
  unchanged x hx := by
    rw [List.map_cons, List.mem_cons, not_or] at hx
    rw [h.unchanged x hx.2, hr.changed, if_neg hx.1]
  others q hq x := by rw [h.others q hq, hr.others q hq]

theorem of_map {β : Type} {f : β → α} {l : List β}
    (h : RowsChanged chains p rid New (l.map f) chains') :
    RowsChanged chains p (fun b => rid (f b)) (fun b => New (f b)) l chains' where
  changed b hb := h.changed (f b) (List.mem_map_of_mem hb)
  unchanged x hx := h.unchanged x (by rw [List.map_map]; exact hx)
  others := h.others

end RowsChanged

namespace QueryExecutor

section

variable {ext : PageId → Nat} {h : Pages} {catalog : CatalogManager} {d : PageData} {c : Contents}
  {name : Bytes} {table : TableMetadata} {α σ : Type}

/-! ## The two loops -/

/-- Draining a plan: the items of all records, in their order. -/
theorem collectLoop_runs {operator : AbstractOperator σ} {item : Record → Except Status α}
    {f : Record → α} : ∀ (fuel : Nat) (records : List Record) (s : σ) (pending : List α),
      operator.YieldsFrom ext h (.ok ()) records s → (∀ r ∈ records, item r = .ok (f r)) →
      records.length < fuel →
      Runs (poolContext ext) (collectLoop operator item fuel s pending) (fun r h' => h' = h ∧
        r = .ok (pending ++ records.map f)) h := by
  intro fuel
  induction fuel with
  | zero => exact fun _ _ _ _ _ hlt => absurd hlt (Nat.not_lt_zero _)
  | succ fuel ih =>
    intro records s pending hy hitem hlt
    refine hy.call (fun s' hnil hclose => ?_) fun record rest s' hcons hrest => ?_
    · subst hnil
      have hclose : operator.close s' = .ok () := hclose
      dsimp only
      rw [hclose]
      exact runs_pure ⟨rfl, by rw [List.map_nil, List.append_nil]⟩
    · subst hcons
      dsimp only
      rw [hitem record List.mem_cons_self]
      rw [List.length_cons] at hlt
      refine (ih rest s' (pending ++ [f record]) hrest
        (fun r hr => hitem r (List.mem_cons_of_mem _ hr)) (by omega)).mono fun r h' hr => ?_
      rw [List.append_assoc, List.singleton_append] at hr
      exact hr

/-- What a change of one row does to a consistent database. -/
def ChangesRow (ext : PageId → Nat) (catalog : CatalogManager) (d : PageData) (p : PageId)
    (rid : α → RecordID) (New : α → Option Bytes → Prop)
    (change : α → Program (Except Status Unit)) : Prop :=
  ∀ a h c, DatabaseHolds h catalog d c → Runs (poolContext ext) (change a) (fun r h' =>
    ∃ c', DatabaseHolds h' catalog d c' ∧
      ((r = .ok () ∧ ∃ o, New a o ∧ TableStorage.RowChanged c.chain p (rid a) o c'.chain) ∨
        (∃ e, r = .error e) ∧ TableStorage.SameRows c c')) h

/-- Changing the rows of a list until one change fails: a prefix of the list is changed. -/
theorem applyLoop_runs {p : PageId} {rid : α → RecordID} {New : α → Option Bytes → Prop}
    {change : α → Program (Except Status Unit)}
    (hchange : ChangesRow ext catalog d p rid New change) :
    ∀ (pending : List α) (affected : Nat) (h : Pages) (c : Contents), DatabaseHolds h catalog d c →
      (pending.map rid).Nodup →
      Runs (poolContext ext) (applyLoop change pending affected) (fun r h' => ∃ n c',
        r.2 = affected + n ∧ n ≤ pending.length ∧ (r.1 = .ok () → n = pending.length) ∧
        DatabaseHolds h' catalog d c' ∧
        RowsChanged c.chain p rid New (pending.take n) c'.chain) h := by
  intro pending
  induction pending with
  | nil =>
    intro affected h c hd _
    exact runs_pure ⟨0, c, rfl, Nat.le_refl 0, fun _ => rfl, hd, .nil fun _ _ => rfl⟩
  | cons a pending ih =>
    intro affected h c hd hnodup
    rw [List.map_cons] at hnodup
    obtain ⟨hnot, hnodup'⟩ := List.nodup_cons.mp hnodup
    refine ((hchange a h c hd).mono fun r h' hr => ?_).bind
    rcases hr with ⟨c', hd', ⟨rfl, o, hnew, hrow⟩ | ⟨⟨e, rfl⟩, hsame⟩⟩
    · refine (ih (affected + 1) h' c' hd' hnodup').mono fun r h'' hr => ?_
      obtain ⟨n, c'', hn, hle, hall, hd'', hrows⟩ := hr
      refine ⟨n + 1, c'', by omega, by rw [List.length_cons]; omega, fun hok => ?_, hd'', ?_⟩
      · rw [hall hok, List.length_cons]
      · rw [List.take_succ_cons]
        exact .cons hrow hnew (fun hin => hnot (List.map_subset _ (List.take_subset _ _) hin)) hrows
    · exact runs_pure ⟨0, c', rfl, Nat.zero_le _, nofun, hd', .nil hsame⟩

end

end QueryExecutor

/-! ## The statements -/

/-- An UPDATE or a DELETE. -/
inductive Mutation where
  | update (statement : UpdateStatement)
  | delete (statement : DeleteStatement)

namespace Mutation

def statement : Mutation → SQLStatement
  | .update s => .update s
  | .delete s => .delete s

def tableName : Mutation → Bytes
  | .update s => s.tableName
  | .delete s => s.tableName

def conditions : Mutation → List Condition
  | .update s => s.conditions
  | .delete s => s.conditions

/-- What becomes of a row: the column is replaced by the value, or the row is removed. -/
def NewRow (schema : Schema) (old : Bytes) : Mutation → Option Bytes → Prop
  | .update s, new => ∃ k v values data, schema.columnIndex s.columnName = some k ∧
      convertLiteral (schema.getD k ⟨[], .integer, 0⟩) s.newValue true = .ok v ∧
      RecordCodec.deserialize schema old = .ok values ∧ new = some data ∧
      RecordCodec.deserialize schema data = .ok (values.set k v)
  | .delete _, new => new = none

/-- The statement without its wrapping: its status and the number of affected rows. -/
def exec (catalog : CatalogManager) : Mutation → Program (Except Status Unit × Nat)
  | .update s => executeUpdate catalog s
  | .delete s => executeDelete catalog s

theorem execute_eq {catalog : CatalogManager} (hc : catalog.initializationStatus = .ok ())
    (m : Mutation) : execute catalog m.statement = m.exec catalog >>= fun r =>
      return (r.1, { rowsAffected := r.2 }, catalog) := by
  unfold execute
  rw [hc]
  cases m <;> rfl

section

variable {ext : PageId → Nat} {h : Pages} {catalog : CatalogManager} {d : PageData} {c : Contents}
  {name : Bytes} {table : TableMetadata} {records : List Record} {plan : Plan}
  {outputSchema : Schema}

/-- What a statement leaves when `n` of the selected rows are changed. -/
structure Applied (catalog : CatalogManager) (d : PageData) (c : Contents) (table : TableMetadata)
    (m : Mutation) (records : List Record) (h' : Pages) (n : Nat) (c' : Contents) : Prop where
  holds : DatabaseHolds h' catalog d c'
  rows : RowsChanged c.chain table.firstPageId Record.rid (fun r => m.NewRow table.schema r.data)
    (records.take n) c'.chain

theorem Applied.none (hd : DatabaseHolds h catalog d c) (m : Mutation) :
    Applied catalog d c table m records h 0 c :=
  ⟨hd, .nil fun _ _ => rfl⟩

theorem executeUpdate_runs {s : UpdateStatement} (hd : DatabaseHolds h catalog d c)
    (ht : catalog.tables.lookup s.tableName = some table)
    (hplan : buildScanPlan catalog s.tableName s.conditions = .ok (plan, outputSchema))
    (hp : plan.Produces ext h records (.ok ()))
    (hselects : Selects (c.chain table.firstPageId) table.schema s.conditions records) :
    Runs (poolContext ext) (executeUpdate catalog s) (fun r h' => ∃ c',
      r.2 ≤ records.length ∧ (r.1 = .ok () → r.2 = records.length) ∧
      Applied catalog d c table (.update s) records h' r.2 c') h := by
  have hlive : ∀ record ∈ records,
      (c.chain table.firstPageId).record record.rid = some record.data := fun record hin =>
    ((hselects.mem record).mp hin).1
  unfold executeUpdate
  rw [hplan]
  refine (Runs.mono hp fun r h' hr => ?_).bind
  obtain ⟨r, state⟩ := r
  obtain ⟨rfl, rfl, hy⟩ := hr
  dsimp only
  rw [getTableSchema_eq hd ht]
  simp only [Bind.bind, Except.bind]
  cases hk : table.schema.columnIndex s.columnName with
  | none =>
    rw [findColumn, hk]
    exact runs_pure ⟨c, Nat.zero_le _, (fun he => by cases he), .none hd _⟩
  | some k =>
  rw [findColumn_of_some hk]
  dsimp only
  cases hv : convertLiteral (table.schema.getD k ⟨[], .integer, 0⟩) s.newValue true with
  | error e => exact runs_pure ⟨c, Nat.zero_le _, (fun he => by cases he), .none hd _⟩
  | ok v =>
  dsimp only
  have hrow : ∀ record : Record, ∃ values, record ∈ records →
      RecordCodec.deserialize table.schema record.data = .ok values := by
    intro record
    by_cases hin : record ∈ records
    · obtain ⟨values, hvalues⟩ := deserialize_of_live hd ht (hlive record hin)
      exact ⟨values, fun _ => hvalues⟩
    · exact ⟨[], fun hc => absurd hc hin⟩
  choose values hvalues using hrow
  have hitem : ∀ record ∈ records, pendingUpdate table.schema k v record =
      .ok (record.rid, (values record).set k v) := by
    intro record hin
    rw [pendingUpdate, hvalues record hin]
  have hlt := length_lt_scanFuel (heapHolds_of_lookup hd ht) hselects.nodup hlive
  refine ((collectLoop_runs scanFuel records state [] hy hitem hlt).mono fun r h' hr => ?_).bind
  obtain ⟨rfl, rfl⟩ := hr
  rw [List.nil_append]
  dsimp only
  have hchange : ChangesRow ext catalog d table.firstPageId
      (fun u : RecordID × List FieldValue => u.1)
      (fun u new => ∃ data, new = some data ∧
        RecordCodec.deserialize table.schema data = .ok u.2)
      (fun u => TableStorage.updateRecord catalog s.tableName u.1 u.2) := by
    intro u h c hd
    refine (TableStorage.updateRecord_effect hd ht u.1 u.2).mono fun r h' hr => ?_
    rcases hr with ⟨old, data, c', rfl, hser, -, hd', hrow⟩ | ⟨e, c', rfl, -, hd', hsame⟩
    · exact ⟨c', hd', .inl ⟨rfl, _, ⟨data, rfl, RecordCodec.deserialize_serialize hser⟩, hrow⟩⟩
    · exact ⟨c', hd', .inr ⟨⟨e, rfl⟩, hsame⟩⟩
  have hnodup : ((records.map fun record => (record.rid, (values record).set k v)).map
      fun u : RecordID × List FieldValue => u.1).Nodup := by
    rw [List.map_map]
    exact hselects.nodup
  refine (applyLoop_runs hchange _ 0 _ c hd hnodup).mono fun r h' hr => ?_
  obtain ⟨n, c', hn, hle, hok, hd', hrows⟩ := hr
  rw [List.length_map] at hle hok
  rw [Nat.zero_add] at hn
  subst hn
  refine ⟨c', hle, hok, hd', ?_⟩
  rw [← List.map_take] at hrows
  have hrows := hrows.of_map
  refine ⟨fun record hin => ?_, hrows.unchanged, hrows.others⟩
  obtain ⟨data, hdata, hdes⟩ := hrows.changed record hin
  exact ⟨k, v, values record, data, hk, hv, hvalues record (List.take_subset _ _ hin), hdata, hdes⟩

theorem executeDelete_runs {s : DeleteStatement} (hd : DatabaseHolds h catalog d c)
    (ht : catalog.tables.lookup s.tableName = some table)
    (hplan : buildScanPlan catalog s.tableName s.conditions = .ok (plan, outputSchema))
    (hp : plan.Produces ext h records (.ok ()))
    (hselects : Selects (c.chain table.firstPageId) table.schema s.conditions records) :
    Runs (poolContext ext) (executeDelete catalog s) (fun r h' => ∃ c',
      r.2 ≤ records.length ∧ (r.1 = .ok () → r.2 = records.length) ∧
      Applied catalog d c table (.delete s) records h' r.2 c') h := by
  have hlt := length_lt_scanFuel (heapHolds_of_lookup hd ht) hselects.nodup fun record hin =>
    ((hselects.mem record).mp hin).1
  unfold executeDelete
  rw [hplan]
  refine (Runs.mono hp fun r h' hr => ?_).bind
  obtain ⟨r, state⟩ := r
  obtain ⟨rfl, rfl, hy⟩ := hr
  dsimp only
  refine ((collectLoop_runs scanFuel records state [] hy (fun _ _ => rfl) hlt).mono
    fun r h' hr => ?_).bind
  obtain ⟨rfl, rfl⟩ := hr
  rw [List.nil_append]
  dsimp only
  have hchange : ChangesRow ext catalog d table.firstPageId (fun rid : RecordID => rid)
      (fun _ new => new = none) (TableStorage.deleteRecord catalog s.tableName) := by
    intro rid h c hd
    refine (TableStorage.deleteRecord_effect hd ht rid).mono fun r h' hr => ?_
    rcases hr with ⟨old, c', rfl, -, hd', hrow⟩ | ⟨e, rfl, -, rfl, -⟩
    · exact ⟨c', hd', .inl ⟨rfl, _, rfl, hrow⟩⟩
    · exact ⟨c, hd, .inr ⟨⟨e, rfl⟩, fun _ _ => rfl⟩⟩
  refine (applyLoop_runs hchange (records.map Record.rid) 0 _ c hd
    (by rw [List.map_id']; exact hselects.nodup)).mono fun r h' hr => ?_
  obtain ⟨n, c', hn, hle, hok, hd', hrows⟩ := hr
  rw [List.length_map] at hle hok
  rw [Nat.zero_add] at hn
  subst hn
  refine ⟨c', hle, hok, hd', ?_⟩
  rw [← List.map_take] at hrows
  exact hrows.of_map

theorem exec_runs {m : Mutation} (hd : DatabaseHolds h catalog d c)
    (ht : catalog.tables.lookup m.tableName = some table)
    (hplan : buildScanPlan catalog m.tableName m.conditions = .ok (plan, outputSchema))
    (hp : plan.Produces ext h records (.ok ()))
    (hselects : Selects (c.chain table.firstPageId) table.schema m.conditions records) :
    Runs (poolContext ext) (m.exec catalog) (fun r h' => ∃ c',
      r.2 ≤ records.length ∧ (r.1 = .ok () → r.2 = records.length) ∧
      Applied catalog d c table m records h' r.2 c') h := by
  cases m with
  | update s => exact executeUpdate_runs hd ht hplan hp hselects
  | delete s => exact executeDelete_runs hd ht hplan hp hselects

end

end Mutation

end MiniDbms
