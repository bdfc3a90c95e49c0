import MiniDbms.Query.Operators
import Mathlib.Data.List.Lex

/-!
# What a condition means

The conditions of a WHERE clause as predicates on rows. `Compares op a b` is the relation between
two values: integers and texts are compared in a linear order, texts as sequences of unsigned bytes,
booleans only for equality, and NULL with nothing. `Condition.Satisfies` is a condition on the
values of a row, `SatisfiesAll` a WHERE clause on the bytes of a record. The comparison of
`FilterOperator` is this relation (`compareValues_iff`).
-/

namespace MiniDbms

/-- The relation on a linear order that an operator stands for. -/
def OrderRelation {α : Type} [LinearOrder α] (op : Bytes) (a b : α) : Prop :=
  (op = str "=" ∧ a = b) ∨ (op = str "<" ∧ a < b) ∨ (op = str ">" ∧ b < a) ∨
    (op = str "<=" ∧ a ≤ b) ∨ (op = str ">=" ∧ b ≤ a)

/-- The relation between values that an operator stands for. -/
inductive Compares (op : Bytes) : FieldValue → FieldValue → Prop where
  | integer {a b : Int32} (h : OrderRelation op a.toInt b.toInt) :
      Compares op (.integer a) (.integer b)
  | text {s t : Bytes} (h : OrderRelation op (s.map UInt8.toNat) (t.map UInt8.toNat)) :
      Compares op (.text s) (.text t)
  | boolean {b : Bool} (h : op = str "=") : Compares op (.boolean b) (.boolean b)

namespace FilterOperator

variable {op : Bytes}

/-- A chain of comparisons of the operator, as both functions of the source have it. -/
theorem orderRelation_iff {α : Type} [LinearOrder α] {a b : α} {result : Bool}
    {eq gt lt ge le : Bool}
    (hr : result = if op = str "=" then eq else if op = str ">" then gt
      else if op = str "<" then lt else if op = str ">=" then ge
      else if op = str "<=" then le else false)
    (heq : eq = true ↔ a = b) (hgt : gt = true ↔ b < a) (hlt : lt = true ↔ a < b)
    (hge : ge = true ↔ b ≤ a) (hle : le = true ↔ a ≤ b) :
    result = true ↔ OrderRelation op a b := by
  have hne : ∀ s t : Bytes, s ≠ t → ∀ {p q : Prop}, op = s → ¬ (op = t ∧ p) := by
    rintro s t hst p q rfl ⟨he, -⟩
    exact hst he
  unfold OrderRelation
  subst hr
  split
  · rename_i h
    simp [h, heq, str]
  split
  · rename_i h
    simp [h, hgt, str]
  split
  · rename_i h
    simp [h, hlt, str]
  split
  · rename_i h
    simp [h, hge, str]
  split
  · rename_i h
    simp [h, hle, str]
  · simp [*]

theorem map_toNat_lt {s t : Bytes} : s.map UInt8.toNat < t.map UInt8.toNat ↔ s < t := by
  induction s generalizing t with
  | nil => cases t <;> simp
  | cons a s ih =>
    cases t with
    | nil => simp
    | cons b t =>
      rw [List.map_cons, List.map_cons, List.cons_lt_cons_iff, List.cons_lt_cons_iff, ih,
        UInt8.lt_iff_toNat_lt, UInt8.toNat_inj]

theorem compareIntegers_iff {a b : Int32} :
    compareIntegers a b op = true ↔ OrderRelation op a.toInt b.toInt := by
  apply orderRelation_iff rfl
  · rw [decide_eq_true_eq, Int32.toInt_inj]
  · rw [decide_eq_true_eq, Int32.lt_iff_toInt_lt]
  · rw [decide_eq_true_eq, Int32.lt_iff_toInt_lt]
  · rw [decide_eq_true_eq, Int32.le_iff_toInt_le]
  · rw [decide_eq_true_eq, Int32.le_iff_toInt_le]

theorem compareStrings_iff {s t : Bytes} :
    compareStrings s t op = true ↔ OrderRelation op (s.map UInt8.toNat) (t.map UInt8.toNat) := by
  apply orderRelation_iff rfl
  · rw [decide_eq_true_eq, List.map_inj_right fun x y => UInt8.toNat_inj.mp]
  · rw [decide_eq_true_eq, map_toNat_lt]
  · rw [decide_eq_true_eq, map_toNat_lt]
  · rw [decide_eq_true_eq, ← not_lt, map_toNat_lt]
  · rw [decide_eq_true_eq, ← not_lt, map_toNat_lt]

/-- The comparison of `Evaluate`. -/
theorem compareValues_iff {a b : FieldValue} : compareValues a b op = true ↔ Compares op a b := by
  constructor
  · intro h
    cases a <;> cases b <;> first | cases h | skip
    · exact .integer (compareIntegers_iff.mp h)
    · exact .text (compareStrings_iff.mp h)
    · obtain ⟨hop, rfl⟩ := of_decide_eq_true h
      exact .boolean hop
  · rintro (h | h | h)
    · exact compareIntegers_iff.mpr h
    · exact compareStrings_iff.mpr h
    · exact decide_eq_true ⟨h, rfl⟩

end FilterOperator

instance (op : Bytes) (a b : FieldValue) : Decidable (Compares op a b) :=
  decidable_of_iff _ FilterOperator.compareValues_iff

theorem not_compares_null {op : Bytes} {b : FieldValue} : ¬ Compares op .null b := nofun

/-! ## Conditions -/

namespace Condition

variable {schema : Schema} {condition : Condition} {values : List FieldValue}

/-- The column of the condition, and the value that its literal has there. -/
def Target (schema : Schema) (condition : Condition) (k : Nat) (target : FieldValue) : Prop :=
  schema.columnIndex condition.column = some k ∧
    convertLiteral (schema.getD k ⟨[], .integer, 0⟩) condition.value false = .ok target

/-- A row satisfies the condition: its value in the column compares so with the literal. -/
def Satisfies (schema : Schema) (condition : Condition) (values : List FieldValue) : Prop :=
  ∃ k target actual, condition.Target schema k target ∧ values[k]? = some actual ∧
    Compares condition.op actual target

theorem Target.unique {k k' : Nat} {target target' : FieldValue}
    (h : condition.Target schema k target) (h' : condition.Target schema k' target') :
    k' = k ∧ target' = target := by
  obtain ⟨hk, ht⟩ := h
  obtain ⟨hk', ht'⟩ := h'
  rw [hk] at hk'
  cases hk'
  rw [ht] at ht'
  cases ht'
  exact ⟨rfl, rfl⟩

theorem satisfies_iff {k : Nat} {target actual : FieldValue} (h : condition.Target schema k target)
    (ha : values[k]? = some actual) :
    condition.Satisfies schema values ↔ Compares condition.op actual target := by
  constructor
  · rintro ⟨k', target', actual', h', ha', hc⟩
    obtain ⟨rfl, rfl⟩ := h.unique h'
    rw [ha] at ha'
    cases ha'
    exact hc
  · exact fun hc => ⟨k, target, actual, h, ha, hc⟩

instance (schema : Schema) (condition : Condition) (values : List FieldValue) :
    Decidable (condition.Satisfies schema values) :=
  match hk : schema.columnIndex condition.column with
  | none => isFalse fun ⟨_, _, _, h, _⟩ => nomatch hk.symm.trans h.1
  | some k =>
    match ht : convertLiteral (schema.getD k ⟨[], .integer, 0⟩) condition.value false with
    | .error _ => isFalse fun ⟨_, _, _, h, _⟩ => by
      cases hk.symm.trans h.1
      cases ht.symm.trans h.2
    | .ok target =>
      match ha : values[k]? with
      | none => isFalse fun ⟨_, _, _, h, hv, _⟩ => by
        cases hk.symm.trans h.1
        cases ha.symm.trans hv
      | some actual => decidable_of_iff (Compares condition.op actual target)
          (satisfies_iff ⟨hk, ht⟩ ha).symm

end Condition

/-- The bytes of a record are those of a row that satisfies all conditions. -/
def SatisfiesAll (schema : Schema) (conditions : List Condition) (data : Bytes) : Prop :=
  ∃ values, RecordCodec.deserialize schema data = .ok values ∧
    ∀ condition ∈ conditions, condition.Satisfies schema values

section

variable {schema : Schema} {condition : Condition} {conditions : List Condition} {data : Bytes}
  {values : List FieldValue}

theorem satisfiesAll_iff (h : RecordCodec.deserialize schema data = .ok values) :
    SatisfiesAll schema conditions data ↔
      ∀ condition ∈ conditions, condition.Satisfies schema values := by
  constructor
  · rintro ⟨values', h', hall⟩
    cases h.symm.trans h'
    exact hall
  · exact fun hall => ⟨values, h, hall⟩

instance (schema : Schema) (conditions : List Condition) (data : Bytes) :
    Decidable (SatisfiesAll schema conditions data) :=
  match h : RecordCodec.deserialize schema data with
  | .error _ => isFalse fun ⟨_, h', _⟩ => nomatch h.symm.trans h'
  | .ok values => decidable_of_iff (∀ condition ∈ conditions, condition.Satisfies schema values)
      (satisfiesAll_iff h).symm

theorem satisfiesAll_cons : SatisfiesAll schema (condition :: conditions) data ↔
    SatisfiesAll schema [condition] data ∧ SatisfiesAll schema conditions data := by
  constructor
  · rintro ⟨values, h, hall⟩
    rw [satisfiesAll_iff h, satisfiesAll_iff h]
    exact ⟨by simpa using hall condition List.mem_cons_self,
      fun x hx => hall x (List.mem_cons_of_mem _ hx)⟩
  · rintro ⟨⟨values, h, hone⟩, hrest⟩
    refine ⟨values, h, fun x hx => ?_⟩
    rcases List.mem_cons.mp hx with rfl | hx
    · exact hone x List.mem_cons_self
    · exact (satisfiesAll_iff h).mp hrest x hx

end

end MiniDbms
