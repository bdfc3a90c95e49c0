import MiniDbms.Common.Types
import Mathlib.Data.Nat.ModEq

/-!
# The clock replacer

`ClockReplacer` of `buffer/clock_replacer.cpp`. The pool above uses it through four facts:
`has_pin`, `has_unpin`, `victim_some` (the victim was in the replacer, and exactly it
leaves) and `victim_none` (no victim only when the replacer is empty).
-/

namespace MiniDbms

structure ClockReplacer where
  clockHand : Nat
  refFlags : List Bool
  inReplacer : List Bool
  deriving DecidableEq, Repr

namespace ClockReplacer

/-- The constructor. -/
def new (numPages : Nat) : ClockReplacer where
  clockHand := 0
  refFlags := List.replicate numPages false
  inReplacer := List.replicate numPages false

/-- `in_replacer_[f]`. -/
def has (r : ClockReplacer) (f : FrameId) : Bool := r.inReplacer.getD f false

/-- `ref_flags_[f]`. -/
def flag (r : ClockReplacer) (f : FrameId) : Bool := r.refFlags.getD f false

/-- `ClockReplacer::Size`. -/
def size (r : ClockReplacer) : Nat := r.inReplacer.count true

/-- `clock_hand_ = (clock_hand_ + 1) % size`. -/
def advance (r : ClockReplacer) : ClockReplacer :=
  { r with clockHand := (r.clockHand + 1) % r.refFlags.length }

/-- The frame under the hand loses its reference bit. -/
def clearFlag (r : ClockReplacer) : ClockReplacer :=
  { r with refFlags := r.refFlags.set r.clockHand false }

/-- The frame under the hand leaves the replacer. -/
def takeHand (r : ClockReplacer) : ClockReplacer :=
  { r with inReplacer := r.inReplacer.set r.clockHand false }

/-- The first loop of `Victim`, with the iterations left. -/
def firstPass : Nat → ClockReplacer → Option FrameId × ClockReplacer
  | 0, r => (none, r)
  | n + 1, r =>
    if r.has r.clockHand then
      if r.flag r.clockHand then
        firstPass n r.clearFlag.advance -- second chance
      else
        (some r.clockHand, r.takeHand.advance)
    else
      firstPass n r.advance

/-- The second loop of `Victim`, with the iterations left. -/
def secondPass : Nat → ClockReplacer → Option FrameId × ClockReplacer
  | 0, r => (none, r)
  | n + 1, r =>
    if r.has r.clockHand then
      (some r.clockHand, r.takeHand.advance)
    else
      secondPass n r.advance

/-- `ClockReplacer::Victim`; `none` is the result `false`. -/
def victim (r : ClockReplacer) : Option FrameId × ClockReplacer :=
  if r.size = 0 then (none, r)
  else
    match firstPass r.refFlags.length r with
    | (some f, r') => (some f, r')
    | (none, r') => secondPass r'.refFlags.length r'

/-- `ClockReplacer::Pin`. -/
def pin (r : ClockReplacer) (f : FrameId) : ClockReplacer :=
  if f < r.inReplacer.length then
    { r with inReplacer := r.inReplacer.set f false, refFlags := r.refFlags.set f false }
  else r

/-- `ClockReplacer::Unpin`. -/
def unpin (r : ClockReplacer) (f : FrameId) : ClockReplacer :=
  if f < r.inReplacer.length then
    { r with inReplacer := r.inReplacer.set f true, refFlags := r.refFlags.set f true }
  else r

/-- A replacer for `n` frames: both vectors have `n` entries and the hand is at one of them. -/
structure Valid (n : Nat) (r : ClockReplacer) : Prop where
  flags : r.refFlags.length = n
  frames : r.inReplacer.length = n
  hand : r.clockHand < n

theorem new_valid {n : Nat} (hn : 0 < n) : (new n).Valid n :=
  ⟨by simp [new], by simp [new], hn⟩

@[simp] theorem has_new (n f : Nat) : (new n).has f = false := by
  simp only [new, has, List.getD_eq_getElem?_getD, List.getElem?_replicate]
  split <;> rfl

theorem getD_set (l : List Bool) (i j : Nat) (b : Bool) :
    (l.set i b).getD j false = if i = j ∧ j < l.length then b else l.getD j false := by
  simp only [List.getD_eq_getElem?_getD, List.getElem?_set]
  split
  · rename_i h
    subst h
    split
    · simp_all
    · rename_i h
      simp [h]
  · rename_i h
    simp [h]

theorem lt_of_has {r : ClockReplacer} {f : FrameId} (h : r.has f = true) :
    f < r.inReplacer.length := by
  by_contra hge
  rw [has, List.getD_eq_getElem?_getD, List.getElem?_eq_none (Nat.not_lt.mp hge)] at h
  simp at h

theorem Valid.advance {n : Nat} {r : ClockReplacer} (h : r.Valid n) : r.advance.Valid n :=
  ⟨h.flags, h.frames, by
    have := h.hand
    simp only [ClockReplacer.advance, h.flags]
    exact Nat.mod_lt _ (by omega)⟩

theorem Valid.clearFlag {n : Nat} {r : ClockReplacer} (h : r.Valid n) : r.clearFlag.Valid n :=
  ⟨by simp [ClockReplacer.clearFlag, h.flags], h.frames, h.hand⟩

theorem Valid.takeHand {n : Nat} {r : ClockReplacer} (h : r.Valid n) : r.takeHand.Valid n :=
  ⟨h.flags, by simp [ClockReplacer.takeHand, h.frames], h.hand⟩

theorem Valid.pin {n : Nat} {r : ClockReplacer} (h : r.Valid n) (f : FrameId) :
    (r.pin f).Valid n := by
  unfold ClockReplacer.pin
  split
  · exact ⟨by simp [h.flags], by simp [h.frames], h.hand⟩
  · exact h

theorem Valid.unpin {n : Nat} {r : ClockReplacer} (h : r.Valid n) (f : FrameId) :
    (r.unpin f).Valid n := by
  unfold ClockReplacer.unpin
  split
  · exact ⟨by simp [h.flags], by simp [h.frames], h.hand⟩
  · exact h

@[simp] theorem has_advance (r : ClockReplacer) (f : FrameId) : r.advance.has f = r.has f := rfl

theorem has_takeHand (r : ClockReplacer) (f : FrameId) :
    r.takeHand.has f = if f = r.clockHand then false else r.has f := by
  simp only [has, takeHand, getD_set]
  by_cases h : f = r.clockHand
  · subst h
    by_cases hlt : r.clockHand < r.inReplacer.length
    · simp [hlt]
    · simp [List.getD_eq_getElem?_getD, hlt]
  · simp [h, Ne.symm h]

theorem has_pin (r : ClockReplacer) (f g : FrameId) :
    (r.pin f).has g = if g = f then false else r.has g := by
  unfold pin
  split
  · rename_i hlt
    simp only [has, getD_set]
    by_cases h : g = f
    · subst h
      simp [hlt]
    · simp [h, Ne.symm h]
  · rename_i hge
    split
    · rename_i h
      subst h
      simp [has, List.getD_eq_getElem?_getD, List.getElem?_eq_none (Nat.not_lt.mp hge)]
    · rfl

theorem has_unpin {n : Nat} {r : ClockReplacer} (hr : r.Valid n) {f : FrameId} (hf : f < n)
    (g : FrameId) : (r.unpin f).has g = if g = f then true else r.has g := by
  have hlt : f < r.inReplacer.length := by rw [hr.frames]; exact hf
  simp only [unpin, if_pos hlt, has, getD_set]
  by_cases h : g = f
  · subst h
    simp [hlt]
  · simp [h, Ne.symm h]

/-! ## The victim -/

/-- What one pass over the frames does: it keeps the replacer, or takes one frame out. -/
def Took (r : ClockReplacer) (out : Option FrameId × ClockReplacer) : Prop :=
  match out with
  | (none, r') => ∀ g, r'.has g = r.has g
  | (some f, r') => r.has f = true ∧ ∀ g, r'.has g = if g = f then false else r.has g

theorem took_takeHand {r : ClockReplacer} (h : r.has r.clockHand = true) :
    Took r (some r.clockHand, r.takeHand.advance) :=
  ⟨h, fun g => by rw [has_advance, has_takeHand]⟩

theorem Took.congr {r s : ClockReplacer} (h : ∀ g, s.has g = r.has g)
    {out : Option FrameId × ClockReplacer} (ht : Took s out) : Took r out := by
  rcases out with ⟨_ | f, r'⟩
  · exact fun g => (ht g).trans (h g)
  · exact ⟨(h f) ▸ ht.1, fun g => by rw [ht.2 g, h g]⟩

theorem firstPass_took (k : Nat) (r : ClockReplacer) : Took r (firstPass k r) := by
  induction k generalizing r with
  | zero => exact fun _ => rfl
  | succ k ih =>
    unfold firstPass
    split
    · rename_i hin
      split
      · exact (ih _).congr fun _ => rfl
      · exact took_takeHand hin
    · exact (ih _).congr fun _ => rfl

theorem secondPass_took (k : Nat) (r : ClockReplacer) : Took r (secondPass k r) := by
  induction k generalizing r with
  | zero => exact fun _ => rfl
  | succ k ih =>
    unfold secondPass
    split
    · rename_i hin
      exact took_takeHand hin
    · exact (ih _).congr fun _ => rfl

theorem firstPass_valid {n : Nat} (k : Nat) {r : ClockReplacer} (h : r.Valid n) :
    (firstPass k r).2.Valid n := by
  induction k generalizing r with
  | zero => exact h
  | succ k ih =>
    unfold firstPass
    split
    · split
      · exact ih h.clearFlag.advance
      · exact h.takeHand.advance
    · exact ih h.advance

theorem secondPass_valid {n : Nat} (k : Nat) {r : ClockReplacer} (h : r.Valid n) :
    (secondPass k r).2.Valid n := by
  induction k generalizing r with
  | zero => exact h
  | succ k ih =>
    unfold secondPass
    split
    · exact h.takeHand.advance
    · exact ih h.advance

/-- A pass of `k` steps that finds nothing has seen only absent frames. -/
theorem secondPass_none {n : Nat} (k : Nat) {r : ClockReplacer} (hr : r.Valid n)
    (h : (secondPass k r).1 = none) : ∀ i < k, r.has ((r.clockHand + i) % n) = false := by
  induction k generalizing r with
  | zero => intro i hi; omega
  | succ k ih =>
    unfold secondPass at h
    split at h
    · cases h
    · rename_i hout
      intro i hi
      cases i with
      | zero =>
        rw [Nat.add_zero, Nat.mod_eq_of_lt hr.hand]
        simpa using hout
      | succ i =>
        have hstep := ih hr.advance h i (by omega)
        simp only [advance, hr.flags, Nat.mod_add_mod] at hstep
        rwa [Nat.add_assoc, Nat.add_comm 1 i] at hstep

/-- A whole turn of the hand sees every frame. -/
theorem exists_turn {n hand f : Nat} (hh : hand < n) (hf : f < n) :
    ∃ i < n, (hand + i) % n = f := by
  by_cases h : hand ≤ f
  · exact ⟨f - hand, by omega, by rw [Nat.add_sub_cancel' h, Nat.mod_eq_of_lt hf]⟩
  · refine ⟨n - hand + f, by omega, ?_⟩
    have : hand + (n - hand + f) = f + n := by omega
    rw [this, Nat.add_mod_right, Nat.mod_eq_of_lt hf]

theorem secondPass_isSome {n : Nat} {r : ClockReplacer} (hr : r.Valid n) {f : FrameId}
    (hf : r.has f = true) : (secondPass n r).1 ≠ none := by
  intro h
  have hlt : f < n := hr.frames ▸ lt_of_has hf
  obtain ⟨i, hi, he⟩ := exists_turn hr.hand hlt
  have := secondPass_none n hr h i hi
  rw [he, hf] at this
  cases this

theorem has_of_size {r : ClockReplacer} (h : r.size ≠ 0) : ∃ f, r.has f = true := by
  rw [size, ne_eq, List.count_eq_zero, not_not] at h
  obtain ⟨f, hf, he⟩ := List.getElem_of_mem h
  exact ⟨f, by rw [has, List.getD_eq_getElem?_getD, List.getElem?_eq_getElem hf, he]; rfl⟩

theorem has_of_size_zero {r : ClockReplacer} (h : r.size = 0) (f : FrameId) : r.has f = false := by
  rw [size, List.count_eq_zero] at h
  by_contra hf
  rw [Bool.not_eq_false] at hf
  apply h
  have hlt := lt_of_has hf
  rw [has, List.getD_eq_getElem?_getD, List.getElem?_eq_getElem hlt] at hf
  exact hf ▸ List.getElem_mem hlt

theorem victim_valid {n : Nat} {r : ClockReplacer} (hr : r.Valid n) : r.victim.2.Valid n := by
  unfold victim
  split
  · exact hr
  · have hv := firstPass_valid r.refFlags.length hr
    rcases hp : firstPass r.refFlags.length r with ⟨_ | f, r'⟩
    · rw [hp] at hv
      exact secondPass_valid _ hv
    · rw [hp] at hv
      exact hv

theorem victim_took (r : ClockReplacer) : Took r r.victim := by
  unfold victim
  split
  · exact fun _ => rfl
  · have ht := firstPass_took r.refFlags.length r
    rcases hp : firstPass r.refFlags.length r with ⟨_ | f, r'⟩
    · rw [hp] at ht
      exact (secondPass_took _ _).congr ht
    · rw [hp] at ht
      exact ht

/-- `Victim` returns a frame of the replacer and takes out exactly this frame. -/
theorem victim_some {r r' : ClockReplacer} {f : FrameId} (h : r.victim = (some f, r')) :
    r.has f = true ∧ ∀ g, r'.has g = if g = f then false else r.has g := by
  have := victim_took r
  rwa [h] at this

/-- `Victim` returns false only when no frame is in the replacer, and changes nothing then. -/
theorem victim_none {n : Nat} {r r' : ClockReplacer} (hr : r.Valid n)
    (h : r.victim = (none, r')) : r' = r ∧ ∀ f, r.has f = false := by
  unfold victim at h
  split at h
  · rename_i hsz
    exact ⟨(Prod.mk.inj h).2.symm, has_of_size_zero hsz⟩
  · rename_i hsz
    exfalso
    obtain ⟨f, hf⟩ := has_of_size hsz
    have hv := firstPass_valid r.refFlags.length hr
    have ht := firstPass_took r.refFlags.length r
    rcases hp : firstPass r.refFlags.length r with ⟨_ | f', s⟩
    · rw [hp] at h hv ht
      have hsome := secondPass_isSome hv ((ht f).trans hf)
      simp only [hv.flags] at h
      exact hsome (congrArg Prod.fst h)
    · rw [hp] at h
      cases h

end ClockReplacer

end MiniDbms
