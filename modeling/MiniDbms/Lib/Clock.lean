import Mathlib.Data.Nat.ModEq
import Mathlib.Logic.Function.Basic

/-!
# The clock algorithm

A hand goes around `n` frames. It skips absent frames, clears the reference bits that are set, and
takes the first present frame whose bit is clear. `Takes n k c f c'` is a search of any length in
which the hand passes `k` frames and takes `f`. There is at most one such search (`Takes.unique`),
and a frame whose bit is set is taken only after a whole turn (`Takes.whole_turn`).
-/

namespace Lib

/-- The hand, the frames that can be taken, and their reference bits. -/
@[ext] structure Clock where
  hand : Nat
  present : Nat → Bool
  marked : Nat → Bool

namespace Clock

variable {n k k' f f' : Nat} {c c' c'' : Clock}

/-- The hand moves on. -/
def advance (n : Nat) (c : Clock) : Clock := { c with hand := (c.hand + 1) % n }

/-- The bit of the frame at the hand is cleared. -/
def clear (c : Clock) : Clock := { c with marked := Function.update c.marked c.hand false }

/-- The frame at the hand is taken out. -/
def remove (c : Clock) : Clock := { c with present := Function.update c.present c.hand false }

/-- The search for a frame. -/
inductive Takes (n : Nat) : Nat → Clock → Nat → Clock → Prop
  | take {c : Clock} (hp : c.present c.hand = true) (hm : c.marked c.hand = false) :
      Takes n 0 c c.hand (c.remove.advance n)
  | clear {k f : Nat} {c c' : Clock} (hp : c.present c.hand = true) (hm : c.marked c.hand = true)
      (h : Takes n k (c.clear.advance n) f c') : Takes n (k + 1) c f c'
  | skip {k f : Nat} {c c' : Clock} (hp : c.present c.hand = false)
      (h : Takes n k (c.advance n) f c') : Takes n (k + 1) c f c'

namespace Takes

theorem unique (h : Takes n k c f c') (h' : Takes n k' c f' c'') : k = k' ∧ f = f' ∧ c' = c'' := by
  induction h generalizing k' with
  | take hp hm =>
    cases h' with
    | take => exact ⟨rfl, rfl, rfl⟩
    | clear _ hm' => exact absurd (hm.symm.trans hm') Bool.false_ne_true
    | skip hp' => exact absurd (hp'.symm.trans hp) Bool.false_ne_true
  | clear hp hm _ ih =>
    cases h' with
    | take _ hm' => exact absurd (hm'.symm.trans hm) Bool.false_ne_true
    | clear _ _ h' =>
      obtain ⟨rfl, hf, hc⟩ := ih h'
      exact ⟨rfl, hf, hc⟩
    | skip hp' => exact absurd (hp'.symm.trans hp) Bool.false_ne_true
  | skip hp _ ih =>
    cases h' with
    | take hp' => exact absurd (hp.symm.trans hp') Bool.false_ne_true
    | clear hp' => exact absurd (hp.symm.trans hp') Bool.false_ne_true
    | skip _ h' =>
      obtain ⟨rfl, hf, hc⟩ := ih h'
      exact ⟨rfl, hf, hc⟩

/-- The frame was present, and it is the only one that leaves. -/
theorem present (h : Takes n k c f c') :
    c.present f = true ∧ c'.present = Function.update c.present f false := by
  induction h with
  | take hp => exact ⟨hp, rfl⟩
  | clear _ _ _ ih => exact ih
  | skip _ _ ih => exact ih

/-- The frame is where the hand is after `k` moves. -/
theorem position (hc : c.hand < n) (h : Takes n k c f c') : f = (c.hand + k) % n := by
  induction h with
  | take => exact (Nat.mod_eq_of_lt hc).symm
  | @clear k f c c' _ _ _ ih =>
    have hlt : (c.hand + 1) % n < n := Nat.mod_lt _ (Nat.zero_lt_of_lt hc)
    rw [ih hlt]
    show ((c.hand + 1) % n + k) % n = _
    rw [Nat.mod_add_mod, Nat.add_assoc, Nat.add_comm 1]
  | @skip k f c c' _ _ ih =>
    have hlt : (c.hand + 1) % n < n := Nat.mod_lt _ (Nat.zero_lt_of_lt hc)
    rw [ih hlt]
    show ((c.hand + 1) % n + k) % n = _
    rw [Nat.mod_add_mod, Nat.add_assoc, Nat.add_comm 1]

/-- The hand has been at a marked frame before it takes it. -/
theorem passed (hc : c.hand < n) (h : Takes n k c f c') (hf : c.marked f = true) :
    ∃ j < k, (c.hand + j) % n = f := by
  induction h with
  | take _ hm => exact absurd (hm.symm.trans hf) Bool.false_ne_true
  | @clear k f c c' hp hm h ih =>
    by_cases hne : f = c.hand
    · exact ⟨0, Nat.succ_pos k, by rw [Nat.add_zero, Nat.mod_eq_of_lt hc, hne]⟩
    · have hlt : (c.hand + 1) % n < n := Nat.mod_lt _ (Nat.zero_lt_of_lt hc)
      have hmarked : Function.update c.marked c.hand false f = true := by
        rw [Function.update_of_ne hne, hf]
      obtain ⟨j, hj, hjf⟩ := ih hlt hmarked
      have hjf : ((c.hand + 1) % n + j) % n = f := hjf
      rw [Nat.mod_add_mod, Nat.add_assoc, Nat.add_comm 1] at hjf
      exact ⟨j + 1, Nat.succ_lt_succ hj, hjf⟩
  | @skip k f c c' hp h ih =>
    have hlt : (c.hand + 1) % n < n := Nat.mod_lt _ (Nat.zero_lt_of_lt hc)
    obtain ⟨j, hj, hjf⟩ := ih hlt hf
    have hjf : ((c.hand + 1) % n + j) % n = f := hjf
    rw [Nat.mod_add_mod, Nat.add_assoc, Nat.add_comm 1] at hjf
    exact ⟨j + 1, Nat.succ_lt_succ hj, hjf⟩

/-- A marked frame is taken only after the hand has gone around once. -/
theorem whole_turn (hc : c.hand < n) (h : Takes n k c f c') (hf : c.marked f = true) : n ≤ k := by
  obtain ⟨j, hj, hjf⟩ := h.passed hc hf
  rw [h.position hc] at hjf
  have hmod : j ≡ k [MOD n] := Nat.ModEq.add_left_cancel' c.hand hjf
  obtain ⟨m, hm⟩ := (Nat.modEq_iff_dvd' hj.le).mp hmod
  cases m with
  | zero => omega
  | succ m =>
    rw [Nat.mul_succ] at hm
    omega

end Takes

end Clock

end Lib
