import MiniDbms.Buffer.ClockReplacer
import MiniDbms.Lib.Clock

/-!
# The clock replacer is a clock

`Victim` makes two bounded passes. The first clears the bits of all present frames when it takes
none, so the second may take the first present frame without looking at its bit. Together they do
what the unbounded search of the clock does (`victim_takes`), in every state that calls lead to
(`clock_run`).
-/

namespace MiniDbms

open Lib

namespace ClockReplacer

variable {n k : Nat} {f : FrameId} {r r' : ClockReplacer}

/-- The hand, the frames in the replacer and their bits. -/
def clock (r : ClockReplacer) : Clock := ⟨r.clockHand, r.has, r.flag⟩

theorem flag_clearFlag (r : ClockReplacer) (g : FrameId) :
    r.clearFlag.flag g = if g = r.clockHand then false else r.flag g := by
  rw [flag, flag, clearFlag, getD_set]
  by_cases hg : g = r.clockHand
  · rw [if_pos hg, hg]
    split
    · rfl
    · rename_i hlt
      rw [List.getD_eq_getElem?_getD, List.getElem?_eq_none]
      · rfl
      · exact Nat.le_of_not_lt fun h => hlt ⟨rfl, h⟩
  · rw [if_neg hg, if_neg fun h => hg h.1.symm]

theorem clock_advance (hr : r.Valid n) : r.advance.clock = r.clock.advance n := by
  rw [clock, advance, hr.flags]
  rfl

theorem clock_clearFlag (r : ClockReplacer) : r.clearFlag.clock = r.clock.clear := by
  have hflag : r.clearFlag.flag = Function.update r.flag r.clockHand false := by
    funext g
    rw [flag_clearFlag, Function.update_apply]
  rw [clock, hflag]
  rfl

theorem clock_takeHand (r : ClockReplacer) : r.takeHand.clock = r.clock.remove := by
  have hhas : r.takeHand.has = Function.update r.has r.clockHand false := by
    funext g
    rw [has_takeHand, Function.update_apply]
  rw [clock, hhas]
  rfl

/-! ## The two passes -/

theorem takes_hand (hr : r.Valid n) (hp : r.has r.clockHand = true)
    (hm : r.flag r.clockHand = false) :
    Clock.Takes n 0 r.clock r.clockHand r.takeHand.advance.clock := by
  rw [clock_advance hr.takeHand, clock_takeHand]
  exact .take hp hm

/-- A frame that the first pass takes is the one that the clock takes. -/
theorem firstPass_takes : ∀ (k : Nat) {r : ClockReplacer}, r.Valid n →
    firstPass k r = (some f, r') → ∃ j, Clock.Takes n j r.clock f r'.clock := by
  intro k
  induction k with
  | zero =>
    intro r hr h
    cases h
  | succ k ih =>
    intro r hr h
    rw [firstPass] at h
    split at h
    · rename_i hp
      split at h
      · rename_i hm
        obtain ⟨j, htakes⟩ := ih hr.clearFlag.advance h
        rw [clock_advance hr.clearFlag, clock_clearFlag] at htakes
        exact ⟨j + 1, .clear hp hm htakes⟩
      · rename_i hm
        cases h
        exact ⟨0, takes_hand hr hp (Bool.eq_false_of_not_eq_true hm)⟩
    · rename_i hp
      obtain ⟨j, htakes⟩ := ih hr.advance h
      rw [clock_advance hr] at htakes
      exact ⟨j + 1, .skip (Bool.eq_false_of_not_eq_true hp) htakes⟩

/-- The bits that a pass has not seen stay clear if they are. -/
theorem firstPass_flag_false : ∀ (k : Nat) {r : ClockReplacer} {g : FrameId}, r.flag g = false →
    (firstPass k r).2.flag g = false := by
  intro k
  induction k with
  | zero => exact fun h => h
  | succ k ih =>
    intro r g h
    rw [firstPass]
    split
    · split
      · apply ih
        show r.clearFlag.flag g = false
        rw [flag_clearFlag, h, ite_self]
      · exact h
    · exact ih h

/-- A pass that takes no frame has cleared the bits of the present frames it has seen, and the
search goes on where it ends. -/
theorem firstPass_none : ∀ (k : Nat) {r : ClockReplacer}, r.Valid n → firstPass k r = (none, r') →
    (∀ i < k, r.has ((r.clockHand + i) % n) = true → r'.flag ((r.clockHand + i) % n) = false) ∧
      ∀ j c, Clock.Takes n j r'.clock f c → ∃ j, Clock.Takes n j r.clock f c := by
  intro k
  induction k with
  | zero =>
    intro r hr h
    cases h
    exact ⟨nofun, fun j c htakes => ⟨j, htakes⟩⟩
  | succ k ih =>
    intro r hr h
    have hnext : ∀ i, ((r.clockHand + 1) % n + i) % n = (r.clockHand + (i + 1)) % n := by
      intro i
      rw [Nat.mod_add_mod, Nat.add_assoc, Nat.add_comm 1]
    rw [firstPass] at h
    split at h
    · rename_i hp
      split at h
      · rename_i hm
        obtain ⟨hflags, hon⟩ := ih hr.clearFlag.advance h
        rw [clock_advance hr.clearFlag, clock_clearFlag] at hon
        refine ⟨fun i hi hin => ?_, fun j c htakes => ?_⟩
        · cases i with
          | zero =>
            have hclear : r.clearFlag.advance.flag ((r.clockHand + 0) % n) = false := by
              show r.clearFlag.flag _ = false
              rw [flag_clearFlag, Nat.add_zero, Nat.mod_eq_of_lt hr.hand, if_pos rfl]
            have hlater := firstPass_flag_false k hclear
            rw [h] at hlater
            exact hlater
          | succ i =>
            have hlater := hflags i (Nat.lt_of_succ_lt_succ hi)
            simp only [advance, clearFlag, List.length_set, hr.flags, hnext] at hlater
            exact hlater hin
        · obtain ⟨j, htakes⟩ := hon j c htakes
          exact ⟨j + 1, .clear hp hm htakes⟩
      · cases h
    · rename_i hp
      have hp : r.has r.clockHand = false := Bool.eq_false_of_not_eq_true hp
      obtain ⟨hflags, hon⟩ := ih hr.advance h
      rw [clock_advance hr] at hon
      refine ⟨fun i hi hin => ?_, fun j c htakes => ?_⟩
      · cases i with
        | zero =>
          rw [Nat.add_zero, Nat.mod_eq_of_lt hr.hand, hp] at hin
          cases hin
        | succ i =>
          have hlater := hflags i (Nat.lt_of_succ_lt_succ hi)
          simp only [advance, hr.flags, hnext] at hlater
          exact hlater hin
      · obtain ⟨j, htakes⟩ := hon j c htakes
        exact ⟨j + 1, .skip hp htakes⟩

/-- If no present frame has its bit set, the second pass takes what the clock takes. -/
theorem secondPass_takes : ∀ (k : Nat) {r : ClockReplacer}, r.Valid n →
    (∀ g, r.has g = true → r.flag g = false) → secondPass k r = (some f, r') →
    ∃ j, Clock.Takes n j r.clock f r'.clock := by
  intro k
  induction k with
  | zero =>
    intro r hr hclear h
    cases h
  | succ k ih =>
    intro r hr hclear h
    rw [secondPass] at h
    split at h
    · rename_i hp
      cases h
      exact ⟨0, takes_hand hr hp (hclear _ hp)⟩
    · rename_i hp
      obtain ⟨j, htakes⟩ := ih hr.advance hclear h
      rw [clock_advance hr] at htakes
      exact ⟨j + 1, .skip (Bool.eq_false_of_not_eq_true hp) htakes⟩

/-- The victim is the frame that the clock takes, and the same hand and bits are left. -/
theorem victim_takes (hr : r.Valid n) (h : r.victim = (some f, r')) :
    ∃ j, Clock.Takes n j r.clock f r'.clock := by
  unfold victim at h
  split at h
  · cases h
  · rw [hr.flags] at h
    have htook := firstPass_took n r
    have hv := firstPass_valid n hr
    rcases hp : firstPass n r with ⟨_ | g, s⟩
    · rw [hp] at h htook hv
      dsimp only at h
      rw [hv.flags] at h
      obtain ⟨hflags, hon⟩ := firstPass_none n hr hp
      have hclear : ∀ g, s.has g = true → s.flag g = false := by
        intro g hg
        have hg : r.has g = true := (htook g).symm.trans hg
        obtain ⟨i, hi, rfl⟩ := exists_turn hr.hand (hr.frames ▸ lt_of_has hg)
        exact hflags i hi hg
      obtain ⟨j, htakes⟩ := secondPass_takes n hv hclear h
      exact hon j _ htakes
    · rw [hp] at h
      cases h
      exact firstPass_takes n hr hp

/-! ## Runs of calls -/

inductive Call where
  | pin (frameId : Int32)
  | unpin (frameId : Int32)
  | victim

/-- A call; `Pin` and `Unpin` ignore what is not a frame. -/
def call (r : ClockReplacer) : Call → ClockReplacer
  | .pin frameId => if 0 ≤ frameId.toInt then r.pin frameId.toInt.toNat else r
  | .unpin frameId => if 0 ≤ frameId.toInt then r.unpin frameId.toInt.toNat else r
  | .victim => r.victim.2

def runCalls (r : ClockReplacer) (calls : List Call) : ClockReplacer := calls.foldl call r

/-- What calls keep: the vectors and the hand fit, and every frame in the replacer is an
`int32_t`. -/
structure Fits (n : Nat) (r : ClockReplacer) : Prop where
  valid : 0 < n → r.Valid n
  empty : n = 0 → r = new 0
  small : ∀ f, r.has f = true → f < 2 ^ 31

theorem fits_new (n : Nat) : (new n).Fits n := by
  refine ⟨new_valid, fun h => by rw [h], fun f hf => ?_⟩
  rw [has_new] at hf
  cases hf

theorem toNat_lt (x : Int32) : x.toInt.toNat < 2 ^ 31 := by
  have hlt := x.toInt_lt
  omega

theorem call_fits (hr : r.Fits n) (c : Call) : (r.call c).Fits n := by
  cases Nat.eq_zero_or_pos n with
  | inl hn =>
    subst hn
    have hsame : (new 0).call c = new 0 := by
      cases c with
      | pin frameId => exact ite_self _
      | unpin frameId => exact ite_self _
      | victim => rfl
    rw [hr.empty rfl, hsame]
    exact fits_new 0
  | inr hn =>
    have hv := hr.valid hn
    cases c with
    | pin frameId =>
      refine ⟨fun _ => ?_, fun h => absurd h hn.ne', fun g hg => ?_⟩
      · rw [call]
        split
        · exact hv.pin _
        · exact hv
      · rw [call] at hg
        split at hg
        · rw [has_pin] at hg
          split at hg
          · cases hg
          · exact hr.small g hg
        · exact hr.small g hg
    | unpin frameId =>
      refine ⟨fun _ => ?_, fun h => absurd h hn.ne', fun g hg => ?_⟩
      · rw [call]
        split
        · exact hv.unpin _
        · exact hv
      · rw [call] at hg
        split at hg
        · by_cases hlt : frameId.toInt.toNat < n
          · rw [has_unpin hv hlt] at hg
            split at hg
            · rename_i heq
              rw [heq]
              exact toNat_lt frameId
            · exact hr.small g hg
          · rw [unpin, hv.frames, if_neg hlt] at hg
            exact hr.small g hg
        · exact hr.small g hg
    | victim =>
      refine ⟨fun _ => victim_valid hv, fun h => absurd h hn.ne', fun g hg => ?_⟩
      have htook := victim_took r
      have hg : r.victim.2.has g = true := hg
      rcases hvictim : r.victim with ⟨_ | f, r'⟩
      · rw [hvictim] at htook hg
        exact hr.small g ((htook g).symm.trans hg)
      · rw [hvictim] at htook hg
        rw [htook.2 g] at hg
        split at hg
        · cases hg
        · exact hr.small g hg

theorem runCalls_fits (calls : List Call) : ∀ {r : ClockReplacer}, r.Fits n →
    (r.runCalls calls).Fits n := by
  induction calls with
  | nil => exact fun hr => hr
  | cons c calls ih => exact fun hr => ih (call_fits hr c)

theorem victim_none_iff (hr : r.Fits n) :
    (∃ r', r.victim = (none, r')) ↔ ∀ f, r.has f = false := by
  constructor
  · rintro ⟨r', h⟩
    cases Nat.eq_zero_or_pos n with
    | inl hn =>
      subst hn
      rw [hr.empty rfl]
      exact fun f => has_new 0 f
    | inr hn => exact (victim_none (hr.valid hn) h).2
  · intro hno
    rcases h : r.victim with ⟨_ | f, r'⟩
    · exact ⟨r', rfl⟩
    · have hf := (victim_some h).1
      rw [hno f] at hf
      cases hf

/-- `Victim` is the search of the clock. -/
structure IsClock (n : Nat) (r : ClockReplacer) : Prop where
  hand : 0 < n → r.clockHand < n
  /-- It returns false exactly if no frame is in the replacer. -/
  fails : (∃ r', r.victim = (none, r')) ↔ ∀ f, r.has f = false
  /-- It takes the frame that the clock takes, and leaves the clock as it is then. -/
  takes : ∀ f c, (∃ k, Clock.Takes n k r.clock f c) ↔ ∃ r', r.victim = (some f, r') ∧ r'.clock = c
  /-- The result fits a `FrameId`, and exactly this frame leaves. -/
  frame : ∀ f r', r.victim = (some f, r') →
    f < n ∧ f < 2 ^ 31 ∧ ∀ g, r'.has g = if g = f then false else r.has g
  /-- A frame whose bit is set is taken after a whole turn only. -/
  secondChance : ∀ k f c, Clock.Takes n k r.clock f c → r.flag f = true → n ≤ k

theorem Fits.isClock (hr : r.Fits n) : IsClock n r := by
  have hpos : ∀ {f}, r.has f = true → 0 < n := by
    intro f hf
    rw [Nat.pos_iff_ne_zero]
    intro hn
    rw [hr.empty hn, has_new] at hf
    cases hf
  refine ⟨fun hn => (hr.valid hn).hand, victim_none_iff hr, fun f c => ⟨?_, ?_⟩, fun f r' h => ?_,
    fun k f c htakes hflag => ?_⟩
  · rintro ⟨k, htakes⟩
    have hf : r.has f = true := htakes.present.1
    rcases h : r.victim with ⟨_ | g, r'⟩
    · rw [(victim_none_iff hr).mp ⟨r', h⟩ f] at hf
      cases hf
    · obtain ⟨j, htakes'⟩ := victim_takes (hr.valid (hpos hf)) h
      obtain ⟨-, rfl, rfl⟩ := htakes.unique htakes'
      exact ⟨r', rfl, rfl⟩
  · rintro ⟨r', h, rfl⟩
    exact victim_takes (hr.valid (hpos (victim_some h).1)) h
  · obtain ⟨hf, hothers⟩ := victim_some h
    exact ⟨(hr.valid (hpos hf)).frames ▸ lt_of_has hf, hr.small f hf, hothers⟩
  · have hf : r.has f = true := htakes.present.1
    exact htakes.whole_turn (hr.valid (hpos hf)).hand hflag

/-- After any calls on a new replacer for any number of frames, it is a clock. -/
theorem clock_run (n : Nat) (calls : List Call) : IsClock n ((new n).runCalls calls) :=
  (runCalls_fits calls (fits_new n)).isClock

/-- Without frames the hand is at no frame. -/
theorem hand_not_lt_zero_frames : ¬ ∀ (n : Nat) (calls : List Call),
    ((new n).runCalls calls).clockHand < n :=
  fun h => Nat.not_lt_zero _ (h 0 [])

end ClockReplacer

end MiniDbms
