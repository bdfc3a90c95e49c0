import MiniDbms.Lib.PagedProgram

/-!
# The frame rule

`h.join F` is the heap `h` with the pages `F` beside it. What a program does to `h` it does to
`h.join F` too, and the pages `F` stay as they are (`wp_frame`, `Runs.frame`), since a new page is
one that `h.join F` does not have.
-/

namespace Lib

namespace PagedProgram

variable {κ φ δ α β : Type}

/-- The pages of the frame beside those of the heap. -/
def Heap.join (h : Heap κ δ) (F : κ → Option δ) : Heap κ δ :=
  { h with page := fun p => (h.page p).or (F p) }

/-- No page is in the heap and in the frame. -/
def Heap.Disjoint (h : Heap κ δ) (F : κ → Option δ) : Prop := ∀ p, h.page p ≠ none → F p = none

section

variable [DecidableEq κ] {h : Heap κ δ} {F : κ → Option δ} {p : κ} {d : δ}

theorem Heap.join_set (h : Heap κ δ) (F : κ → Option δ) (p : κ) (d : δ) :
    (h.set p d).join F = (h.join F).set p d := by
  simp only [Heap.join, Heap.set, Heap.mk.injEq, and_true]
  funext q
  by_cases hq : q = p
  · simp [hq]
  · simp [hq]

theorem Heap.join_drop (hp : F p = none) : (h.drop p).join F = (h.join F).drop p := by
  simp only [Heap.join, Heap.drop, Heap.mk.injEq, and_true]
  funext q
  by_cases hq : q = p
  · simp [hq, hp]
  · simp [hq]

theorem Heap.Disjoint.set (hd : h.Disjoint F) (hp : F p = none) : (h.set p d).Disjoint F := by
  intro q hq
  by_cases he : q = p
  · rw [he, hp]
  · rw [Heap.page_set_of_ne _ he] at hq
    exact hd q hq

theorem Heap.Disjoint.drop (hd : h.Disjoint F) : (h.drop p).Disjoint F := by
  intro q hq
  rw [Heap.page_drop] at hq
  split at hq
  · exact absurd rfl hq
  · exact hd q hq

/-- The store with the pages of the frame. -/
def Store.join (s : Store κ φ δ) (F : κ → Option δ) : Store κ φ δ :=
  { s with heap := s.heap.join F }

/-- The page in hand is not in the frame either. -/
structure Store.Disjoint (s : Store κ φ δ) (F : κ → Option δ) : Prop where
  heap : s.heap.Disjoint F
  held : ∀ {p f u}, s.held = some (p, f, u) → F p = none

variable {c : Context κ δ} {x : PagedProgram κ φ δ α} {s : Store κ φ δ}
  {Q : α → Store κ φ δ → Prop}

/-- A program leaves the frame alone. -/
theorem wp_frame (hs : s.Disjoint F) (hx : x.wp c Q s) :
    x.wp c (fun a t => ∃ t₀, Q a t₀ ∧ t = t₀.join F) (s.join F) := by
  have hnone : ∀ {p f u}, (none : Option (κ × φ × Bool)) = some (p, f, u) → F p = none :=
    fun he => by cases he
  induction x generalizing s with
  | ret a => exact ⟨s, hx, rfl⟩
  | diverge => exact hx
  | fetch p k ih =>
    obtain ⟨hheld, d, hd, hk⟩ := hx
    have hp : F p = none := hs.heap p (by rw [hd]; exact Option.some_ne_none d)
    refine ⟨hheld, d, ?_, fun f =>
      ih (some (f, d)) (s := ⟨s.heap, some (p, f, false), none⟩) ⟨hs.heap, fun he => ?_⟩ (hk f)⟩
    · show (s.heap.page p).or (F p) = some d
      rw [hd]
      rfl
    · cases he
      exact hp
  | put f d mark k ih =>
    obtain ⟨p, u, u', hheld, hmark, hk⟩ := hx
    have hp : F p = none := hs.held hheld
    refine ⟨p, u, u', hheld, ?_, ?_⟩
    · refine hmark.imp id fun hm => ⟨hm.1, hm.2.1, ?_⟩
      show (s.heap.page p).or (F p) = some d
      rw [hm.2.2]
      rfl
    · have hk' := ih (s := ⟨s.heap.set p d, some (p, f, u'), none⟩)
        ⟨hs.heap.set hp, fun he => by cases he; exact hp⟩ hk
      rw [Store.join, Heap.join_set] at hk'
      exact hk'
  | unpin p dirty k ih =>
    obtain ⟨f, u, hheld, hd, hk⟩ := hx
    exact ⟨f, u, hheld, hd, ih _ (s := ⟨s.heap, none, some p⟩) ⟨hs.heap, hnone⟩ hk⟩
  | alloc k ih =>
    obtain ⟨hheld, hfail, hk⟩ := hx
    refine ⟨hheld, ih _ (s := ⟨s.heap.fail, none, none⟩) ⟨hs.heap, hnone⟩ hfail,
      fun p f hp hg hshared => ?_⟩
    obtain ⟨hp₀, hF⟩ := Option.or_eq_none_iff.mp hp
    have hk' := ih _ (s := ⟨s.heap.set p c.blank, some (p, f, false), none⟩)
      ⟨hs.heap.set hF, fun he => by cases he; exact hF⟩ (hk p f hp₀ hg hshared)
    rw [Store.join, Heap.join_set] at hk'
    exact hk'
  | free p k ih =>
    obtain ⟨hheld, hp, hg, hshared, hk⟩ := hx
    have hF : F p = none := hs.heap p hp
    refine ⟨hheld, ?_, hg, hshared, ?_⟩
    · show (s.heap.page p).or (F p) ≠ none
      rw [hF, Option.or_none]
      exact hp
    · have hk' := ih _ (s := ⟨s.heap.drop p, none, none⟩) ⟨hs.heap.drop, hnone⟩ hk
      rw [Store.join, Heap.join_drop hF] at hk'
      exact hk'
  | flush p k ih => exact ⟨hx.1, hx.2.1, ih _ hs hx.2.2⟩
  | flushAll k ih => exact ⟨hx.1, ih hs hx.2⟩

theorem Runs.frame {Q : α → Heap κ δ → Prop} (hd : h.Disjoint F) (hx : Runs c x Q h) :
    Runs c x (fun a h' => ∃ h₀, Q a h₀ ∧ h' = h₀.join F) (h.join F) := by
  intro r
  refine wp_mono (fun a t ht => ?_) (wp_frame (s := ⟨h, none, r⟩)
    ⟨hd, fun he => by cases he⟩ (hx r))
  obtain ⟨t₀, ⟨hheld, hQ⟩, rfl⟩ := ht
  exact ⟨hheld, t₀.heap, hQ, rfl⟩

end

end PagedProgram

end Lib
