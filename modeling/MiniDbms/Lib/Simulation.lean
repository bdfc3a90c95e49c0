import Mathlib.Logic.Basic

/-!
# Labelled transition systems

A `System` has initial states and labelled steps, a `Run` is a sequence of steps, and a trace is the
list of the labels of a run from an initial state. `Simulates R c a`: every step of the system `c`
is a step of the system `a` with the same label, up to the relation `R` between their states. Then
every run of `c` is one of `a` (`Simulates.run`), and every trace of `c` is one of `a`
(`Simulates.trace`).

A label may consist of a request and an answer. `Answering` says that every request is answered in
the states that satisfy an invariant, and then every list of requests has a run
(`Answering.exists_run`).
-/

namespace Lib

variable {σ τ ε ι ο : Type}

structure System (σ ε : Type) where
  init : σ → Prop
  step : σ → ε → σ → Prop

namespace System

/-- The steps with the given labels lead from one state to the other. -/
inductive Run (c : System σ ε) : σ → List ε → σ → Prop
  | nil (s : σ) : Run c s [] s
  | cons {s s' s'' : σ} {e : ε} {es : List ε} (hstep : c.step s e s') (hrun : Run c s' es s'') :
      Run c s (e :: es) s''

/-- The labels of a run from an initial state. -/
def Trace (c : System σ ε) (es : List ε) : Prop := ∃ s s', c.init s ∧ c.Run s es s'

variable {c : System σ ε} {s s' : σ} {e : ε} {es : List ε}

/-! ## Simulation -/

/-- Every step of `c` is a step of `a` with the same label. -/
structure Simulates (R : σ → τ → Prop) (c : System σ ε) (a : System τ ε) : Prop where
  init : ∀ {s}, c.init s → ∃ t, a.init t ∧ R s t
  step : ∀ {s t e s'}, R s t → c.step s e s' → ∃ t', a.step t e t' ∧ R s' t'

variable {R : σ → τ → Prop} {a : System τ ε} {t : τ}

theorem Simulates.run (h : Simulates R c a) (hrun : c.Run s es s') (hR : R s t) :
    ∃ t', a.Run t es t' ∧ R s' t' := by
  induction hrun generalizing t with
  | nil => exact ⟨t, .nil t, hR⟩
  | cons hstep _ ih =>
    obtain ⟨t₁, hstep', hR₁⟩ := h.step hR hstep
    obtain ⟨t', hrun', hR'⟩ := ih hR₁
    exact ⟨t', .cons hstep' hrun', hR'⟩

theorem Simulates.trace (h : Simulates R c a) (ht : c.Trace es) : a.Trace es := by
  obtain ⟨s, s', hs, hrun⟩ := ht
  obtain ⟨t, ht, hR⟩ := h.init hs
  obtain ⟨t', hrun', -⟩ := h.run hrun hR
  exact ⟨t, t', ht, hrun'⟩

/-! ## Requests and answers -/

/-- Every request is answered in the states that satisfy the invariant, which is kept. -/
structure Answering (P : σ → Prop) (good : ι → Prop) (c : System σ (ι × ο)) : Prop where
  answers : ∀ {s} i, P s → good i → ∃ o s', c.step s (i, o) s'
  keeps : ∀ {s e s'}, P s → c.step s e s' → P s'

/-- A list of requests has a run with as many answers. -/
theorem Answering.exists_run {P : σ → Prop} {good : ι → Prop} {c : System σ (ι × ο)}
    (h : Answering P good c) : ∀ (is : List ι) {s : σ}, P s → (∀ i ∈ is, good i) →
      ∃ os s', os.length = is.length ∧ c.Run s (is.zip os) s' := by
  intro is
  induction is with
  | nil => exact fun {s} _ _ => ⟨[], s, rfl, .nil s⟩
  | cons i is ih =>
    intro s hs hgood
    obtain ⟨o, s₁, hstep⟩ := h.answers i hs (hgood i List.mem_cons_self)
    obtain ⟨os, s', hlength, hrun⟩ :=
      ih (h.keeps hs hstep) fun j hj => hgood j (List.mem_cons_of_mem _ hj)
    exact ⟨o :: os, s', congrArg (· + 1) hlength, .cons hstep hrun⟩

end System

end Lib
