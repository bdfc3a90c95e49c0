import MiniDbms.Lib.PagedProgram

/-!
# Enumerations

An iterator is a program `next : σ → PagedProgram κ φ δ (Option α × σ)`: each call returns the next
element, or nothing at the end. `Yields c next h Q l s` says that calls from the state `s` on return
the elements of `l`, then nothing, that they end in a state with `Q`, and that they leave the pages
`h` as they are. It is established with an invariant (`yields_of_invariant`); a loop that makes one
call is described by `Yields.call`.
-/

namespace Lib

namespace PagedProgram

variable {κ φ δ α β σ : Type} [DecidableEq κ]

/-- From the state `s` on, the elements of the list are returned, and then nothing. -/
def Yields (c : Context κ δ) (next : σ → PagedProgram κ φ δ (Option α × σ)) (h : Heap κ δ)
    (Q : σ → Prop) : List α → σ → Prop
  | [], s => Runs c (next s) (fun r h' => h' = h ∧ r.1 = none ∧ Q r.2) h
  | a :: l, s => Runs c (next s) (fun r h' => h' = h ∧ r.1 = some a ∧ Yields c next h Q l r.2) h

variable {c : Context κ δ} {next : σ → PagedProgram κ φ δ (Option α × σ)} {h : Heap κ δ}
  {Q R : σ → Prop} {l : List α} {s : σ}

theorem yields_nil (hs : Runs c (next s) (fun r h' => h' = h ∧ r.1 = none ∧ Q r.2) h) :
    Yields c next h Q [] s := hs

theorem yields_cons {a : α}
    (hs : Runs c (next s) (fun r h' => h' = h ∧ r.1 = some a ∧ Yields c next h Q l r.2) h) :
    Yields c next h Q (a :: l) s := hs

/-- A relation between states and the elements that are left, which every call keeps. -/
theorem yields_of_invariant (I : List α → σ → Prop)
    (done : ∀ s, I [] s → Runs c (next s) (fun r h' => h' = h ∧ r.1 = none ∧ Q r.2) h)
    (step : ∀ a l s, I (a :: l) s →
      Runs c (next s) (fun r h' => h' = h ∧ r.1 = some a ∧ I l r.2) h) :
    ∀ (l : List α) (s : σ), I l s → Yields c next h Q l s := by
  intro l
  induction l with
  | nil => exact done
  | cons a l ih => exact fun s hs => (step a l s hs).mono fun r h' hr => ⟨hr.1, hr.2.1, ih _ hr.2.2⟩

/-- One call, and what follows it. -/
theorem Yields.call {g : Option α × σ → PagedProgram κ φ δ β} {P : β → Heap κ δ → Prop}
    (hy : Yields c next h Q l s)
    (done : ∀ s, l = [] → Q s → Runs c (g (none, s)) P h)
    (more : ∀ a rest s, l = a :: rest → Yields c next h Q rest s → Runs c (g (some a, s)) P h) :
    Runs c (next s >>= g) P h := by
  cases l with
  | nil =>
    refine (Runs.mono hy fun r h' hr => ?_).bind
    obtain ⟨r, s'⟩ := r
    obtain ⟨rfl, rfl, hQ⟩ := hr
    exact done s' rfl hQ
  | cons a rest =>
    refine (Runs.mono hy fun r h' hr => ?_).bind
    obtain ⟨r, s'⟩ := r
    obtain ⟨rfl, rfl, hrest⟩ := hr
    exact more a rest s' rfl hrest

end PagedProgram

end Lib
