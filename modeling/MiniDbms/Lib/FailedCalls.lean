import MiniDbms.Lib.PagedProgram

/-!
# Failed calls

`x.Strict E`: once a fetch, an allocation or a flush of the program has failed, every answer that it
can still give is in `E`, whatever its other calls answer. Pages are freed, and all pages flushed,
on the way to such answers only. So an answer that is not in `E` says that no call has failed.
`Strict.bind` and the rules for one call are what proofs about programs use.
-/

namespace Lib

/-- The result is an error. -/
def IsError {ε α : Type} (r : Except ε α) : Prop := ∃ e, r = .error e

section

variable {ε α : Type} {r : Except ε α}

theorem isError_error (e : ε) : IsError (.error e : Except ε α) := ⟨e, rfl⟩

theorem not_isError_ok (a : α) : ¬ IsError (.ok a : Except ε α) := fun ⟨_, he⟩ => by cases he

end

namespace PagedProgram

variable {κ φ δ α β : Type}

/-- After a failed call every answer is in `E`. -/
def Strict (E : α → Prop) : PagedProgram κ φ δ α → Prop
  | .ret _ => True
  | .diverge => True
  | .fetch _ k => (k none).Always E ∧ ∀ f d, (k (some (f, d))).Strict E
  | .put _ _ _ k => k.Strict E
  | .unpin _ _ k => ∀ b, (k b).Strict E
  | .alloc k => (k none).Always E ∧ ∀ p f d, (k (some (p, f, d))).Strict E
  | .free _ k => ∀ b, (k b).Always E
  | .flush _ k => (k false).Always E ∧ (k true).Strict E
  | .flushAll k => k.Always E

section

variable {x : PagedProgram κ φ δ α} {g : α → PagedProgram κ φ δ β} {E : α → Prop} {F : β → Prop}

theorem strict_pure (a : α) : (pure a : PagedProgram κ φ δ α).Strict E := trivial

/-- A program whose answers are in `E` anyhow. -/
theorem strict_of_always (hx : x.Always E) : x.Strict E := by
  induction x with
  | ret a => exact trivial
  | diverge => exact trivial
  | fetch p k ih => exact ⟨hx _, fun f d => ih _ (hx _)⟩
  | put f d mark k ih => exact ih hx
  | unpin p dirty k ih => exact fun b => ih b (hx b)
  | alloc k ih => exact ⟨hx _, fun p f d => ih _ (hx _)⟩
  | free p k ih => exact hx
  | flush p k ih => exact ⟨hx _, ih _ (hx _)⟩
  | flushAll k ih => exact hx

/-- A sequence of two programs: the second one passes the error on, and is strict after the answers
that the first one can give. -/
theorem Strict.bind_of {P : α → Prop} (hx : x.Strict E) (hP : x.Always P)
    (hfailed : ∀ a, E a → (g a).Always F) (hg : ∀ a, P a → (g a).Strict F) :
    (x >>= g).Strict F := by
  show (x.bind g).Strict F
  induction x with
  | ret a => exact hg a hP
  | diverge => exact trivial
  | fetch p k ih => exact ⟨always_bind hx.1 hfailed, fun f d => ih _ (hx.2 f d) (hP _)⟩
  | put f d mark k ih => exact ih hx hP
  | unpin p dirty k ih => exact fun b => ih b (hx b) (hP b)
  | alloc k ih => exact ⟨always_bind hx.1 hfailed, fun p f d => ih _ (hx.2 p f d) (hP _)⟩
  | free p k ih => exact fun b => always_bind (hx b) hfailed
  | flush p k ih => exact ⟨always_bind hx.1 hfailed, ih _ hx.2 (hP _)⟩
  | flushAll k ih => exact always_bind hx hfailed

theorem Strict.bind (hx : x.Strict E) (hfailed : ∀ a, E a → (g a).Always F)
    (hg : ∀ a, (g a).Strict F) : (x >>= g).Strict F :=
  hx.bind_of (always_true x) hfailed fun a _ => hg a

/-- A program that goes on after a success, and otherwise ends with an answer in `F`. -/
theorem Strict.bind_ok {ε : Type} {x : PagedProgram κ φ δ (Except ε α)}
    {g : Except ε α → PagedProgram κ φ δ β} (hx : x.Strict IsError)
    (failed : ∀ e, (g (.error e)).Always F) (hg : ∀ a, (g (.ok a)).Strict F) :
    (x >>= g).Strict F := by
  have herror : ∀ r, IsError r → (g r).Always F := by
    intro r hr
    obtain ⟨e, rfl⟩ := hr
    exact failed e
  refine hx.bind herror fun r => ?_
  cases r with
  | error e => exact strict_of_always (failed e)
  | ok a => exact hg a

end

/-! ## Single calls -/

section

variable {F : β → Prop} {p : κ} {f : φ} {d : δ} {mark dirty : Bool}

theorem strict_fetchPage {g : Option (φ × δ) → PagedProgram κ φ δ β} (failed : (g none).Always F)
    (fetched : ∀ f d, (g (some (f, d))).Strict F) : (fetchPage p >>= g).Strict F :=
  ⟨failed, fetched⟩

theorem strict_newPage {g : Option (κ × φ × δ) → PagedProgram κ φ δ β} (failed : (g none).Always F)
    (allocated : ∀ p f d, (g (some (p, f, d))).Strict F) : (newPage >>= g).Strict F :=
  ⟨failed, allocated⟩

theorem strict_putPage {g : Unit → PagedProgram κ φ δ β} (hg : (g ()).Strict F) :
    (putPage f d mark >>= g).Strict F := hg

theorem strict_unpinPage {g : Bool → PagedProgram κ φ δ β} (failed : (g false).Strict F)
    (hg : (g true).Strict F) : (unpinPage p dirty >>= g).Strict F
  | false => failed
  | true => hg

theorem strict_flushPage {g : Bool → PagedProgram κ φ δ β} (failed : (g false).Always F)
    (hg : (g true).Strict F) : (flushPage p >>= g).Strict F :=
  ⟨failed, hg⟩

theorem strict_ite {c : Prop} [Decidable c] {x y : PagedProgram κ φ δ β} (hx : x.Strict F)
    (hy : y.Strict F) : (if c then x else y).Strict F := by
  split
  · exact hx
  · exact hy

end

/-! ## Pages -/

/-- The same pages, without the allocations that have failed. -/
def Heap.settled {κ δ : Type} (h : Heap κ δ) : Heap κ δ := { h with failed := false }

end PagedProgram

end Lib
