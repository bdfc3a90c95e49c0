import MiniDbms.Lib.PagedProgram

/-!
# Programs that only read

`ReadOnly` programs fetch pages and unpin them as they were, whatever their calls answer. `x.Sees
img Q`: the program only reads, and every answer that it can give has the property `Q`, when a page
that is fetched shows what `img` says; any of its calls may fail.
-/

namespace Lib

namespace PagedProgram

variable {κ φ δ α β : Type}

/-- The program only fetches pages and unpins them unmarked. -/
def ReadOnly : PagedProgram κ φ δ α → Prop
  | .ret _ => True
  | .diverge => True
  | .fetch _ k => ∀ r, (k r).ReadOnly
  | .put _ _ _ _ => False
  | .unpin _ dirty k => dirty = false ∧ ∀ b, (k b).ReadOnly
  | .alloc _ => False
  | .free _ _ => False
  | .flush _ _ => False
  | .flushAll _ => False

section

variable {x y : PagedProgram κ φ δ α} {g : α → PagedProgram κ φ δ β} {p : κ}

theorem readOnly_pure (a : α) : (pure a : PagedProgram κ φ δ α).ReadOnly := trivial

theorem readOnly_bind (hx : x.ReadOnly) (hg : ∀ a, (g a).ReadOnly) : (x >>= g).ReadOnly := by
  show (x.bind g).ReadOnly
  induction x with
  | ret a => exact hg a
  | diverge => exact trivial
  | fetch p k ih => exact fun r => ih r (hx r)
  | unpin p dirty k ih => exact ⟨hx.1, fun b => ih b (hx.2 b)⟩
  | put f d mark k => exact hx
  | alloc k => exact hx
  | free p k => exact hx
  | flush p k => exact hx
  | flushAll k => exact hx

theorem readOnly_fetchPage {g : Option (φ × δ) → PagedProgram κ φ δ β} (failed : (g none).ReadOnly)
    (fetched : ∀ f d, (g (some (f, d))).ReadOnly) : (fetchPage p >>= g).ReadOnly
  | none => failed
  | some (f, d) => fetched f d

theorem readOnly_unpinPage {g : Bool → PagedProgram κ φ δ β} (failed : (g false).ReadOnly)
    (hg : (g true).ReadOnly) : (unpinPage p false >>= g).ReadOnly := by
  refine ⟨rfl, fun b => ?_⟩
  cases b with
  | false => exact failed
  | true => exact hg

theorem readOnly_ite {c : Prop} [Decidable c] (hx : x.ReadOnly) (hy : y.ReadOnly) :
    (if c then x else y).ReadOnly := by
  split
  · exact hx
  · exact hy

end

/-! ## What a program can read -/

/-- Every answer to what `img` shows has the property, whichever calls fail. -/
def Sees (img : κ → δ) (Q : α → Prop) : PagedProgram κ φ δ α → Prop
  | .ret a => Q a
  | .diverge => True
  | .fetch p k => (k none).Sees img Q ∧ ∀ f, (k (some (f, img p))).Sees img Q
  | .put _ _ _ _ => False
  | .unpin _ dirty k => dirty = false ∧ ∀ b, (k b).Sees img Q
  | .alloc _ => False
  | .free _ _ => False
  | .flush _ _ => False
  | .flushAll _ => False

section

variable {x : PagedProgram κ φ δ α} {g : α → PagedProgram κ φ δ β} {img : κ → δ} {P : α → Prop}
  {Q : β → Prop} {p : κ}

theorem sees_pure {a : α} (h : P a) : (pure a : PagedProgram κ φ δ α).Sees img P := h

theorem Sees.bind (hx : x.Sees img P) (hg : ∀ a, P a → (g a).Sees img Q) :
    (x >>= g).Sees img Q := by
  show (x.bind g).Sees img Q
  induction x with
  | ret a => exact hg a hx
  | diverge => exact trivial
  | fetch p k ih => exact ⟨ih _ hx.1, fun f => ih _ (hx.2 f)⟩
  | unpin p dirty k ih => exact ⟨hx.1, fun b => ih b (hx.2 b)⟩
  | put f d mark k => exact hx
  | alloc k => exact hx
  | free p k => exact hx
  | flush p k => exact hx
  | flushAll k => exact hx

theorem Sees.mono {P' : α → Prop} (hx : x.Sees img P) (h : ∀ a, P a → P' a) : x.Sees img P' := by
  induction x with
  | ret a => exact h a hx
  | diverge => exact trivial
  | fetch p k ih => exact ⟨ih _ hx.1, fun f => ih _ (hx.2 f)⟩
  | unpin p dirty k ih => exact ⟨hx.1, fun b => ih b (hx.2 b)⟩
  | put f d mark k => exact hx
  | alloc k => exact hx
  | free p k => exact hx
  | flush p k => exact hx
  | flushAll k => exact hx

theorem ReadOnly.sees (hx : x.ReadOnly) (img : κ → δ) : x.Sees img fun _ => True := by
  induction x with
  | ret a => exact trivial
  | diverge => exact trivial
  | fetch p k ih => exact ⟨ih _ (hx none), fun f => ih _ (hx _)⟩
  | unpin p dirty k ih => exact ⟨hx.1, fun b => ih b (hx.2 b)⟩
  | put f d mark k => exact hx
  | alloc k => exact hx
  | free p k => exact hx
  | flush p k => exact hx
  | flushAll k => exact hx

theorem sees_fetchPage {g : Option (φ × δ) → PagedProgram κ φ δ β} (failed : (g none).Sees img Q)
    (fetched : ∀ f, (g (some (f, img p))).Sees img Q) : (fetchPage p >>= g).Sees img Q :=
  ⟨failed, fetched⟩

theorem sees_unpinPage {g : Bool → PagedProgram κ φ δ β} (failed : (g false).Sees img Q)
    (hg : (g true).Sees img Q) : (unpinPage p false >>= g).Sees img Q := by
  refine ⟨rfl, fun b => ?_⟩
  cases b with
  | false => exact failed
  | true => exact hg

end

end PagedProgram

end Lib
