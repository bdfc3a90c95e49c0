import MiniDbms.Lib.PagedProgram

/-!
# Disciplined programs

`Disciplined hand x y`: the programs `x` and `y` make the same calls with the same arguments and
end with the same result, whatever the calls answer, as long as the answers agree up to the handles
of pages. On every path at most one page is in hand (`hand`); it is unpinned before the next call
and before the end, and what was written to it is marked.

A program that is disciplined with respect to itself (`x = y`) does not depend on the handles that
it is given. `Disciplined.bind` and the rules for one call are what proofs about programs use.
-/

namespace Lib

namespace PagedProgram

variable {κ φ δ α β : Type}

/-- A page in hand: its id, the handles of the two programs, its contents, and whether they are
unmarked. -/
structure Hand (κ φ δ : Type) where
  page : κ
  handle : φ
  handle' : φ
  contents : δ
  unmarked : Bool

/-- The programs make the same calls, with at most one page in hand. -/
inductive Disciplined :
    Option (Hand κ φ δ) → PagedProgram κ φ δ α → PagedProgram κ φ δ α → Prop where
  | ret (a : α) : Disciplined none (.ret a) (.ret a)
  | diverge (hand : Option (Hand κ φ δ)) : Disciplined hand .diverge .diverge
  | fetch {p : κ} {k k' : Option (φ × δ) → PagedProgram κ φ δ α}
      (failed : Disciplined none (k none) (k' none))
      (fetched : ∀ f f' d, Disciplined (some ⟨p, f, f', d, false⟩) (k (some (f, d)))
        (k' (some (f', d)))) :
      Disciplined none (.fetch p k) (.fetch p k')
  | put {p : κ} {f f' : φ} {d d' : δ} {u u' mark : Bool} {k k' : PagedProgram κ φ δ α}
      (marked : u' = !mark ∨ (u' = false ∧ u = false ∧ d' = d))
      (rest : Disciplined (some ⟨p, f, f', d', u'⟩) k k') :
      Disciplined (some ⟨p, f, f', d, u⟩) (.put f d' mark k) (.put f' d' mark k')
  | unpin {p : κ} {f f' : φ} {d : δ} {u dirty : Bool} {k k' : Bool → PagedProgram κ φ δ α}
      (marked : dirty = true ∨ u = false) (rest : Disciplined none (k true) (k' true)) :
      Disciplined (some ⟨p, f, f', d, u⟩) (.unpin p dirty k) (.unpin p dirty k')
  | alloc {k k' : Option (κ × φ × δ) → PagedProgram κ φ δ α}
      (failed : Disciplined none (k none) (k' none))
      (allocated : ∀ p f f' d,
        Disciplined (some ⟨p, f, f', d, false⟩) (k (some (p, f, d))) (k' (some (p, f', d)))) :
      Disciplined none (.alloc k) (.alloc k')
  | free {p : κ} {k k' : Bool → PagedProgram κ φ δ α} (rest : ∀ b, Disciplined none (k b) (k' b)) :
      Disciplined none (.free p k) (.free p k')
  | flush {p : κ} {k k' : Bool → PagedProgram κ φ δ α} (rest : ∀ b, Disciplined none (k b) (k' b)) :
      Disciplined none (.flush p k) (.flush p k')
  | flushAll {k k' : PagedProgram κ φ δ α} (rest : Disciplined none k k') :
      Disciplined none (.flushAll k) (.flushAll k')

section

variable {hand : Option (Hand κ φ δ)} {x x' : PagedProgram κ φ δ α}
  {g g' : α → PagedProgram κ φ δ β}

theorem disciplined_pure (a : α) : Disciplined (κ := κ) (φ := φ) (δ := δ) none (pure a) (pure a) :=
  .ret a

/-- A sequence of two programs. -/
theorem Disciplined.bind (hx : Disciplined hand x x') (hg : ∀ a, Disciplined none (g a) (g' a)) :
    Disciplined hand (x >>= g) (x' >>= g') := by
  show Disciplined hand (x.bind g) (x'.bind g')
  induction hx with
  | ret a => exact hg a
  | diverge hand => exact .diverge hand
  | fetch _ _ ihn ihs => exact .fetch ihn ihs
  | put hm _ ih => exact .put hm ih
  | unpin hm _ ih => exact .unpin hm ih
  | alloc _ _ ihn ihs => exact .alloc ihn ihs
  | free _ ih => exact .free ih
  | flush _ ih => exact .flush ih
  | flushAll _ ih => exact .flushAll ih

end

/-! ## Single calls -/

variable {p : κ} {f f' : φ} {d d' : δ} {u mark dirty : Bool}

theorem disciplined_fetchPage {g g' : Option (φ × δ) → PagedProgram κ φ δ β}
    (failed : Disciplined none (g none) (g' none))
    (fetched : ∀ f f' d,
      Disciplined (some ⟨p, f, f', d, false⟩) (g (some (f, d))) (g' (some (f', d)))) :
    Disciplined none (fetchPage p >>= g) (fetchPage p >>= g') :=
  .fetch failed fetched

theorem disciplined_newPage {g g' : Option (κ × φ × δ) → PagedProgram κ φ δ β}
    (failed : Disciplined none (g none) (g' none))
    (allocated : ∀ p f f' d,
      Disciplined (some ⟨p, f, f', d, false⟩) (g (some (p, f, d))) (g' (some (p, f', d)))) :
    Disciplined none (newPage >>= g) (newPage >>= g') :=
  .alloc failed allocated

/-- A write that marks the page. -/
theorem disciplined_putPage {g g' : Unit → PagedProgram κ φ δ β}
    (hg : Disciplined (some ⟨p, f, f', d', !mark⟩) (g ()) (g' ())) :
    Disciplined (some ⟨p, f, f', d, u⟩) (putPage f d' mark >>= g) (putPage f' d' mark >>= g') :=
  .put (.inl rfl) hg

/-- A write of what is there already. -/
theorem disciplined_putPage_same {g g' : Unit → PagedProgram κ φ δ β}
    (hg : Disciplined (some ⟨p, f, f', d, false⟩) (g ()) (g' ())) :
    Disciplined (some ⟨p, f, f', d, false⟩) (putPage f d mark >>= g) (putPage f' d mark >>= g') :=
  .put (.inr ⟨rfl, rfl, rfl⟩) hg

theorem disciplined_unpinPage {g g' : Bool → PagedProgram κ φ δ β} (hd : dirty = true ∨ u = false)
    (hg : Disciplined none (g true) (g' true)) :
    Disciplined (some ⟨p, f, f', d, u⟩) (unpinPage p dirty >>= g) (unpinPage p dirty >>= g') :=
  .unpin hd hg

theorem disciplined_deletePage {g g' : Bool → PagedProgram κ φ δ β}
    (hg : ∀ b, Disciplined none (g b) (g' b)) :
    Disciplined none (deletePage p >>= g) (deletePage p >>= g') :=
  .free hg

theorem disciplined_flushPage {g g' : Bool → PagedProgram κ φ δ β}
    (hg : ∀ b, Disciplined none (g b) (g' b)) :
    Disciplined none (flushPage p >>= g) (flushPage p >>= g') :=
  .flush hg

theorem disciplined_flushAllPages {g g' : Unit → PagedProgram κ φ δ β}
    (hg : Disciplined none (g ()) (g' ())) :
    Disciplined none (flushAllPages >>= g) (flushAllPages >>= g') :=
  .flushAll hg

/-- Both programs decide the same question. -/
theorem disciplined_ite {hand : Option (Hand κ φ δ)} {c : Prop} [Decidable c]
    {x x' y y' : PagedProgram κ φ δ α} (hx : c → Disciplined hand x x')
    (hy : ¬ c → Disciplined hand y y') :
    Disciplined hand (if c then x else y) (if c then x' else y') := by
  split
  · rename_i hc
    exact hx hc
  · rename_i hc
    exact hy hc

end PagedProgram

end Lib
