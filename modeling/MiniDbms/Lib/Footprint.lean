import MiniDbms.Lib.PagedProgram
import Mathlib.Data.List.Basic

/-!
# Footprints

A component of a database owns a list of pages. `Footprint h own h' own'` says that an
operation, started in the pages `h` by the owner of `own`, ends in the pages `h'` and leaves
it the owner of `own'`: no other page is touched, a page that it acquired did not exist
before, and a page that it gave up exists no more. Other owners see nothing of it
(`Footprint.page_eq`).
-/

namespace Lib

open PagedProgram

variable {κ δ : Type}

/-- What an operation of the owner of `own` does to the pages. -/
structure Footprint (h : Heap κ δ) (own : List κ) (h' : Heap κ δ) (own' : List κ) : Prop where
  same : ∀ x, x ∉ own → x ∉ own' → h'.page x = h.page x
  acquired : ∀ x ∈ own', x ∉ own → h.page x = none
  dropped : ∀ x ∈ own, x ∉ own' → h'.page x = none

namespace Footprint

variable {h h' : Heap κ δ} {own own' : List κ} {x : κ}

theorem of_page_eq (hp : h'.page = h.page) : Footprint h own h' own where
  same x _ _ := by rw [hp]
  acquired _ hx hn := absurd hx hn
  dropped _ hx hn := absurd hx hn

/-- An operation that keeps its pages. -/
theorem of_same (hp : ∀ x, x ∉ own → h'.page x = h.page x) : Footprint h own h' own where
  same x hx _ := hp x hx
  acquired _ hx hn := absurd hx hn
  dropped _ hx hn := absurd hx hn

/-- A page of another owner is not touched. -/
theorem page_eq (hf : Footprint h own h' own') (hx : x ∉ own) (hp : h.page x ≠ none) :
    h'.page x = h.page x := by
  by_cases hx' : x ∈ own'
  · exact absurd (hf.acquired x hx' hx) hp
  · exact hf.same x hx hx'

/-- A page of another owner is not acquired. -/
theorem not_acquired (hf : Footprint h own h' own') (hx : x ∉ own) (hp : h.page x ≠ none) :
    x ∉ own' := fun hx' => hp (hf.acquired x hx' hx)

end Footprint

end Lib
