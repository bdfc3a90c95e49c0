import MiniDbms.Lib.PagedProgram
import Mathlib.Data.Finset.Card

/-!
# Walks along links

A `LinkWalk` follows links from page to page and keeps the set of the pages it has visited. In each
round it is on one page: the id `last` ends the walk, a page that it has visited already is a cycle,
and any other page is dealt with by `round`, which stops the walk or goes on to the next page.

An `Interpreter` runs programs in a world. `Enters` says that a walk gets from one position to
another. On finitely many pages a walk makes at most one round for each (`Enters.length_le`) and one
more, so it ends (`loop_ends`); it answers `cycle` if it gets to a page that it has visited
(`loop_cycle`).
-/

namespace Lib

open PagedProgram

/-- What a round of a walk does. -/
inductive Round (κ σ ρ : Type) where
  | stop (result : ρ)
  | go (next : κ) (state : σ)

/-- Where a round goes on, if it does. -/
def Round.next {κ σ ρ : Type} : Round κ σ ρ → Option (κ × σ)
  | .stop _ => none
  | .go next s => some (next, s)

theorem Round.eq_go {κ σ ρ : Type} {x : Round κ σ ρ} {next : κ} {s : σ}
    (h : x.next = some (next, s)) : x = .go next s := by
  cases x with
  | stop => cases h
  | go =>
    cases h
    rfl

/-- A walk along links, with a state `σ` and a result `ρ`. -/
structure LinkWalk (κ φ δ σ ρ : Type) where
  last : κ
  ended : List κ → σ → ρ
  cycle : ρ
  round : κ → σ → PagedProgram κ φ δ (Round κ σ ρ)

/-- A way to run programs in a world; `none` if a program does not end. -/
structure Interpreter (κ φ δ W : Type) where
  run : {α : Type} → PagedProgram κ φ δ α → W → Option (α × W)
  run_diverge : ∀ {α : Type} (w : W), run (.diverge : PagedProgram κ φ δ α) w = none
  run_pure : ∀ {α : Type} (a : α) (w : W), run (pure a) w = some (a, w)
  run_bind : ∀ {α β : Type} (x : PagedProgram κ φ δ α) (g : α → PagedProgram κ φ δ β) (w : W),
    run (x >>= g) w = (run x w).bind fun r => run (g r.1) r.2

/-- Where a walk is: the pages it has visited, the page it is on, its state and the world. -/
structure Position (κ σ W : Type) where
  visited : List κ
  current : κ
  state : σ
  world : W

namespace LinkWalk

variable {κ φ δ σ ρ W : Type}

/-- The loop of the walk, with the number of rounds left. -/
def loop [DecidableEq κ] (l : LinkWalk κ φ δ σ ρ) : Nat → List κ → κ → σ → PagedProgram κ φ δ ρ
  | 0, _, _, _ => .diverge
  | fuel + 1, visited, current, s =>
    if current = l.last then pure (l.ended visited s)
    else if current ∈ visited then pure l.cycle
    else do
      match ← l.round current s with
      | .stop result => return result
      | .go next s => loop l fuel (current :: visited) next s

/-- The walk gets from one position to another. -/
inductive Enters (l : LinkWalk κ φ δ σ ρ) (i : Interpreter κ φ δ W) :
    Position κ σ W → Position κ σ W → Prop where
  | refl (a : Position κ σ W) : Enters l i a a
  | go {visited : List κ} {current next : κ} {s s' : σ} {w w' : W} {b : Position κ σ W} :
      current ≠ l.last → current ∉ visited →
      i.run (l.round current s) w = some (.go next s', w') →
      Enters l i ⟨current :: visited, next, s', w'⟩ b → Enters l i ⟨visited, current, s, w⟩ b

section

variable {l : LinkWalk κ φ δ σ ρ} {i : Interpreter κ φ δ W} {a b : Position κ σ W}

/-! ## The rounds of the loop -/

section

variable [DecidableEq κ]

theorem loop_last (fuel : Nat) (visited : List κ) (s : σ) :
    l.loop (fuel + 1) visited l.last s = pure (l.ended visited s) := if_pos rfl

theorem loop_visited {visited : List κ} {current : κ} (hlast : current ≠ l.last)
    (hin : current ∈ visited) (fuel : Nat) (s : σ) :
    l.loop (fuel + 1) visited current s = pure l.cycle := by
  rw [loop, if_neg hlast, if_pos hin]

theorem loop_fresh {visited : List κ} {current : κ} (hlast : current ≠ l.last)
    (hin : current ∉ visited) (fuel : Nat) (s : σ) :
    l.loop (fuel + 1) visited current s = (do
      match ← l.round current s with
      | .stop result => return result
      | .go next s => l.loop fuel (current :: visited) next s) := by
  rw [loop, if_neg hlast, if_neg hin]

/-- The loop goes on from every position that the walk gets to. -/
theorem Enters.loop {result : ρ} {w : W} (h : Enters l i a b) : ∀ {fuel : Nat},
    i.run (l.loop fuel a.visited a.current a.state) a.world = some (result, w) →
    ∃ fuel', i.run (l.loop (fuel' + 1) b.visited b.current b.state) b.world = some (result, w) := by
  induction h with
  | refl a =>
    intro fuel hrun
    cases fuel with
    | zero =>
      rw [LinkWalk.loop, i.run_diverge] at hrun
      cases hrun
    | succ fuel => exact ⟨fuel, hrun⟩
  | go hcurrent hfresh hround _ ih =>
    intro fuel hrun
    cases fuel with
    | zero =>
      rw [LinkWalk.loop, i.run_diverge] at hrun
      cases hrun
    | succ fuel =>
      rw [loop_fresh hcurrent hfresh, i.run_bind, hround] at hrun
      exact ih hrun

/-- A walk that gets to a page it has visited answers `cycle`. -/
theorem loop_cycle (h : Enters l i a b) (hlast : b.current ≠ l.last) (hin : b.current ∈ b.visited)
    {fuel : Nat} {result : ρ} {w : W}
    (hrun : i.run (l.loop fuel a.visited a.current a.state) a.world = some (result, w)) :
    result = l.cycle ∧ w = b.world := by
  obtain ⟨fuel', hloop⟩ := h.loop hrun
  rw [loop_visited hlast hin, i.run_pure] at hloop
  cases hloop
  exact ⟨rfl, rfl⟩

/-- A walk that gets to a new page runs its round there, and ends if the round stops. -/
theorem loop_round (h : Enters l i a b) (hlast : b.current ≠ l.last) (hin : b.current ∉ b.visited)
    {fuel : Nat} {result : ρ} {w : W}
    (hrun : i.run (l.loop fuel a.visited a.current a.state) a.world = some (result, w)) :
    ∃ x v, i.run (l.round b.current b.state) b.world = some (x, v) ∧
      ∀ stopped, x = .stop stopped → result = stopped ∧ w = v := by
  obtain ⟨fuel', hloop⟩ := h.loop hrun
  rw [loop_fresh hlast hin, i.run_bind] at hloop
  cases hround : i.run (l.round b.current b.state) b.world with
  | none =>
    rw [hround] at hloop
    cases hloop
  | some r =>
    rw [hround] at hloop
    refine ⟨r.1, r.2, rfl, fun stopped hx => ?_⟩
    rw [Option.bind_some, hx] at hloop
    have hstop := (i.run_pure _ _).symm.trans hloop
    cases hstop
    exact ⟨rfl, rfl⟩

end

/-- The position `b` is the last one of a walk with the given outcome. -/
inductive Finishes (l : LinkWalk κ φ δ σ ρ) (i : Interpreter κ φ δ W) (b : Position κ σ W) :
    ρ → W → Prop where
  | last : b.current = l.last → Finishes l i b (l.ended b.visited b.state) b.world
  | cycle : b.current ≠ l.last → b.current ∈ b.visited → Finishes l i b l.cycle b.world
  | stop {result : ρ} {w : W} : b.current ≠ l.last → b.current ∉ b.visited →
      i.run (l.round b.current b.state) b.world = some (.stop result, w) → Finishes l i b result w

/-- Where the loop ends. -/
theorem loop_finishes [DecidableEq κ] {i : Interpreter κ φ δ W} {result : ρ} {w : W} :
    ∀ {fuel : Nat} {a : Position κ σ W},
      i.run (l.loop fuel a.visited a.current a.state) a.world = some (result, w) →
      ∃ b, Enters l i a b ∧ Finishes l i b result w := by
  intro fuel
  induction fuel with
  | zero =>
    intro a hrun
    rw [loop, i.run_diverge] at hrun
    cases hrun
  | succ fuel ih =>
    rintro ⟨visited, current, s, w₀⟩ hrun
    by_cases hlast : current = l.last
    · refine ⟨_, .refl _, ?_⟩
      subst hlast
      rw [loop_last, i.run_pure] at hrun
      cases hrun
      exact .last rfl
    by_cases hin : current ∈ visited
    · refine ⟨_, .refl _, ?_⟩
      rw [loop_visited hlast hin, i.run_pure] at hrun
      cases hrun
      exact .cycle hlast hin
    rw [loop_fresh hlast hin, i.run_bind] at hrun
    cases hround : i.run (l.round current s) w₀ with
    | none =>
      rw [hround] at hrun
      cases hrun
    | some r =>
      rw [hround] at hrun
      obtain ⟨_ | ⟨next, s'⟩, w₁⟩ := r
      · have hstop := (i.run_pure _ _).symm.trans hrun
        cases hstop
        exact ⟨_, .refl _, .stop hlast hin hround⟩
      · obtain ⟨b, hb, hfinish⟩ := ih (a := ⟨current :: visited, next, s', w₁⟩) hrun
        exact ⟨b, .go hlast hin hround hb, hfinish⟩

/-! ## Loops that are walks -/

/-- The program `x` does what the round does, and goes on as `next` says. -/
def Continues (next : κ → σ → PagedProgram κ φ δ ρ) (round : PagedProgram κ φ δ (Round κ σ ρ))
    (x : PagedProgram κ φ δ ρ) : Prop :=
  (do
    match ← round with
    | .stop result => return result
    | .go p s => next p s) = x

section

variable {next : κ → σ → PagedProgram κ φ δ ρ} {p : κ}

theorem continues_stop (result : ρ) :
    Continues next (pure (Round.stop result)) (pure result) := rfl

theorem continues_go (p : κ) (s : σ) : Continues next (pure (Round.go p s)) (next p s) := rfl

theorem continues_fetchPage {k : Option (φ × δ) → PagedProgram κ φ δ (Round κ σ ρ)}
    {k' : Option (φ × δ) → PagedProgram κ φ δ ρ} (failed : Continues next (k none) (k' none))
    (fetched : ∀ f d, Continues next (k (some (f, d))) (k' (some (f, d)))) :
    Continues next (fetchPage p >>= k) (fetchPage p >>= k') := by
  refine congrArg (PagedProgram.fetch p) (funext fun r => ?_)
  rcases r with _ | ⟨f, d⟩
  · exact failed
  · exact fetched f d

theorem continues_putPage {f : φ} {d : δ} {mark : Bool}
    {k : Unit → PagedProgram κ φ δ (Round κ σ ρ)} {k' : Unit → PagedProgram κ φ δ ρ}
    (h : Continues next (k ()) (k' ())) :
    Continues next (putPage f d mark >>= k) (putPage f d mark >>= k') :=
  congrArg (PagedProgram.put f d mark) h

theorem continues_unpinPage {dirty : Bool} {k : Bool → PagedProgram κ φ δ (Round κ σ ρ)}
    {k' : Bool → PagedProgram κ φ δ ρ} (failed : Continues next (k false) (k' false))
    (h : Continues next (k true) (k' true)) :
    Continues next (unpinPage p dirty >>= k) (unpinPage p dirty >>= k') := by
  refine congrArg (PagedProgram.unpin p dirty) (funext fun b => ?_)
  cases b
  · exact failed
  · exact h

theorem continues_deletePage {k : Bool → PagedProgram κ φ δ (Round κ σ ρ)}
    {k' : Bool → PagedProgram κ φ δ ρ} (failed : Continues next (k false) (k' false))
    (h : Continues next (k true) (k' true)) :
    Continues next (deletePage p >>= k) (deletePage p >>= k') := by
  refine congrArg (PagedProgram.free p) (funext fun b => ?_)
  cases b
  · exact failed
  · exact h

theorem continues_ite {c : Prop} [Decidable c] {x y : PagedProgram κ φ δ (Round κ σ ρ)}
    {x' y' : PagedProgram κ φ δ ρ} (hx : Continues next x x') (hy : Continues next y y') :
    Continues next (if c then x else y) (if c then x' else y') := by
  split
  · exact hx
  · exact hy

/-- A round that ends with what another program answers. -/
theorem continues_stopWith (x : PagedProgram κ φ δ ρ) :
    Continues next (x >>= fun result => pure (Round.stop result)) x := by
  unfold Continues
  induction x with
  | ret a => rfl
  | diverge => rfl
  | fetch p k ih => exact congrArg (PagedProgram.fetch p) (funext fun r => ih r)
  | put f d mark k ih => exact congrArg (PagedProgram.put f d mark) ih
  | unpin p dirty k ih => exact congrArg (PagedProgram.unpin p dirty) (funext fun b => ih b)
  | alloc k ih => exact congrArg PagedProgram.alloc (funext fun r => ih r)
  | free p k ih => exact congrArg (PagedProgram.free p) (funext fun b => ih b)
  | flush p k ih => exact congrArg (PagedProgram.flush p) (funext fun b => ih b)
  | flushAll k ih => exact congrArg PagedProgram.flushAll ih

end

/-- A loop is a walk if the body of each of its turns does what the round of the walk does. -/
theorem eq_loop [DecidableEq κ] {turns body : Nat → List κ → κ → σ → PagedProgram κ φ δ ρ}
    (hzero : ∀ visited current s, turns 0 visited current s = .diverge)
    (hturn : ∀ fuel visited current s, turns (fuel + 1) visited current s =
      if current = l.last then pure (l.ended visited s)
      else if current ∈ visited then pure l.cycle else body fuel visited current s)
    (hbody : ∀ fuel visited current s,
      Continues (turns fuel (current :: visited)) (l.round current s)
      (body fuel visited current s)) :
    ∀ fuel visited current s, turns fuel visited current s = l.loop fuel visited current s := by
  intro fuel
  induction fuel with
  | zero => exact hzero
  | succ fuel ih =>
    intro visited current s
    have hnext : turns fuel (current :: visited) = l.loop fuel (current :: visited) := by
      funext next s'
      exact ih _ _ _
    rw [hturn, loop, ← hbody, hnext]

/-! ## Finitely many pages -/

section

variable {I : W → Prop} {pages : Finset κ}

/-- A round that goes on has fetched its page, and has not asked for a new one. -/
def GoesFrom (p : κ) (seen : List κ) (grown : Bool) : Round κ σ ρ → Prop
  | .stop _ => True
  | .go _ _ => p ∈ seen ∧ grown = false

/-- Every round ends, and goes on from its page only if the page was there. -/
def Proper (l : LinkWalk κ φ δ σ ρ) : Prop := ∀ p s, (l.round p s).Ends (GoesFrom p) [] false

/-- In a world with the property `I` a round ends, and it goes on from one of the pages only, to a
world with the property. -/
def StaysOn (l : LinkWalk κ φ δ σ ρ) (i : Interpreter κ φ δ W) (I : W → Prop) (pages : Finset κ) :
    Prop :=
  ∀ p s w, I w → ∃ r w', i.run (l.round p s) w = some (r, w') ∧
    ∀ next s', r = .go next s' → p ∈ pages ∧ I w'

/-- The pages visited are distinct pages of the set. -/
structure Tracks (I : W → Prop) (pages : Finset κ) (a : Position κ σ W) : Prop where
  world : I a.world
  nodup : a.visited.Nodup
  subset : ∀ p ∈ a.visited, p ∈ pages

theorem Tracks.length_le [DecidableEq κ] (h : Tracks I pages a) :
    a.visited.length ≤ pages.card := by
  rw [← List.toFinset_card_of_nodup h.nodup]
  apply Finset.card_le_card
  intro p hp
  exact h.subset p (List.mem_toFinset.mp hp)

theorem Tracks.start {w : W} (hw : I w) (current : κ) (s : σ) :
    Tracks I pages ⟨[], current, s, w⟩ := ⟨hw, List.nodup_nil, nofun⟩

variable (hl : l.StaysOn i I pages)

include hl

theorem StaysOn.go {visited : List κ} {current next : κ} {s s' : σ} {w w' : W}
    (ha : Tracks I pages ⟨visited, current, s, w⟩) (hfresh : current ∉ visited)
    (hround : i.run (l.round current s) w = some (.go next s', w')) :
    Tracks I pages ⟨current :: visited, next, s', w'⟩ := by
  obtain ⟨r, v, hrun, hgo⟩ := hl current s w ha.world
  rw [hround] at hrun
  cases hrun
  obtain ⟨hin, hw'⟩ := hgo next s' rfl
  refine ⟨hw', List.nodup_cons.mpr ⟨hfresh, ha.nodup⟩, fun p hp => ?_⟩
  rcases List.mem_cons.mp hp with rfl | hp
  · exact hin
  · exact ha.subset p hp

theorem Enters.tracks (h : Enters l i a b) (ha : Tracks I pages a) : Tracks I pages b := by
  induction h with
  | refl => exact ha
  | go _ hfresh hround _ ih => exact ih (hl.go ha hfresh hround)

/-- The walk ends within one round more than there are pages left. -/
theorem loop_ends [DecidableEq κ] : ∀ {fuel : Nat} {a : Position κ σ W}, Tracks I pages a →
    pages.card < fuel + a.visited.length →
    ∃ result w, i.run (l.loop fuel a.visited a.current a.state) a.world = some (result, w) := by
  intro fuel
  induction fuel with
  | zero =>
    intro a ha hfuel
    have hle := ha.length_le
    omega
  | succ fuel ih =>
    rintro ⟨visited, current, s, w⟩ ha hfuel
    by_cases hlast : current = l.last
    · subst hlast
      exact ⟨_, w, by rw [loop_last, i.run_pure]⟩
    by_cases hin : current ∈ visited
    · exact ⟨_, w, by rw [loop_visited hlast hin, i.run_pure]⟩
    obtain ⟨r, w', hround, -⟩ := hl current s w ha.world
    have hrun : i.run (l.loop (fuel + 1) visited current s) w = i.run (match r with
        | .stop result => pure result
        | .go next s => l.loop fuel (current :: visited) next s) w' := by
      rw [loop_fresh hlast hin, i.run_bind, hround]
      rfl
    cases r with
    | stop result => exact ⟨result, w', by rw [hrun, i.run_pure]⟩
    | go next s' =>
      obtain ⟨result, v, hloop⟩ := ih (hl.go ha hin hround) (by
        simp only [List.length_cons] at hfuel ⊢
        omega)
      exact ⟨result, v, hrun.trans hloop⟩

end

end

end LinkWalk

end Lib
