import Mathlib.Logic.Function.Basic
import Mathlib.Tactic.Cases

/-!
# Programs over a store of pages

A `PagedProgram` asks a store for pages: it fetches a page (which pins it), replaces its
contents, unpins it, allocates and frees pages, and flushes. `κ` are the page ids, `φ` the
handles through which a pinned page is accessed, `δ` the contents of a page.

`wp` is the weakest precondition of a program for a store in which an existing page can
always be fetched, and an allocation either fails or hands out a page that did not exist.
At most one page is in hand at a time. What was written must be marked before the page is
unpinned, either by the write or by the unpin (the flag in `Store.held`).

`Quiet` programs make no write and no allocation, whatever the answers to their calls.

`Runs` is `wp` between states with no page in hand: it only speaks about the pages
(`Heap`). `Runs.bind`, `Runs.mono` and the rules for one access (`runs_fetch`, `Holding`)
are what proofs about programs use.
-/

namespace Lib

/-- A program that fetches, changes, unpins, allocates, frees and flushes pages. -/
inductive PagedProgram (κ φ δ α : Type) : Type where
  | ret (a : α)
  | diverge
  | fetch (p : κ) (k : Option (φ × δ) → PagedProgram κ φ δ α)
  | put (f : φ) (d : δ) (mark : Bool) (k : PagedProgram κ φ δ α)
  | unpin (p : κ) (dirty : Bool) (k : Bool → PagedProgram κ φ δ α)
  | alloc (k : Option (κ × φ × δ) → PagedProgram κ φ δ α)
  | free (p : κ) (k : Bool → PagedProgram κ φ δ α)
  | flush (p : κ) (k : Bool → PagedProgram κ φ δ α)
  | flushAll (k : PagedProgram κ φ δ α)

namespace PagedProgram

variable {κ φ δ α β : Type}

def bind : PagedProgram κ φ δ α → (α → PagedProgram κ φ δ β) → PagedProgram κ φ δ β
  | .ret a, g => g a
  | .diverge, _ => .diverge
  | .fetch p k, g => .fetch p fun r => (k r).bind g
  | .put f d mark k, g => .put f d mark (k.bind g)
  | .unpin p dirty k, g => .unpin p dirty fun b => (k b).bind g
  | .alloc k, g => .alloc fun r => (k r).bind g
  | .free p k, g => .free p fun b => (k b).bind g
  | .flush p k, g => .flush p fun b => (k b).bind g
  | .flushAll k, g => .flushAll (k.bind g)

instance : Monad (PagedProgram κ φ δ) where
  pure := .ret
  bind := .bind

theorem bind_assoc {γ : Type} (x : PagedProgram κ φ δ α) (g : α → PagedProgram κ φ δ β)
    (g' : β → PagedProgram κ φ δ γ) : x >>= g >>= g' = x >>= fun a => g a >>= g' := by
  show (x.bind g).bind g' = x.bind fun a => (g a).bind g'
  induction x with
  | ret a => rfl
  | diverge => rfl
  | fetch p k ih => exact congrArg (PagedProgram.fetch p) (funext fun r => ih r)
  | put f d mark k ih => exact congrArg (PagedProgram.put f d mark) ih
  | unpin p dirty k ih => exact congrArg (PagedProgram.unpin p dirty) (funext fun b => ih b)
  | alloc k ih => exact congrArg PagedProgram.alloc (funext fun r => ih r)
  | free p k ih => exact congrArg (PagedProgram.free p) (funext fun b => ih b)
  | flush p k ih => exact congrArg (PagedProgram.flush p) (funext fun b => ih b)
  | flushAll k ih => exact congrArg PagedProgram.flushAll ih

/-! ## The calls -/

/-- Fetches and pins a page: its handle and its contents. -/
def fetchPage (p : κ) : PagedProgram κ φ δ (Option (φ × δ)) := .fetch p .ret

/-- Replaces the contents of the page in hand, and marks it as changed. -/
def putPage (f : φ) (d : δ) (mark : Bool) : PagedProgram κ φ δ Unit := .put f d mark (.ret ())

def unpinPage (p : κ) (dirty : Bool) : PagedProgram κ φ δ Bool := .unpin p dirty .ret

/-- Allocates a page and pins it. -/
def newPage : PagedProgram κ φ δ (Option (κ × φ × δ)) := .alloc .ret

def deletePage (p : κ) : PagedProgram κ φ δ Bool := .free p .ret

def flushPage (p : κ) : PagedProgram κ φ δ Bool := .flush p .ret

def flushAllPages : PagedProgram κ φ δ Unit := .flushAll (.ret ())

/-! ## Quiet programs -/

/-- The program neither writes to a page nor allocates one, whatever its calls answer. -/
def Quiet : PagedProgram κ φ δ α → Prop
  | .ret _ => True
  | .diverge => True
  | .fetch _ k => ∀ r, (k r).Quiet
  | .put _ _ _ _ => False
  | .unpin _ _ k => ∀ b, (k b).Quiet
  | .alloc _ => False
  | .free _ k => ∀ b, (k b).Quiet
  | .flush _ k => ∀ b, (k b).Quiet
  | .flushAll k => k.Quiet

section

variable {x : PagedProgram κ φ δ α} {g : α → PagedProgram κ φ δ β}

theorem quiet_pure (a : α) : (pure a : PagedProgram κ φ δ α).Quiet := trivial

theorem quiet_bind (hx : x.Quiet) (hg : ∀ a, (g a).Quiet) : (x >>= g).Quiet := by
  show (x.bind g).Quiet
  induction x with
  | ret a => exact hg a
  | diverge => exact hx
  | fetch p k ih => exact fun r => ih r (hx r)
  | put f d mark k => exact hx
  | unpin p dirty k ih => exact fun b => ih b (hx b)
  | alloc k => exact hx
  | free p k ih => exact fun b => ih b (hx b)
  | flush p k ih => exact fun b => ih b (hx b)
  | flushAll k ih => exact ih hx

theorem quiet_fetchPage (p : κ) : (fetchPage p : PagedProgram κ φ δ _).Quiet := fun _ => trivial

theorem quiet_unpinPage (p : κ) (dirty : Bool) : (unpinPage p dirty : PagedProgram κ φ δ _).Quiet :=
  fun _ => trivial

theorem quiet_deletePage (p : κ) : (deletePage p : PagedProgram κ φ δ _).Quiet := fun _ => trivial

end

/-! ## Programs that do not flush -/

/-- The program flushes nothing, whatever its calls answer. -/
def FlushFree : PagedProgram κ φ δ α → Prop
  | .ret _ => True
  | .diverge => True
  | .fetch _ k => ∀ r, (k r).FlushFree
  | .put _ _ _ k => k.FlushFree
  | .unpin _ _ k => ∀ b, (k b).FlushFree
  | .alloc k => ∀ r, (k r).FlushFree
  | .free _ k => ∀ b, (k b).FlushFree
  | .flush _ _ => False
  | .flushAll _ => False

section

variable {x y : PagedProgram κ φ δ α} {g : α → PagedProgram κ φ δ β}

theorem flushFree_pure (a : α) : (pure a : PagedProgram κ φ δ α).FlushFree := trivial

theorem flushFree_bind (hx : x.FlushFree) (hg : ∀ a, (g a).FlushFree) : (x >>= g).FlushFree := by
  show (x.bind g).FlushFree
  induction x with
  | ret a => exact hg a
  | diverge => exact hx
  | fetch p k ih => exact fun r => ih r (hx r)
  | put f d mark k ih => exact ih hx
  | unpin p dirty k ih => exact fun b => ih b (hx b)
  | alloc k ih => exact fun r => ih r (hx r)
  | free p k ih => exact fun b => ih b (hx b)
  | flush p k => exact hx
  | flushAll k => exact hx

theorem flushFree_ite {c : Prop} [Decidable c] (hx : x.FlushFree) (hy : y.FlushFree) :
    (if c then x else y).FlushFree := by
  split
  · exact hx
  · exact hy

theorem flushFree_fetchPage {k : Option (φ × δ) → PagedProgram κ φ δ β} {p : κ}
    (failed : (k none).FlushFree) (fetched : ∀ f d, (k (some (f, d))).FlushFree) :
    (fetchPage p >>= k).FlushFree
  | none => failed
  | some (f, d) => fetched f d

theorem flushFree_newPage {k : Option (κ × φ × δ) → PagedProgram κ φ δ β}
    (failed : (k none).FlushFree) (allocated : ∀ p f d, (k (some (p, f, d))).FlushFree) :
    (newPage >>= k).FlushFree
  | none => failed
  | some (p, f, d) => allocated p f d

theorem flushFree_unpinPage {k : Bool → PagedProgram κ φ δ β} {p : κ} {dirty : Bool}
    (failed : (k false).FlushFree) (h : (k true).FlushFree) : (unpinPage p dirty >>= k).FlushFree
  | false => failed
  | true => h

theorem flushFree_deletePage {k : Bool → PagedProgram κ φ δ β} {p : κ}
    (failed : (k false).FlushFree) (h : (k true).FlushFree) : (deletePage p >>= k).FlushFree
  | false => failed
  | true => h

end

/-! ## What a program can answer -/

/-- Every answer of the program has the property, whatever its calls answer. -/
def Always (P : α → Prop) : PagedProgram κ φ δ α → Prop
  | .ret a => P a
  | .diverge => True
  | .fetch _ k => ∀ r, (k r).Always P
  | .put _ _ _ k => k.Always P
  | .unpin _ _ k => ∀ b, (k b).Always P
  | .alloc k => ∀ r, (k r).Always P
  | .free _ k => ∀ b, (k b).Always P
  | .flush _ k => ∀ b, (k b).Always P
  | .flushAll k => k.Always P

section

variable {x : PagedProgram κ φ δ α} {g : α → PagedProgram κ φ δ β} {P : α → Prop} {Q : β → Prop}

theorem always_pure {a : α} (h : P a) : (pure a : PagedProgram κ φ δ α).Always P := h

theorem always_bind (hx : x.Always P) (hg : ∀ a, P a → (g a).Always Q) : (x >>= g).Always Q := by
  show (x.bind g).Always Q
  induction x with
  | ret a => exact hg a hx
  | diverge => exact trivial
  | fetch p k ih => exact fun r => ih r (hx r)
  | put f d mark k ih => exact ih hx
  | unpin p dirty k ih => exact fun b => ih b (hx b)
  | alloc k ih => exact fun r => ih r (hx r)
  | free p k ih => exact fun b => ih b (hx b)
  | flush p k ih => exact fun b => ih b (hx b)
  | flushAll k ih => exact ih hx

theorem Always.mono {Q : α → Prop} (hx : x.Always P) (h : ∀ a, P a → Q a) : x.Always Q := by
  induction x with
  | ret a => exact h a hx
  | diverge => exact trivial
  | fetch p k ih => exact fun r => ih r (hx r)
  | put f d mark k ih => exact ih hx
  | unpin p dirty k ih => exact fun b => ih b (hx b)
  | alloc k ih => exact fun r => ih r (hx r)
  | free p k ih => exact fun b => ih b (hx b)
  | flush p k ih => exact fun b => ih b (hx b)
  | flushAll k ih => exact ih hx

theorem always_true : ∀ x : PagedProgram κ φ δ α, x.Always fun _ => True := by
  intro x
  induction x with
  | ret a => exact trivial
  | diverge => exact trivial
  | put f d mark k ih => exact ih
  | flushAll k ih => exact ih
  | _ => rename_i ih; exact ih

theorem always_fetchPage {k : Option (φ × δ) → PagedProgram κ φ δ β} {p : κ}
    (h : ∀ r, (k r).Always Q) : (fetchPage p >>= k).Always Q := h

theorem always_newPage {k : Option (κ × φ × δ) → PagedProgram κ φ δ β}
    (h : ∀ r, (k r).Always Q) : (newPage >>= k).Always Q := h

theorem always_putPage {k : Unit → PagedProgram κ φ δ β} {f : φ} {d : δ} {mark : Bool}
    (h : (k ()).Always Q) : (putPage f d mark >>= k).Always Q := h

theorem always_unpinPage {k : Bool → PagedProgram κ φ δ β} {p : κ} {dirty : Bool}
    (failed : (k false).Always Q) (h : (k true).Always Q) : (unpinPage p dirty >>= k).Always Q
  | false => failed
  | true => h

theorem always_deletePage {k : Bool → PagedProgram κ φ δ β} {p : κ} (failed : (k false).Always Q)
    (h : (k true).Always Q) : (deletePage p >>= k).Always Q
  | false => failed
  | true => h

theorem always_flushPage {k : Bool → PagedProgram κ φ δ β} {p : κ} (failed : (k false).Always Q)
    (h : (k true).Always Q) : (flushPage p >>= k).Always Q
  | false => failed
  | true => h

end

/-! ## What a program has fetched when it answers -/

/-- The program ends, and its answer has the property together with the pages that it has fetched
and whether it has asked for a new page. The list and the flag at the start are `seen` and
`grown`. -/
def Ends (P : List κ → Bool → α → Prop) (seen : List κ) (grown : Bool) :
    PagedProgram κ φ δ α → Prop
  | .ret a => P seen grown a
  | .diverge => False
  | .fetch p k =>
    (k none).Ends P seen grown ∧ ∀ f d, (k (some (f, d))).Ends P (p :: seen) grown
  | .put _ _ _ k => k.Ends P seen grown
  | .unpin _ _ k => ∀ b, (k b).Ends P seen grown
  | .alloc k => ∀ r, (k r).Ends P seen true
  | .free _ k => ∀ b, (k b).Ends P seen grown
  | .flush _ k => ∀ b, (k b).Ends P seen grown
  | .flushAll k => k.Ends P seen grown

section

variable {x : PagedProgram κ φ δ α} {g : α → PagedProgram κ φ δ β}
  {P P' : List κ → Bool → α → Prop} {Q : List κ → Bool → β → Prop} {seen : List κ} {grown : Bool}

theorem Ends.mono (hx : x.Ends P seen grown)
    (h : ∀ seen grown a, P seen grown a → P' seen grown a) :
    x.Ends P' seen grown := by
  induction x generalizing seen grown with
  | ret a => exact h _ _ _ hx
  | diverge => exact hx
  | fetch p k ih => exact ⟨ih _ hx.1, fun f d => ih _ (hx.2 f d)⟩
  | put f d mark k ih => exact ih hx
  | unpin p dirty k ih => exact fun b => ih b (hx b)
  | alloc k ih => exact fun r => ih r (hx r)
  | free p k ih => exact fun b => ih b (hx b)
  | flush p k ih => exact fun b => ih b (hx b)
  | flushAll k ih => exact ih hx

theorem ends_bind (hx : x.Ends (fun seen grown a => (g a).Ends Q seen grown) seen grown) :
    (x >>= g).Ends Q seen grown := by
  show (x.bind g).Ends Q seen grown
  induction x generalizing seen grown with
  | ret a => exact hx
  | diverge => exact hx
  | fetch p k ih => exact ⟨ih _ hx.1, fun f d => ih _ (hx.2 f d)⟩
  | put f d mark k ih => exact ih hx
  | unpin p dirty k ih => exact fun b => ih b (hx b)
  | alloc k ih => exact fun r => ih r (hx r)
  | free p k ih => exact fun b => ih b (hx b)
  | flush p k ih => exact fun b => ih b (hx b)
  | flushAll k ih => exact ih hx

theorem ends_ite {c : Prop} [Decidable c] {y : PagedProgram κ φ δ α} (hx : x.Ends P seen grown)
    (hy : y.Ends P seen grown) : (if c then x else y).Ends P seen grown := by
  split
  · exact hx
  · exact hy

theorem ends_fetchPage {k : Option (φ × δ) → PagedProgram κ φ δ β} {p : κ}
    (failed : (k none).Ends Q seen grown)
    (fetched : ∀ f d, (k (some (f, d))).Ends Q (p :: seen) grown) :
    (fetchPage p >>= k).Ends Q seen grown := ⟨failed, fetched⟩

theorem ends_newPage {k : Option (κ × φ × δ) → PagedProgram κ φ δ β}
    (failed : (k none).Ends Q seen true)
    (allocated : ∀ p f d, (k (some (p, f, d))).Ends Q seen true) :
    (newPage >>= k).Ends Q seen grown
  | none => failed
  | some (p, f, d) => allocated p f d

theorem ends_putPage {k : Unit → PagedProgram κ φ δ β} {f : φ} {d : δ} {mark : Bool}
    (h : (k ()).Ends Q seen grown) : (putPage f d mark >>= k).Ends Q seen grown := h

theorem ends_unpinPage {k : Bool → PagedProgram κ φ δ β} {p : κ} {dirty : Bool}
    (failed : (k false).Ends Q seen grown) (h : (k true).Ends Q seen grown) :
    (unpinPage p dirty >>= k).Ends Q seen grown
  | false => failed
  | true => h

theorem ends_deletePage {k : Bool → PagedProgram κ φ δ β} {p : κ}
    (failed : (k false).Ends Q seen grown) (h : (k true).Ends Q seen grown) :
    (deletePage p >>= k).Ends Q seen grown
  | false => failed
  | true => h

end

/-! ## The store -/

/-- The contents of the pages that exist, and whether an allocation has failed so far. -/
structure Heap (κ δ : Type) where
  page : κ → Option δ
  failed : Bool

namespace Heap

def fail (h : Heap κ δ) : Heap κ δ := { h with failed := true }

@[simp] theorem page_fail (h : Heap κ δ) : h.fail.page = h.page := rfl
@[simp] theorem failed_fail (h : Heap κ δ) : h.fail.failed = true := rfl

variable [DecidableEq κ]

def set (h : Heap κ δ) (p : κ) (d : δ) : Heap κ δ :=
  { h with page := Function.update h.page p (some d) }

def drop (h : Heap κ δ) (p : κ) : Heap κ δ :=
  { h with page := Function.update h.page p none }

@[simp] theorem page_set_self (h : Heap κ δ) (p : κ) (d : δ) : (h.set p d).page p = some d := by
  simp [set]

theorem page_set_of_ne (h : Heap κ δ) {p q : κ} (hq : q ≠ p) (d : δ) :
    (h.set p d).page q = h.page q := by
  simp [set, hq]

theorem page_set (h : Heap κ δ) (p q : κ) (d : δ) :
    (h.set p d).page q = if q = p then some d else h.page q := by
  simp [set, Function.update_apply]

theorem page_drop (h : Heap κ δ) (p q : κ) :
    (h.drop p).page q = if q = p then none else h.page q := by
  simp [drop, Function.update_apply]

@[simp] theorem failed_set (h : Heap κ δ) (p : κ) (d : δ) : (h.set p d).failed = h.failed := rfl
@[simp] theorem failed_drop (h : Heap κ δ) (p : κ) : (h.drop p).failed = h.failed := rfl

theorem set_self (h : Heap κ δ) {p : κ} {d : δ} (hp : h.page p = some d) : h.set p d = h := by
  simp [set, ← hp]

theorem set_set (h : Heap κ δ) (p : κ) (d e : δ) : (h.set p d).set p e = h.set p e := by
  simp [set]

theorem drop_set (h : Heap κ δ) {p : κ} (hp : h.page p = none) (d : δ) :
    (h.set p d).drop p = h := by
  simp [set, drop, ← hp]

end Heap

/-- The pages, the page in hand (its id, its handle, whether unmarked changes were made) and
the page unpinned last, while nothing else has happened since. -/
structure Store (κ φ δ : Type) where
  heap : Heap κ δ
  held : Option (κ × φ × Bool)
  recent : Option κ

/-- What programs rely on: the contents of a new page, which ids can be handed out, and which
pages others have pinned. -/
structure Context (κ δ : Type) where
  blank : δ
  good : κ → Prop
  shared : κ → Prop

variable [DecidableEq κ]

/-- The weakest precondition. -/
def wp (c : Context κ δ) :
    PagedProgram κ φ δ α → (α → Store κ φ δ → Prop) → Store κ φ δ → Prop
  | .ret a, Q, s => Q a s
  | .diverge, _, _ => False
  | .fetch p k, Q, s =>
    s.held = none ∧ ∃ d, s.heap.page p = some d ∧
      ∀ f, (k (some (f, d))).wp c Q ⟨s.heap, some (p, f, false), none⟩
  | .put f d mark k, Q, s =>
    ∃ p u u', s.held = some (p, f, u) ∧
      (u' = !mark ∨ (u' = false ∧ u = false ∧ s.heap.page p = some d)) ∧
      k.wp c Q ⟨s.heap.set p d, some (p, f, u'), none⟩
  | .unpin p dirty k, Q, s =>
    ∃ f u, s.held = some (p, f, u) ∧ (dirty = true ∨ u = false) ∧
      (k true).wp c Q ⟨s.heap, none, some p⟩
  | .alloc k, Q, s =>
    s.held = none ∧ (k none).wp c Q ⟨s.heap.fail, none, none⟩ ∧
      ∀ p f, s.heap.page p = none → c.good p → ¬ c.shared p →
        (k (some (p, f, c.blank))).wp c Q ⟨s.heap.set p c.blank, some (p, f, false), none⟩
  | .free p k, Q, s =>
    s.held = none ∧ s.heap.page p ≠ none ∧ c.good p ∧ ¬ c.shared p ∧
      (k true).wp c Q ⟨s.heap.drop p, none, none⟩
  | .flush p k, Q, s => s.held = none ∧ s.recent = some p ∧ (k true).wp c Q s
  | .flushAll k, Q, s => s.held = none ∧ k.wp c Q s

variable {c : Context κ δ} {x : PagedProgram κ φ δ α} {g : α → PagedProgram κ φ δ β}

theorem wp_mono {Q R : α → Store κ φ δ → Prop} (h : ∀ a s, Q a s → R a s) {s : Store κ φ δ}
    (hx : x.wp c Q s) : x.wp c R s := by
  induction x generalizing s with
  | ret a => exact h a s hx
  | diverge => exact hx
  | fetch p k ih =>
    obtain ⟨h0, d, hd, hk⟩ := hx
    exact ⟨h0, d, hd, fun f => ih _ (hk f)⟩
  | put f d mark k ih =>
    obtain ⟨p, u, u', h0, h1, hk⟩ := hx
    exact ⟨p, u, u', h0, h1, ih hk⟩
  | unpin p dirty k ih =>
    obtain ⟨f, u, h0, h1, hk⟩ := hx
    exact ⟨f, u, h0, h1, ih _ hk⟩
  | alloc k ih =>
    obtain ⟨h0, hn, hs⟩ := hx
    exact ⟨h0, ih _ hn, fun p f hp hg hsh => ih _ (hs p f hp hg hsh)⟩
  | free p k ih =>
    obtain ⟨h0, h1, h2, h3, hk⟩ := hx
    exact ⟨h0, h1, h2, h3, ih _ hk⟩
  | flush p k ih =>
    obtain ⟨h0, h1, hk⟩ := hx
    exact ⟨h0, h1, ih _ hk⟩
  | flushAll k ih => exact ⟨hx.1, ih hx.2⟩

theorem wp_bind {Q : β → Store κ φ δ → Prop} {s : Store κ φ δ} :
    (x >>= g).wp c Q s ↔ x.wp c (fun a s => (g a).wp c Q s) s := by
  show (x.bind g).wp c Q s ↔ _
  induction x generalizing s with
  | ret a => rfl
  | diverge => rfl
  | fetch p k ih => simp only [bind, wp, ih]
  | put f d mark k ih => simp only [bind, wp, ih]
  | unpin p dirty k ih => simp only [bind, wp, ih]
  | alloc k ih => simp only [bind, wp, ih]
  | free p k ih => simp only [bind, wp, ih]
  | flush p k ih => simp only [bind, wp, ih]
  | flushAll k ih => simp only [bind, wp, ih]

/-- What a program always answers can be added to what it ends with. -/
theorem wp_always {P : α → Prop} {Q : α → Store κ φ δ → Prop} (ha : x.Always P) {s : Store κ φ δ}
    (hx : x.wp c Q s) : x.wp c (fun a s => Q a s ∧ P a) s := by
  induction x generalizing s with
  | ret a => exact ⟨hx, ha⟩
  | diverge => exact hx
  | fetch p k ih =>
    obtain ⟨h0, d, hd, hk⟩ := hx
    exact ⟨h0, d, hd, fun f => ih _ (ha _) (hk f)⟩
  | put f d mark k ih =>
    obtain ⟨p, u, u', h0, h1, hk⟩ := hx
    exact ⟨p, u, u', h0, h1, ih ha hk⟩
  | unpin p dirty k ih =>
    obtain ⟨f, u, h0, h1, hk⟩ := hx
    exact ⟨f, u, h0, h1, ih _ (ha _) hk⟩
  | alloc k ih =>
    obtain ⟨h0, hn, hs⟩ := hx
    exact ⟨h0, ih _ (ha _) hn, fun p f hp hg hsh => ih _ (ha _) (hs p f hp hg hsh)⟩
  | free p k ih =>
    obtain ⟨h0, h1, h2, h3, hk⟩ := hx
    exact ⟨h0, h1, h2, h3, ih _ (ha _) hk⟩
  | flush p k ih =>
    obtain ⟨h0, h1, hk⟩ := hx
    exact ⟨h0, h1, ih _ (ha _) hk⟩
  | flushAll k ih => exact ⟨hx.1, ih ha hx.2⟩

/-! ## Between states with no page in hand -/

/-- Started with no page in hand, the program ends so, in a heap and with a result in `Q`. -/
def Runs (c : Context κ δ) (x : PagedProgram κ φ δ α) (Q : α → Heap κ δ → Prop)
    (h : Heap κ δ) : Prop :=
  ∀ r, x.wp c (fun a s => s.held = none ∧ Q a s.heap) ⟨h, none, r⟩

/-- The same for the rest of a program that has the page `p` in hand. -/
def Holding (c : Context κ δ) (x : PagedProgram κ φ δ α) (Q : α → Heap κ δ → Prop)
    (h : Heap κ δ) (p : κ) (f : φ) (u : Bool) : Prop :=
  x.wp c (fun a s => s.held = none ∧ Q a s.heap) ⟨h, some (p, f, u), none⟩

variable {Q R : α → Heap κ δ → Prop} {h : Heap κ δ} {p : κ} {f : φ} {u : Bool} {d : δ}

theorem Runs.mono (hx : Runs c x Q h) (hQ : ∀ a h, Q a h → R a h) : Runs c x R h :=
  fun r => wp_mono (fun a s hs => ⟨hs.1, hQ a s.heap hs.2⟩) (hx r)

theorem Runs.always {A : α → Prop} (hx : Runs c x Q h) (ha : x.Always A) :
    Runs c x (fun a h => Q a h ∧ A a) h :=
  fun r => wp_mono (fun _ _ hs => ⟨hs.1.1, hs.1.2, hs.2⟩) (wp_always ha (hx r))

theorem runs_pure {a : α} (hQ : Q a h) : Runs (φ := φ) c (pure a) Q h := fun _ => ⟨rfl, hQ⟩

variable {P : β → Heap κ δ → Prop}

/-- A sequence of two programs. -/
theorem Runs.bind (hx : Runs c x (fun a h => Runs c (g a) P h) h) : Runs c (x >>= g) P h := by
  intro r
  refine wp_bind.mpr (wp_mono (fun a s hs => ?_) (hx r))
  obtain ⟨h', held, r'⟩ := s
  obtain ⟨rfl, hg⟩ := hs
  exact hg r'

/-- A page that exists is fetched and in hand. -/
theorem runs_fetchPage {g : Option (φ × δ) → PagedProgram κ φ δ β} (hp : h.page p = some d)
    (hg : ∀ f, Holding c (g (some (f, d))) P h p f false) : Runs c (fetchPage p >>= g) P h :=
  fun _ => ⟨rfl, d, hp, hg⟩

/-- An allocation fails, or a new page is in hand. -/
theorem runs_newPage {g : Option (κ × φ × δ) → PagedProgram κ φ δ β}
    (hnone : Runs c (g none) P h.fail)
    (hsome : ∀ p f, h.page p = none → c.good p → ¬ c.shared p →
      Holding c (g (some (p, f, c.blank))) P (h.set p c.blank) p f false) :
    Runs c (newPage >>= g) P h :=
  fun _ => ⟨rfl, hnone none, hsome⟩

theorem runs_deletePage {g : Bool → PagedProgram κ φ δ β} (hp : h.page p ≠ none) (hg : c.good p)
    (hs : ¬ c.shared p) (hk : Runs c (g true) P (h.drop p)) : Runs c (deletePage p >>= g) P h :=
  fun _ => ⟨rfl, hp, hg, hs, hk none⟩

theorem runs_flushAllPages {g : Unit → PagedProgram κ φ δ β} (hk : Runs c (g ()) P h) :
    Runs c (flushAllPages >>= g) P h :=
  fun r => ⟨rfl, hk r⟩

/-- Replacing the contents and marking the page. -/
theorem holding_putPage {g : Unit → PagedProgram κ φ δ β}
    (hg : Holding c (g ()) P (h.set p d) p f false) :
    Holding c (putPage f d true >>= g) P h p f u :=
  ⟨p, u, false, rfl, .inl rfl, hg⟩

/-- Replacing the contents without a mark: the page is to be unpinned as dirty. -/
theorem holding_putPage_unmarked {g : Unit → PagedProgram κ φ δ β}
    (hg : Holding c (g ()) P (h.set p d) p f true) :
    Holding c (putPage f d false >>= g) P h p f u :=
  ⟨p, u, true, rfl, .inl rfl, hg⟩

/-- Writing back what was read changes nothing. -/
theorem holding_putPage_same {g : Unit → PagedProgram κ φ δ β} {mark : Bool}
    (hp : h.page p = some d) (hg : Holding c (g ()) P h p f false) :
    Holding c (putPage f d mark >>= g) P h p f false := by
  refine ⟨p, false, false, rfl, .inr ⟨rfl, rfl, hp⟩, ?_⟩
  rw [Heap.set_self _ hp]
  exact hg

theorem holding_unpinPage {g : Bool → PagedProgram κ φ δ β} {dirty : Bool}
    (hd : dirty = true ∨ u = false) (hg : Runs c (g true) P h) :
    Holding c (unpinPage p dirty >>= g) P h p f u :=
  ⟨f, u, rfl, hd, hg (some p)⟩

/-- A page that has just been unpinned is still resident, so it can be flushed. -/
theorem holding_unpinPage_flushPage {g k : Bool → PagedProgram κ φ δ β} {dirty : Bool}
    (hd : dirty = true ∨ u = false) (hk : k true = (flushPage p >>= g)) (hg : Runs c (g true) P h) :
    Holding c (unpinPage p dirty >>= k) P h p f u := by
  refine ⟨f, u, rfl, hd, ?_⟩
  show (k true).wp c _ _
  rw [hk]
  exact ⟨rfl, rfl, hg (some p)⟩

end PagedProgram

end Lib
