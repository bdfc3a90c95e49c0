import Mathlib.Data.List.Basic

/-!
# Parsers over lists of tokens

A parser reads tokens from the front of a list and returns a value or an error. `Parses` relates it
to a grammar: a relation between lists of tokens and the values that they denote. `kind` is what the
parser sees of the tokens that are left. After an accepted phrase, `ends` is known of what is left;
a phrase is accepted if `follow` holds of what is left behind it.

A `Storing` parser has a place for its result, which it keeps after an error. `Stores` says that it
stores what a phrase denotes, and leaves the place as it was when it fails.
-/

namespace Lib

variable {τ κ ε α β γ : Type}

theorem run_bind_ok {x : StateT (List τ) (Except ε) α} {g : α → StateT (List τ) (Except ε) β}
    {tokens rest : List τ} {b : β} :
    (x >>= g).run tokens = .ok (b, rest) ↔
      ∃ a mid, x.run tokens = .ok (a, mid) ∧ (g a).run mid = .ok (b, rest) := by
  rw [StateT.run_bind]
  cases hx : x.run tokens with
  | error e =>
    constructor
    · intro h
      cases h
    · intro ⟨a, mid, h, _⟩
      cases h
  | ok r =>
    constructor
    · intro h
      exact ⟨r.1, r.2, rfl, h⟩
    · intro ⟨a, mid, h, hg⟩
      cases h
      exact hg

theorem run_pure_ok {tokens rest : List τ} {a b : α} :
    (pure a : StateT (List τ) (Except ε) α).run tokens = .ok (b, rest) ↔ b = a ∧ rest = tokens := by
  rw [StateT.run_pure]
  constructor
  · intro h
    cases h
    exact ⟨rfl, rfl⟩
  · intro ⟨hb, hr⟩
    rw [hb, hr]
    rfl

/-- The parser accepts the phrases of a grammar. -/
structure Parses (kind : List τ → κ) (p : StateT (List τ) (Except ε) α)
    (phrase : List τ → α → Prop) (ends follow : κ → Prop) : Prop where
  sound : ∀ {tokens a rest}, p.run tokens = .ok (a, rest) →
    ∃ front, phrase front a ∧ tokens = front ++ rest ∧ ends (kind rest)
  complete : ∀ {front a rest}, phrase front a → follow (kind rest) →
    p.run (front ++ rest) = .ok (a, rest)

/-- Any kind of token. -/
def anything (_ : κ) : Prop := True

namespace Parses

variable {kind : List τ → κ} {p : StateT (List τ) (Except ε) α}
  {g : α → StateT (List τ) (Except ε) β} {phrase phrase' : List τ → α → Prop}
  {phrases : α → List τ → β → Prop} {ends follow follow' : κ → Prop}

theorem pure (a : α) :
    Parses kind (Pure.pure a : StateT (List τ) (Except ε) α) (fun front b => front = [] ∧ b = a)
      anything anything where
  sound h := by
    obtain ⟨rfl, rfl⟩ := run_pure_ok.mp h
    exact ⟨[], ⟨rfl, rfl⟩, rfl, trivial⟩
  complete h _ := by
    obtain ⟨rfl, rfl⟩ := h
    rfl

/-- The same phrases, described in another way. -/
theorem congr (hp : Parses kind p phrase ends follow)
    (h : ∀ front a, phrase front a ↔ phrase' front a) :
    Parses kind p phrase' ends follow where
  sound hrun := by
    obtain ⟨front, hphrase, htokens, hends⟩ := hp.sound hrun
    exact ⟨front, (h front _).mp hphrase, htokens, hends⟩
  complete hphrase hfollow := hp.complete ((h _ _).mpr hphrase) hfollow

theorem strengthen (hp : Parses kind p phrase ends follow) (h : ∀ k, follow' k → follow k) :
    Parses kind p phrase ends follow' where
  sound := hp.sound
  complete hphrase hfollow := hp.complete hphrase (h _ hfollow)

/-- A phrase behind another one. The second phrase, or what follows it, must not run into the
first. -/
theorem bind (hp : Parses kind p phrase anything follow)
    (hg : ∀ a, Parses kind (g a) (phrases a) ends follow')
    (hnext : ∀ {a front b rest}, phrases a front b → follow' (kind rest) →
      follow (kind (front ++ rest))) :
    Parses kind (p >>= g)
      (fun front b => ∃ a first second, phrase first a ∧ phrases a second b ∧
        front = first ++ second)
      ends follow' where
  sound h := by
    obtain ⟨a, mid, hfirst, hsecond⟩ := run_bind_ok.mp h
    obtain ⟨first, hphrase, rfl, -⟩ := hp.sound hfirst
    obtain ⟨second, hphrase', rfl, hends⟩ := (hg a).sound hsecond
    exact ⟨first ++ second, ⟨a, first, second, hphrase, hphrase', rfl⟩,
      (List.append_assoc _ _ _).symm, hends⟩
  complete h hfollow := by
    obtain ⟨a, first, second, hphrase, hphrase', rfl⟩ := h
    rw [List.append_assoc]
    exact run_bind_ok.mpr ⟨a, _, hp.complete hphrase (hnext hphrase' hfollow),
      (hg a).complete hphrase' hfollow⟩

/-- The value of a phrase is changed after it has been read. -/
theorem map (hp : Parses kind p phrase ends follow) (f : α → γ) :
    Parses kind (p >>= fun a => Pure.pure (f a)) (fun front c => ∃ a, phrase front a ∧ c = f a)
      ends follow where
  sound h := by
    obtain ⟨a, mid, hfirst, hsecond⟩ := run_bind_ok.mp h
    obtain ⟨rfl, rfl⟩ := run_pure_ok.mp hsecond
    obtain ⟨front, hphrase, htokens, hends⟩ := hp.sound hfirst
    exact ⟨front, ⟨a, hphrase, rfl⟩, htokens, hends⟩
  complete h hfollow := by
    obtain ⟨a, hphrase, rfl⟩ := h
    exact run_bind_ok.mpr ⟨a, _, hp.complete hphrase hfollow, rfl⟩

end Parses

/-! ## Parsers with a place for their result -/

/-- A parser with a place for its result. What is stored there stays after an error. -/
abbrev Storing (τ ε β α : Type) := StateT (List τ) (ExceptT ε (StateM (Option β))) α

namespace Storing

variable {τ ε α β γ : Type}

/-- The result, the tokens that are left, and what is in the place at the end. -/
def runOn (q : Storing τ ε β α) (tokens : List τ) (output : Option β) :
    Except ε (α × List τ) × Option β := q tokens output

/-- A parser that does not know of the place. -/
def lift (p : StateT (List τ) (Except ε) α) : Storing τ ε β α :=
  fun tokens output => (p.run tokens, output)

instance : MonadLift (StateT (List τ) (Except ε))
    (StateT (List τ) (ExceptT ε (StateM (Option β)))) :=
  ⟨lift⟩

/-- The place is emptied. -/
def reset : Storing τ ε β Unit := fun tokens _ => (.ok ((), tokens), none)

/-- A result is put into the place. -/
def store (b : β) : Storing τ ε β Unit := fun tokens _ => (.ok ((), tokens), some b)

variable {p : StateT (List τ) (Except ε) α} {g : α → Storing τ ε β γ} {tokens rest : List τ}
  {output : Option β} {a : α} {e : ε}

/-- What follows a parser that does not know of the place. -/
theorem runOn_bind_ok (h : p.run tokens = .ok (a, rest)) :
    runOn (lift p >>= g) tokens output = runOn (g a) rest output := by
  show (ExceptT.bindCont _ (p.run tokens) : StateM (Option β) _) output = _
  rw [h]
  rfl

theorem runOn_bind_error (h : p.run tokens = .error e) :
    runOn (lift p >>= g) tokens output = (.error e, output) := by
  show (ExceptT.bindCont _ (p.run tokens) : StateM (Option β) _) output = _
  rw [h]
  rfl

/-- A run stops with the error of the first parser, or goes on behind it. -/
theorem runOn_bind_cases {r : Except ε (γ × List τ) × Option β}
    (h : runOn (lift p >>= g) tokens output = r) :
    (∃ e, r = (.error e, output)) ∨
      ∃ a rest, p.run tokens = .ok (a, rest) ∧ runOn (g a) rest output = r := by
  cases hrun : p.run tokens with
  | error e => exact .inl ⟨e, by rw [← h, runOn_bind_error hrun]⟩
  | ok first => exact .inr ⟨first.1, first.2, rfl, by rw [← h, runOn_bind_ok hrun]⟩

end Storing

/-- The parser stores what the phrases of a grammar denote. -/
structure Stores (kind : List τ → κ) (q : Storing τ ε β Unit) (phrase : List τ → β → Prop)
    (ends follow : κ → Prop) : Prop where
  sound : ∀ {tokens rest output output'}, q.runOn tokens output = (.ok ((), rest), output') →
    ∃ front b, output' = some b ∧ phrase front b ∧ tokens = front ++ rest ∧ ends (kind rest)
  complete : ∀ {front b rest} (output), phrase front b → follow (kind rest) →
    q.runOn (front ++ rest) output = (.ok ((), rest), some b)
  failed : ∀ {tokens output e output'}, q.runOn tokens output = (.error e, output') →
    output' = output

/-- A parser whose value is stored. -/
theorem Parses.stores {kind : List τ → κ} {p : StateT (List τ) (Except ε) β}
    {phrase : List τ → β → Prop} {ends follow : κ → Prop} (hp : Parses kind p phrase ends follow) :
    Stores kind (Storing.lift p >>= Storing.store) phrase ends follow where
  sound {tokens rest output output'} h := by
    obtain ⟨_, herror⟩ | ⟨b, mid, hrun, hstore⟩ := Storing.runOn_bind_cases h
    · cases herror
    · cases hstore
      obtain ⟨front, hphrase, htokens, hends⟩ := hp.sound hrun
      exact ⟨front, b, rfl, hphrase, htokens, hends⟩
  complete {front b rest} output hphrase hfollow :=
    Storing.runOn_bind_ok (hp.complete hphrase hfollow)
  failed {tokens output e output'} h := by
    obtain ⟨_, herror⟩ | ⟨b, mid, hrun, hstore⟩ := Storing.runOn_bind_cases h
    · cases herror
      rfl
    · cases hstore

namespace Stores

variable {kind : List τ → κ} {p : StateT (List τ) (Except ε) α} {q : Storing τ ε β Unit}
  {g : α → Storing τ ε β Unit} {phrase : List τ → α → Prop} {results results' : List τ → β → Prop}
  {phrases : α → List τ → β → Prop} {ends follow follow' : κ → Prop}

/-- The same phrases, described in another way. -/
theorem congr (hq : Stores kind q results ends follow)
    (h : ∀ front b, results front b ↔ results' front b) : Stores kind q results' ends follow where
  sound hrun := by
    obtain ⟨front, b, hstored, hphrase, htokens, hends⟩ := hq.sound hrun
    exact ⟨front, b, hstored, (h front b).mp hphrase, htokens, hends⟩
  complete output hphrase hfollow := hq.complete output ((h _ _).mpr hphrase) hfollow
  failed := hq.failed

/-- A phrase in front of those whose results are stored. -/
theorem bind (hp : Parses kind p phrase anything follow)
    (hg : ∀ a, Stores kind (g a) (phrases a) ends follow')
    (hnext : ∀ {a front b rest}, phrases a front b → follow' (kind rest) →
      follow (kind (front ++ rest))) :
    Stores kind (Storing.lift p >>= g)
      (fun front b => ∃ a first second, phrase first a ∧ phrases a second b ∧
        front = first ++ second)
      ends follow' where
  sound {tokens rest output output'} h := by
    obtain ⟨_, herror⟩ | ⟨a, mid, hrun, hrest⟩ := Storing.runOn_bind_cases h
    · cases herror
    · obtain ⟨first, hphrase, rfl, -⟩ := hp.sound hrun
      obtain ⟨second, b, hstored, hphrase', rfl, hends⟩ := (hg a).sound hrest
      exact ⟨first ++ second, b, hstored, ⟨a, first, second, hphrase, hphrase', rfl⟩,
        (List.append_assoc _ _ _).symm, hends⟩
  complete output h hfollow := by
    obtain ⟨a, first, second, hphrase, hphrase', rfl⟩ := h
    rw [List.append_assoc, Storing.runOn_bind_ok (hp.complete hphrase (hnext hphrase' hfollow))]
    exact (hg a).complete output hphrase' hfollow
  failed {tokens output e output'} h := by
    obtain ⟨_, herror⟩ | ⟨a, mid, hrun, hrest⟩ := Storing.runOn_bind_cases h
    · cases herror
      rfl
    · exact (hg a).failed hrest

end Stores

/-! ## Repetition -/

/-- One phrase or more, with one token between neighbours. -/
inductive Separated (separator : τ → Prop) (phrase : List τ → α → Prop) : List τ → List α → Prop
  | one {front : List τ} {a : α} (h : phrase front a) : Separated separator phrase front [a]
  | more {front rest : List τ} {token : τ} {a : α} {as : List α} (h : phrase front a)
      (htoken : separator token) (hrest : Separated separator phrase rest as) :
      Separated separator phrase (front ++ token :: rest) (a :: as)

/-- What every phrase contains is among the tokens of the list. -/
theorem Separated.mem {separator : τ → Prop} {phrase : List τ → α → Prop} {front : List τ}
    {as : List α} {f : α → τ} (h : Separated separator phrase front as)
    (hphrase : ∀ front a, phrase front a → f a ∈ front) : ∀ a ∈ as, f a ∈ front := by
  induction h with
  | one h =>
    intro a ha
    rw [List.mem_singleton.mp ha]
    exact hphrase _ _ h
  | more h htoken _ ih =>
    intro a ha
    rcases List.mem_cons.mp ha with rfl | ha
    · exact List.mem_append_left _ (hphrase _ _ h)
    · exact List.mem_append_right _ (List.mem_cons_of_mem _ (ih a ha))

theorem Separated.append {separator : τ → Prop} {phrase : List τ → α → Prop} {front rest : List τ}
    {token : τ} {as bs : List α} (h : Separated separator phrase front as)
    (htoken : separator token) (hrest : Separated separator phrase rest bs) :
    Separated separator phrase (front ++ token :: rest) (as ++ bs) := by
  induction h with
  | one h => exact .more h htoken hrest
  | more h htoken' _ ih =>
    rw [List.append_assoc, List.cons_append]
    exact .more h htoken' ih

end Lib
