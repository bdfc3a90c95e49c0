import MiniDbms.Lib.PagedProgram

/-!
# Chains of linked pages

A chain of pages in which each page names the next one: `LinkedFrom node good last h p chain`
says that the pages `h` hold the chain that starts at `p`, where `node d q next s` is what
the contents `d` of a page `q` must be for it to hold `s` and link to `next`, `good` what
every page id of a chain satisfies, and `last` the id that ends a chain.

Chains depend on their own pages only (`LinkedFrom.congr`); a page is looked up with
`LinkedFrom.node_of_mem`, the last one with `LinkedFrom.node_of_last` and the rest of a chain
with `LinkedFrom.dropWhile`. A chain changes in one page (`LinkedFrom.setNode`) or grows at
its end (`LinkedFrom.append`).
-/

namespace Lib

open PagedProgram

variable {κ δ σ : Type}

/-- The ids of the pages of a chain. -/
def chainIds (chain : List (κ × σ)) : List κ := chain.map Prod.fst

@[simp] theorem length_chainIds (chain : List (κ × σ)) : (chainIds chain).length = chain.length :=
  List.length_map _

/-- The chain with other contents in the page `q`. -/
def setNode [DecidableEq κ] (chain : List (κ × σ)) (q : κ) (s : σ) : List (κ × σ) :=
  chain.map fun x => if x.1 = q then (q, s) else x

section

variable [DecidableEq κ] {chain : List (κ × σ)} {q : κ} {s : σ}

theorem setNode_cons (x : κ × σ) (chain : List (κ × σ)) (q : κ) (s : σ) :
    setNode (x :: chain) q s = (if x.1 = q then (q, s) else x) :: setNode chain q s := rfl

theorem chainIds_setNode (chain : List (κ × σ)) (q : κ) (s : σ) :
    chainIds (setNode chain q s) = chainIds chain := by
  unfold chainIds setNode
  rw [List.map_map]
  apply List.map_congr_left
  intro x _
  simp only [Function.comp]
  split
  · rename_i h
    exact h.symm
  · rfl

theorem setNode_of_notMem (h : q ∉ chainIds chain) : setNode chain q s = chain := by
  unfold setNode
  rw [List.map_congr_left (g := id), List.map_id]
  intro x hx
  rw [if_neg]
  · rfl
  · rintro rfl
    exact h (List.mem_map_of_mem hx)

theorem setNode_split {pre post : List (κ × σ)} {s' : σ}
    (hn : (chainIds (pre ++ (q, s') :: post)).Nodup) :
    setNode (pre ++ (q, s') :: post) q s = pre ++ (q, s) :: post := by
  have hq : q ∉ chainIds pre ∧ q ∉ chainIds post := by
    rw [chainIds, List.map_append, List.nodup_append] at hn
    refine ⟨fun hin => hn.2.2 q hin q List.mem_cons_self rfl, ?_⟩
    exact (List.nodup_cons.mp hn.2.1).1
  have happend : setNode (pre ++ (q, s') :: post) q s =
      setNode pre q s ++ (q, s) :: setNode post q s := by
    rw [setNode, List.map_append, List.map_cons, if_pos rfl]
    rfl
  rw [happend, setNode_of_notMem hq.1, setNode_of_notMem hq.2]

end

/-- The pages hold a chain that starts at the given page. -/
def LinkedFrom (node : δ → κ → κ → σ → Prop) (good : κ → Prop) (last : κ) (h : Heap κ δ) :
    κ → List (κ × σ) → Prop
  | p, [] => p = last
  | p, (q, s) :: rest =>
    p = q ∧ good q ∧
      ∃ d next, h.page q = some d ∧ node d q next s ∧ LinkedFrom node good last h next rest

namespace LinkedFrom

variable {node : δ → κ → κ → σ → Prop} {good : κ → Prop} {last p q : κ} {h h' : Heap κ δ}
  {chain : List (κ × σ)}

theorem congr (hc : LinkedFrom node good last h p chain)
    (hsame : ∀ q ∈ chainIds chain, h'.page q = h.page q) :
    LinkedFrom node good last h' p chain := by
  induction chain generalizing p with
  | nil => exact hc
  | cons x rest ih =>
    obtain ⟨he, hgood, d, next, hd, hs, hrest⟩ := hc
    refine ⟨he, hgood, d, next, ?_, hs, ih hrest fun q hq => hsame q (List.mem_cons_of_mem _ hq)⟩
    rw [hsame x.1 List.mem_cons_self, hd]

/-- A chain with another page changed. -/
theorem set [DecidableEq κ] (hc : LinkedFrom node good last h p chain) (hq : q ∉ chainIds chain)
    (d : δ) : LinkedFrom node good last (h.set q d) p chain :=
  hc.congr fun x hx => Heap.page_set_of_ne h (fun he : x = q => hq (he ▸ hx)) d

theorem node_of_mem (hc : LinkedFrom node good last h p chain) {s : σ} (hq : (q, s) ∈ chain) :
    good q ∧ ∃ d next, h.page q = some d ∧ node d q next s := by
  induction chain generalizing p with
  | nil => cases hq
  | cons x rest ih =>
    obtain ⟨-, hgood, d, next, hd, hs, hrest⟩ := hc
    rcases List.mem_cons.mp hq with rfl | hq
    · exact ⟨hgood, d, next, hd, hs⟩
    · exact ih hrest hq

theorem good_of_mem (hc : LinkedFrom node good last h p chain) (hq : q ∈ chainIds chain) :
    good q := by
  obtain ⟨x, hx, rfl⟩ := List.mem_map.mp hq
  exact (hc.node_of_mem hx).1

theorem page_ne_none (hc : LinkedFrom node good last h p chain) (hq : q ∈ chainIds chain) :
    h.page q ≠ none := by
  obtain ⟨x, hx, rfl⟩ := List.mem_map.mp hq
  obtain ⟨-, d, next, hd, -⟩ := hc.node_of_mem hx
  rw [hd]
  nofun

/-- From a page of the chain on, the pages hold the rest of the chain. -/
theorem dropWhile [DecidableEq κ] (hc : LinkedFrom node good last h p chain)
    (hq : q ∈ chainIds chain) :
    LinkedFrom node good last h q (chain.dropWhile fun x => x.1 ≠ q) := by
  induction chain generalizing p with
  | nil => cases hq
  | cons x rest ih =>
    by_cases hx : x.1 = q
    · rw [List.dropWhile_cons_of_neg (by simp [hx])]
      obtain ⟨y, s⟩ := x
      obtain ⟨rfl, hrest⟩ := hc
      subst hx
      exact ⟨rfl, hrest⟩
    · rw [List.dropWhile_cons_of_pos (by simp [hx])]
      obtain ⟨-, -, d, next, -, -, hrest⟩ := hc
      exact ih hrest ((List.mem_cons.mp hq).resolve_left (Ne.symm hx))

/-- The last page of a chain links to nothing. -/
theorem node_of_last {pre : List (κ × σ)} {s : σ}
    (hc : LinkedFrom node good last h p (pre ++ [(q, s)])) :
    good q ∧ ∃ d, h.page q = some d ∧ node d q last s := by
  induction pre generalizing p with
  | nil =>
    obtain ⟨-, hgood, d, next, hd, hs, rfl⟩ := hc
    exact ⟨hgood, d, hd, hs⟩
  | cons x rest ih =>
    obtain ⟨-, -, -, next, -, -, hrest⟩ := hc
    exact ih hrest

/-- Changing the contents of one page, which keeps its link. -/
theorem setNode [DecidableEq κ] (hc : LinkedFrom node good last h p chain)
    (hnodup : (chainIds chain).Nodup) (hq : q ∈ chainIds chain) {d d' : δ} {s' : σ}
    (hd : h.page q = some d) (hs : ∀ next s, node d q next s → node d' q next s') :
    LinkedFrom node good last (h.set q d') p (Lib.setNode chain q s') := by
  induction chain generalizing p with
  | nil => cases hq
  | cons x rest ih =>
    obtain ⟨y, s⟩ := x
    obtain ⟨rfl, hgood, dy, next, hdy, hsy, hrest⟩ := hc
    obtain ⟨hnot, hnodup'⟩ := List.nodup_cons.mp hnodup
    rw [setNode_cons]
    by_cases he : p = q
    · subst he
      cases hdy.symm.trans hd
      rw [if_pos rfl, setNode_of_notMem hnot]
      exact ⟨rfl, hgood, d', next, Heap.page_set_self .., hs next s hsy, hrest.set hnot d'⟩
    · rw [if_neg he]
      exact ⟨rfl, hgood, dy, next, by rw [Heap.page_set_of_ne _ he, hdy], hsy,
        ih hrest hnodup' ((List.mem_cons.mp hq).resolve_left (Ne.symm he))⟩

/-- A chain grows by a page that its last page is linked to. -/
theorem append {pre : List (κ × σ)} {s s' : σ} {n : κ} {d' dn : δ}
    (hc : LinkedFrom node good last h p (pre ++ [(q, s)])) (hq : q ∉ chainIds pre)
    (hd' : h'.page q = some d') (hs' : node d' q n s) (hgood : good n) (hdn : h'.page n = some dn)
    (hsn : node dn n last s') (hsame : ∀ x ∈ chainIds pre, h'.page x = h.page x) :
    LinkedFrom node good last h' p (pre ++ [(q, s), (n, s')]) := by
  induction pre generalizing p with
  | nil =>
    obtain ⟨rfl, hgoodp, -⟩ := hc
    exact ⟨rfl, hgoodp, d', n, hd', hs', rfl, hgood, dn, last, hdn, hsn, rfl⟩
  | cons x rest ih =>
    obtain ⟨rfl, hgoodx, d, next, hd, hs, hrest⟩ := hc
    refine ⟨rfl, hgoodx, d, next, ?_, hs, ih hrest ?_ ?_⟩
    · rw [hsame x.1 List.mem_cons_self, hd]
    · intro hin
      exact hq (List.mem_cons_of_mem _ hin)
    · intro y hy
      exact hsame y (List.mem_cons_of_mem _ hy)

theorem first_mem (hc : LinkedFrom node good last h p chain) (hp : p ≠ last) :
    p ∈ chainIds chain := by
  cases chain with
  | nil => exact absurd hc hp
  | cons x rest =>
    obtain ⟨rfl, -⟩ := hc
    exact List.mem_cons_self

/-- Each page of a chain has its link, which ends the chain or leads to another page of it. -/
theorem next_mem (hc : LinkedFrom node good last h p chain) (hq : q ∈ chainIds chain) :
    ∃ d next s, h.page q = some d ∧ node d q next s ∧ (next ≠ last → next ∈ chainIds chain) := by
  induction chain generalizing p with
  | nil => cases hq
  | cons x rest ih =>
    obtain ⟨rfl, -, d, next, hd, hs, hrest⟩ := hc
    rcases List.mem_cons.mp hq with rfl | hq
    · exact ⟨d, next, x.2, hd, hs, fun hne => List.mem_cons_of_mem _ (hrest.first_mem hne)⟩
    · obtain ⟨d, next, s, hd, hs, hin⟩ := ih hrest hq
      exact ⟨d, next, s, hd, hs, fun hne => List.mem_cons_of_mem _ (hin hne)⟩

/-- What holds of the first page and passes along the links holds of the whole chain. -/
theorem forall_mem {P : κ → Prop} (hc : LinkedFrom node good last h p chain)
    (hlast : ¬ good last) (hfirst : p ≠ last → P p)
    (hnext : ∀ q d next s, P q → h.page q = some d → node d q next s → next ≠ last → P next) :
    ∀ q ∈ chainIds chain, P q := by
  induction chain generalizing p with
  | nil => exact nofun
  | cons x rest ih =>
    obtain ⟨rfl, hgood, d, next, hd, hs, hrest⟩ := hc
    have hp : P x.1 := hfirst fun heq => hlast (heq ▸ hgood)
    intro q hq
    rcases List.mem_cons.mp hq with rfl | hq
    · exact hp
    · exact ih hrest (fun hne => hnext _ d next x.2 hp hd hs hne) q hq

end LinkedFrom

end Lib
