import Mathlib.Data.List.Nodup
import Mathlib.Data.List.Perm.Basic

/-!
# Lists of the entries of a partial function

`Lists l f`: the list has every key of the partial function `f` once, with its value. Two lists of
the same function are permutations of each other (`Lists.perm`). When a function changes at some
keys only, its lists differ in the entries of these keys and have the others in common
(`Lists.frame`).
-/

namespace Lib

variable {κ α : Type}

structure Lists (l : List (κ × α)) (f : κ → Option α) : Prop where
  nodup : (l.map Prod.fst).Nodup
  mem : ∀ k a, (k, a) ∈ l ↔ f k = some a

/-- The entries of the given keys. -/
def entriesAt (f : κ → Option α) (keys : List κ) : List (κ × α) :=
  keys.filterMap fun k => (f k).map (Prod.mk k)

variable {l l' : List (κ × α)} {f f' : κ → Option α} {keys : List κ}

theorem mem_entriesAt {k : κ} {a : α} : (k, a) ∈ entriesAt f keys ↔ k ∈ keys ∧ f k = some a := by
  simp only [entriesAt, List.mem_filterMap, Option.map_eq_some_iff, Prod.mk.injEq]
  constructor
  · intro h
    obtain ⟨k', hk', a', ha', rfl, rfl⟩ := h
    exact ⟨hk', ha'⟩
  · intro h
    exact ⟨k, h.1, a, h.2, rfl, rfl⟩

theorem nodup_entriesAt (hkeys : keys.Nodup) : (entriesAt f keys).Nodup := by
  apply hkeys.filterMap
  intro k k' e he he'
  obtain ⟨a, -, rfl⟩ := Option.map_eq_some_iff.mp (Option.mem_def.mp he)
  obtain ⟨a', -, heq⟩ := Option.map_eq_some_iff.mp (Option.mem_def.mp he')
  exact (Prod.mk.inj heq).1.symm

theorem Lists.nodup_entries (h : Lists l f) : l.Nodup := h.nodup.of_map

theorem Lists.perm (h : Lists l f) (h' : Lists l' f) : l.Perm l' := by
  apply (List.perm_ext_iff_of_nodup h.nodup_entries h'.nodup_entries).mpr
  intro e
  rw [h.mem e.1 e.2, h'.mem e.1 e.2]

section

variable [DecidableEq κ]

/-- The entries of the given keys, and the others. -/
theorem Lists.split (h : Lists l f) (hkeys : keys.Nodup) :
    l.Perm (entriesAt f keys ++ l.filter fun e => e.1 ∉ keys) := by
  have hnodup : (entriesAt f keys ++ l.filter fun e => e.1 ∉ keys).Nodup := by
    refine List.nodup_append.mpr
      ⟨nodup_entriesAt hkeys, h.nodup_entries.filter _, fun e he e' he' hee => ?_⟩
    have hin := (mem_entriesAt.mp he).1
    have hout := of_decide_eq_true (List.mem_filter.mp he').2
    exact hout (hee ▸ hin)
  apply (List.perm_ext_iff_of_nodup h.nodup_entries hnodup).mpr
  intro e
  rw [List.mem_append, mem_entriesAt, List.mem_filter, h.mem e.1 e.2]
  by_cases hin : e.1 ∈ keys <;> simp [hin]

/-- The entries outside the given keys are those of a function that differs at these keys only. -/
theorem Lists.frame (h : Lists l f) (h' : Lists l' f') (hkeys : keys.Nodup)
    (hsame : ∀ k, k ∉ keys → f' k = f k) :
    ∃ rest, l.Perm (entriesAt f keys ++ rest) ∧ l'.Perm (entriesAt f' keys ++ rest) := by
  refine ⟨_, h.split hkeys, (h'.split hkeys).trans ((List.perm_append_left_iff _).mpr ?_)⟩
  apply (List.perm_ext_iff_of_nodup (h'.nodup_entries.filter _) (h.nodup_entries.filter _)).mpr
  intro e
  rw [List.mem_filter, List.mem_filter, h.mem e.1 e.2, h'.mem e.1 e.2]
  by_cases hin : e.1 ∈ keys
  · simp [hin]
  · simp [hin, hsame e.1 hin]

end

end Lib
