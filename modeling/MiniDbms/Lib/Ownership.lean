import MiniDbms.Lib.Footprint

/-!
# Ownership

The pages of a store are divided among owners. `Owned h owners own` says that the list
`own i` of an owner `i` has no page twice, that no page has two owners, and that the pages
with an owner are exactly those that exist. An operation of one owner keeps this
(`Owned.change`) and leaves the pages of the others as they are (`Owned.page_eq`). Owners come
and go (`Owned.add`, `Owned.remove`).
-/

namespace Lib

open PagedProgram

variable {κ δ ι : Type}

/-- Every page that exists has exactly one owner. -/
structure Owned (h : Heap κ δ) (owners : ι → Prop) (own : ι → List κ) : Prop where
  nodup : ∀ i, owners i → (own i).Nodup
  unique : ∀ i j p, owners i → owners j → p ∈ own i → p ∈ own j → i = j
  covers : ∀ p, h.page p ≠ none ↔ ∃ i, owners i ∧ p ∈ own i

namespace Owned

variable {h h' : Heap κ δ} {owners owners' : ι → Prop} {own own' : ι → List κ} {i j : ι}
  {l : List κ} {p : κ}

theorem exists_of_mem (ho : Owned h owners own) (hi : owners i) (hp : p ∈ own i) :
    h.page p ≠ none :=
  (ho.covers p).mpr ⟨i, hi, hp⟩

theorem notMem_of_ne (ho : Owned h owners own) (hi : owners i) (hj : owners j) (hne : j ≠ i)
    (hp : p ∈ own j) : p ∉ own i := fun hin => hne (ho.unique j i p hj hi hp hin)

/-- The pages of the other owners are not touched. -/
theorem page_eq (ho : Owned h owners own) (hi : owners i) (hf : Footprint h (own i) h' l)
    (hj : owners j) (hne : j ≠ i) : ∀ p ∈ own j, h'.page p = h.page p := fun _ hp =>
  hf.page_eq (ho.notMem_of_ne hi hj hne hp) (ho.exists_of_mem hj hp)

/-- The same pages, and the same lists for the owners. -/
theorem congr (ho : Owned h owners own) (hpage : ∀ p, h'.page p = none ↔ h.page p = none)
    (howners : ∀ i, owners' i ↔ owners i) (hown : ∀ i, owners i → own' i = own i) :
    Owned h' owners' own' where
  nodup i hi := by
    rw [hown i ((howners i).mp hi)]
    exact ho.nodup i ((howners i).mp hi)
  unique i j p hi hj hp hp' := by
    rw [hown i ((howners i).mp hi)] at hp
    rw [hown j ((howners j).mp hj)] at hp'
    exact ho.unique i j p ((howners i).mp hi) ((howners j).mp hj) hp hp'
  covers p := by
    rw [ne_eq, hpage, ← ne_eq, ho.covers]
    apply exists_congr
    intro i
    rw [howners]
    apply and_congr_right
    intro hi
    rw [hown i hi]

/-- What an operation of the owner `i` does to the division. -/
theorem change [DecidableEq ι] (ho : Owned h owners own) (hi : owners i)
    (hf : Footprint h (own i) h' l) (hn : l.Nodup) (hl : ∀ p ∈ l, h'.page p ≠ none) :
    Owned h' owners (Function.update own i l) := by
  have hother : ∀ j, owners j → j ≠ i → ∀ p ∈ own j, p ∉ l := fun j hj hne p hp =>
    hf.not_acquired (ho.notMem_of_ne hi hj hne hp) (ho.exists_of_mem hj hp)
  refine ⟨fun j hj => ?_, fun j k p hj hk hp hp' => ?_, fun p => ⟨fun hp => ?_, ?_⟩⟩
  · rw [Function.update_apply]
    split
    · exact hn
    · exact ho.nodup j hj
  · rw [Function.update_apply] at hp hp'
    split at hp <;> split at hp'
    · rename_i hji hki
      rw [hji, hki]
    · rename_i hji hki
      exact absurd hp (hother k hk hki p hp')
    · rename_i hji hki
      exact absurd hp' (hother j hj hji p hp)
    · exact ho.unique j k p hj hk hp hp'
  · by_cases hin : p ∈ l
    · exact ⟨i, hi, by rwa [Function.update_self]⟩
    · have hnot : p ∉ own i := fun hin' => hp (hf.dropped p hin' hin)
      rw [hf.same p hnot hin] at hp
      obtain ⟨j, hj, hpj⟩ := (ho.covers p).mp hp
      have hne : j ≠ i := by
        rintro rfl
        exact hnot hpj
      exact ⟨j, hj, by rwa [Function.update_of_ne hne]⟩
  · rintro ⟨j, hj, hpj⟩
    rw [Function.update_apply] at hpj
    split at hpj
    · exact hl p hpj
    · rename_i hne
      rw [ho.page_eq hi hf hj hne p hpj]
      exact ho.exists_of_mem hj hpj

/-- A new owner without pages. -/
theorem insert_nil [DecidableEq ι] (ho : Owned h owners own) (hj : ¬ owners j) :
    Owned h (fun i => owners i ∨ i = j) (Function.update own j []) := by
  have hmem : ∀ {i p}, p ∈ Function.update own j [] i → i ≠ j ∧ p ∈ own i := by
    intro i p hp
    rw [Function.update_apply] at hp
    split at hp
    · cases hp
    · rename_i hne
      exact ⟨hne, hp⟩
  refine ⟨fun i hi => ?_, fun i k p hi hk hp hp' => ?_, fun p => ?_⟩
  · rw [Function.update_apply]
    split
    · exact List.nodup_nil
    · rename_i hne
      exact ho.nodup i (hi.resolve_right hne)
  · obtain ⟨hne, hp⟩ := hmem hp
    obtain ⟨hne', hp'⟩ := hmem hp'
    exact ho.unique i k p (hi.resolve_right hne) (hk.resolve_right hne') hp hp'
  · rw [ho.covers]
    constructor
    · rintro ⟨i, hi, hp⟩
      have hne : i ≠ j := by
        rintro rfl
        exact hj hi
      exact ⟨i, .inl hi, by rwa [Function.update_of_ne hne]⟩
    · rintro ⟨i, hi, hp⟩
      obtain ⟨hne, hp⟩ := hmem hp
      exact ⟨i, hi.resolve_right hne, hp⟩

/-- An operation that makes a new owner. -/
theorem add [DecidableEq ι] (ho : Owned h owners own) (hj : ¬ owners j) (hf : Footprint h [] h' l)
    (hn : l.Nodup) (hl : ∀ p ∈ l, h'.page p ≠ none) :
    Owned h' (fun i => owners i ∨ i = j) (Function.update own j l) := by
  have hnil : Function.update own j [] j = [] := Function.update_self _ _ _
  have hnew := (ho.insert_nil hj).change (.inr rfl) (by rwa [hnil]) hn hl
  rwa [Function.update_idem] at hnew

/-- An operation that gives up all pages of an owner. -/
theorem remove [DecidableEq ι] (ho : Owned h owners own) (hj : owners j)
    (hf : Footprint h (own j) h' []) : Owned h' (fun i => owners i ∧ i ≠ j) own := by
  have hold := ho.change hj hf List.nodup_nil nofun
  have hown : ∀ {i}, i ≠ j → Function.update own j [] i = own i := fun hne =>
    Function.update_of_ne hne _ _
  refine ⟨fun i hi => ?_, fun i k p hi hk hp hp' => ?_, fun p => ?_⟩
  · rw [← hown hi.2]
    exact hold.nodup i hi.1
  · rw [← hown hi.2] at hp
    rw [← hown hk.2] at hp'
    exact hold.unique i k p hi.1 hk.1 hp hp'
  · rw [hold.covers]
    constructor
    · rintro ⟨i, hi, hp⟩
      have hne : i ≠ j := by
        rintro rfl
        rw [Function.update_self] at hp
        cases hp
      exact ⟨i, ⟨hi, hne⟩, hown hne ▸ hp⟩
    · rintro ⟨i, ⟨hi, hne⟩, hp⟩
      exact ⟨i, hi, by rwa [hown hne]⟩

end Owned

end Lib
