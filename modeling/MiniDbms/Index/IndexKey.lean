import MiniDbms.Catalog.Schema
import MiniDbms.Index.BucketPage

/-!
# Index keys

`IndexKey::Encode` of `index/index_key.cpp`: a byte for the type, then the value.
-/

namespace MiniDbms

open Lib

namespace IndexKey

/-- `IndexKey::Encode`. -/
def encode : FieldValue → Except Status Bytes
  | .null => .error (.invalidArgument "NULL values are not indexed")
  | .integer v => .ok (1 :: leBytes 4 v.toUInt32.toNat)
  | .text s =>
    if HashIndexBucketPage.maxKeyLength < s.length + 1 then
      .error (.invalidArgument "VARCHAR value exceeds hash index key length")
    else .ok (2 :: s)
  | .boolean b => .ok [3, if b then 1 else 0]

variable {v w : FieldValue} {k : Bytes}

/-- The values that have a key, and their keys. -/
theorem encode_cases (h : encode v = .ok k) :
    (∃ i, v = .integer i ∧ k = 1 :: leBytes 4 i.toUInt32.toNat) ∨
    (∃ s, v = .text s ∧ s.length + 1 ≤ HashIndexBucketPage.maxKeyLength ∧ k = 2 :: s) ∨
    (∃ b, v = .boolean b ∧ k = [3, if b then 1 else 0]) := by
  cases v with
  | null => cases h
  | integer i =>
    cases h
    exact .inl ⟨i, rfl, rfl⟩
  | text s =>
    rw [encode] at h
    split at h
    · cases h
    · rename_i hlen
      cases h
      exact .inr (.inl ⟨s, rfl, Nat.le_of_not_lt hlen, rfl⟩)
  | boolean b =>
    cases h
    exact .inr (.inr ⟨b, rfl, rfl⟩)

/-- A key is not empty and fits into an entry of a bucket. -/
theorem length_encode (h : encode v = .ok k) :
    k ≠ [] ∧ k.length ≤ HashIndexBucketPage.maxKeyLength := by
  rcases encode_cases h with ⟨i, -, rfl⟩ | ⟨s, -, hlen, rfl⟩ | ⟨b, -, rfl⟩
  · exact ⟨List.cons_ne_nil _ _, by simp [HashIndexBucketPage.maxKeyLength]⟩
  · exact ⟨List.cons_ne_nil _ _, hlen⟩
  · exact ⟨List.cons_ne_nil _ _, by simp [HashIndexBucketPage.maxKeyLength]⟩

theorem ne_null_of_encode (h : encode v = .ok k) : v ≠ .null := by
  intro hv
  rw [hv] at h
  cases h

theorem leBytes_int32_injective {i j : Int32}
    (h : leBytes 4 i.toUInt32.toNat = leBytes 4 j.toUInt32.toNat) : i = j := by
  have hnat : i.toUInt32.toNat = j.toUInt32.toNat := by
    rw [← leNat_leBytes_of_lt (w := 4) i.toUInt32.toNat_lt, h,
      leNat_leBytes_of_lt (w := 4) j.toUInt32.toNat_lt]
  exact congrArg UInt32.toInt32 (UInt32.toNat.inj hnat)

/-- Different values have different keys: the first byte tells the type, the rest the value. -/
theorem encode_injective (hv : encode v = .ok k) (hw : encode w = .ok k) : v = w := by
  rcases encode_cases hv with ⟨i, rfl, rfl⟩ | ⟨s, rfl, -, rfl⟩ | ⟨b, rfl, rfl⟩ <;>
    rcases encode_cases hw with ⟨j, rfl, hk⟩ | ⟨t, rfl, -, hk⟩ | ⟨c, rfl, hk⟩
  · rw [leBytes_int32_injective (List.cons.inj hk).2]
  · cases hk
  · cases hk
  · cases hk
  · rw [(List.cons.inj hk).2]
  · cases hk
  · cases hk
  · cases hk
  · cases b <;> cases c <;> first | rfl | cases hk

theorem code_of_encode {e : Status} (h : encode v = .error e) : e.code = .invalidArgument := by
  cases v with
  | null =>
    cases h
    rfl
  | integer i => cases h
  | text s =>
    rw [encode] at h
    split at h
    · cases h
      rfl
    · cases h
  | boolean b => cases h

end IndexKey

end MiniDbms
