import MiniDbms.Common.Text
import Mathlib.Data.List.TakeWhile
import Mathlib.Data.Nat.Digits.Defs

/-!
# Decimal numerals

How numbers are written, and what `std::stoll` and `std::stoul` make of a numeral of any length.
-/

namespace MiniDbms

namespace Text

/-- The decimal digits of a number. -/
def showNat (n : Nat) : Bytes :=
  if n = 0 then [48] else (Nat.digits 10 n).reverse.map fun d => UInt8.ofNat (48 + d)

/-- A decimal numeral. -/
def showInt (n : Int) : Bytes := if n < 0 then 45 :: showNat n.natAbs else showNat n.natAbs

/-- A numeral that the tokenizer reads: digits behind an optional sign. -/
def numeral (sign : Bool) (digits : Bytes) : Bytes := if sign then 45 :: digits else digits

/-- The integer that a numeral denotes. -/
def denotes (sign : Bool) (digits : Bytes) : Int := if sign then -decimal digits else decimal digits

variable {digits : Bytes} {n : Nat}

/-! ## Numbers as digits -/

theorem isDigit_ofNat {d : Nat} (hd : d < 10) : isDigit (UInt8.ofNat (48 + d)) = true := by
  have htoNat : (UInt8.ofNat (48 + d)).toNat = 48 + d := UInt8.toNat_ofNat_of_lt' (by
    show 48 + d < 256
    omega)
  rw [isDigit, Bool.and_eq_true, decide_eq_true_eq, decide_eq_true_eq, UInt8.le_iff_toNat_le,
    UInt8.le_iff_toNat_le, htoNat]
  exact ⟨Nat.le_add_right 48 d, by show 48 + d ≤ 57; omega⟩

theorem isDigit_showNat (n : Nat) : ∀ c ∈ showNat n, isDigit c = true := by
  intro c hc
  unfold showNat at hc
  split at hc
  · rw [List.mem_singleton.mp hc]
    rfl
  · obtain ⟨d, hd, rfl⟩ := List.mem_map.mp hc
    exact isDigit_ofNat (Nat.digits_lt_base (by omega) (List.mem_reverse.mp hd))

theorem showNat_ne_nil (n : Nat) : showNat n ≠ [] := by
  unfold showNat
  split
  · nofun
  · rename_i hn
    intro h
    rw [List.map_eq_nil_iff, List.reverse_eq_nil_iff] at h
    exact hn (Nat.digits_eq_nil_iff_eq_zero.mp h)

theorem decimal_append (digits : Bytes) (c : UInt8) :
    decimal (digits ++ [c]) = 10 * decimal digits + (c.toNat - 48) := by
  rw [decimal, List.foldl_append]
  rfl

/-- Digits in the order of `Nat.digits`, least significant first. -/
theorem decimal_reverse (l : List Nat) (hl : ∀ d ∈ l, d < 10) :
    decimal (l.reverse.map fun d => UInt8.ofNat (48 + d)) = Nat.ofDigits 10 l := by
  induction l with
  | nil => rfl
  | cons d l ih =>
    have hd := hl d List.mem_cons_self
    have htoNat : (UInt8.ofNat (48 + d)).toNat = 48 + d := UInt8.toNat_ofNat_of_lt' (by
      show 48 + d < 256
      omega)
    rw [List.reverse_cons, List.map_append, List.map_singleton, decimal_append,
      ih fun x hx => hl x (List.mem_cons_of_mem d hx), htoNat, Nat.ofDigits_cons]
    omega

theorem decimal_showNat (n : Nat) : decimal (showNat n) = n := by
  unfold showNat
  split
  · rename_i hn
    rw [hn]
    rfl
  · rw [decimal_reverse _ fun d hd => Nat.digits_lt_base (by omega) hd, Nat.ofDigits_digits]

theorem numeral_of_showInt (n : Int) : showInt n = numeral (decide (n < 0)) (showNat n.natAbs) := by
  rw [showInt, numeral]
  by_cases hn : n < 0
  · rw [if_pos hn, decide_eq_true hn, if_pos rfl]
  · rw [if_neg hn, decide_eq_false hn, if_neg Bool.false_ne_true]

theorem denotes_showNat (n : Int) : denotes (decide (n < 0)) (showNat n.natAbs) = n := by
  rw [denotes, decimal_showNat]
  by_cases hn : n < 0
  · rw [decide_eq_true hn, if_pos rfl]
    omega
  · rw [decide_eq_false hn, if_neg Bool.false_ne_true]
    omega

/-! ## Numerals as numbers -/

theorem isSpace_digit {c : UInt8} (hc : isDigit c = true) : isSpace c = false := by
  by_contra h
  rw [Bool.not_eq_false] at h
  simp only [isDigit, Bool.and_eq_true, decide_eq_true_eq, UInt8.le_iff_toNat_le,
    UInt8.reduceToNat] at hc
  simp only [isSpace, Bool.or_eq_true, Bool.and_eq_true, decide_eq_true_eq, UInt8.le_iff_toNat_le,
    UInt8.reduceToNat, ← UInt8.toNat_inj] at h
  omega

theorem readNumeral_numeral (sign : Bool) (hne : digits ≠ [])
    (hdigits : ∀ c ∈ digits, isDigit c = true) :
    readNumeral (numeral sign digits) =
      some ⟨sign, decimal digits, (numeral sign digits).length⟩ := by
  cases digits with
  | nil => exact absurd rfl hne
  | cons c digits =>
    have hc := hdigits c List.mem_cons_self
    have htake : (c :: digits).takeWhile isDigit = c :: digits :=
      List.takeWhile_eq_self_iff.mpr hdigits
    cases sign with
    | true =>
      have hspace : isSpace 45 = false := by decide
      simp [readNumeral, numeral, hspace, htake, Nat.add_comm]
    | false =>
      have hdrop : (c :: digits).dropWhile isSpace = c :: digits := by
        rw [List.dropWhile_cons, isSpace_digit hc]
        rfl
      have h45 : c ≠ 45 := fun he => absurd hc (by rw [he]; decide)
      have h43 : c ≠ 43 := fun he => absurd hc (by rw [he]; decide)
      simp [readNumeral, numeral, hdrop, htake, h45, h43]

/-- `std::stoll` reads a whole numeral, if it is in range. -/
theorem stoll_numeral (sign : Bool) (hne : digits ≠ []) (hdigits : ∀ c ∈ digits, isDigit c = true) :
    stoll (numeral sign digits) =
      if denotes sign digits < -9223372036854775808 ∨ 9223372036854775807 < denotes sign digits then
      none
      else some (denotes sign digits, (numeral sign digits).length) := by
  rw [stoll, readNumeral_numeral sign hne hdigits]
  rfl

/-- `std::stoul` reads a negative numeral modulo `2 ^ 64`. -/
theorem stoul_numeral (sign : Bool) (hne : digits ≠ []) (hdigits : ∀ c ∈ digits, isDigit c = true) :
    stoul (numeral sign digits) =
      if 18446744073709551615 < decimal digits then none
      else if sign then some ((18446744073709551616 - decimal digits) % 18446744073709551616)
      else some (decimal digits) := by
  rw [stoul, readNumeral_numeral sign hne hdigits]

end Text

end MiniDbms
