import MiniDbms.Common.Types

/-!
# Characters and numerals

The functions of `<cctype>` on bytes, in the "C" locale, and `std::stoll` and `std::stoul` with
64-bit results. Where these throw, the result is `none`.
-/

namespace MiniDbms

namespace Text

def isSpace (c : UInt8) : Bool := c = 32 || (9 ≤ c && c ≤ 13)

def isDigit (c : UInt8) : Bool := 48 ≤ c && c ≤ 57

def isUpper (c : UInt8) : Bool := 65 ≤ c && c ≤ 90

def isLower (c : UInt8) : Bool := 97 ≤ c && c ≤ 122

def isAlpha (c : UInt8) : Bool := isUpper c || isLower c

def isAlnum (c : UInt8) : Bool := isAlpha c || isDigit c

def toUpper (c : UInt8) : UInt8 := if isLower c then c - 32 else c

def toLower (c : UInt8) : UInt8 := if isUpper c then c + 32 else c

/-- The number that decimal digits denote. -/
def decimal (digits : Bytes) : Nat :=
  digits.foldl (fun value digit => 10 * value + (digit.toNat - 48)) 0

/-- A numeral at the beginning of a text. -/
structure Numeral where
  negative : Bool
  magnitude : Nat
  consumed : Nat

/-- What `strtoll` and `strtoul` read: blanks, a sign and digits; nothing if there is no digit. -/
def readNumeral (text : Bytes) : Option Numeral :=
  let body := text.dropWhile isSpace
  let (negative, unsigned) :=
    match body with
    | 45 :: rest => (true, rest)
    | 43 :: rest => (false, rest)
    | rest => (false, rest)
  match unsigned.takeWhile isDigit with
  | [] => none
  | digits => some ⟨negative, decimal digits, text.length - unsigned.length + digits.length⟩

/-- `std::stoll`: the value and the number of characters that it was read from. -/
def stoll (text : Bytes) : Option (Int × Nat) :=
  match readNumeral text with
  | none => none
  | some numeral =>
    let value : Int := if numeral.negative then -numeral.magnitude else numeral.magnitude
    if value < -9223372036854775808 ∨ 9223372036854775807 < value then none
    else some (value, numeral.consumed)

/-- `std::stoul`: a negative number wraps around. -/
def stoul (text : Bytes) : Option Nat :=
  match readNumeral text with
  | none => none
  | some numeral =>
    if 18446744073709551615 < numeral.magnitude then none
    else if numeral.negative then
      some ((18446744073709551616 - numeral.magnitude) % 18446744073709551616)
    else some numeral.magnitude

end Text

end MiniDbms
