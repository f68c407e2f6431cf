/-!
# Double precision numbers

A number of the 64-bit binary format is a signed mantissa times a power of two, an infinity or no
number at all. `Binary64.ofDecimal` gives the one nearest to a decimal number, by exact arithmetic
on naturals; a decimal halfway between two goes to the one with the even mantissa, and one beyond
the largest becomes infinite.
-/

set_option autoImplicit false
set_option relaxedAutoImplicit false

namespace MarkupBinding

/-- A number of the 64-bit binary format. A finite one is `mantissa · 2 ^ exponent` with at most 53
bits in the mantissa and an exponent of at least `-1074`. -/
inductive Binary64 where
  | finite (negative : Bool) (mantissa : Nat) (exponent : Int)
  | infinite (negative : Bool)
  | nan
  deriving DecidableEq, Repr

namespace Binary64

/-- A power of two. -/
def twoTo (n : Nat) : Nat := Nat.pow 2 n

/-- A power of ten. -/
def tenTo (n : Nat) : Nat := Nat.pow 10 n

/-- The quotient rounded to the nearest natural number, a half to the even neighbour. -/
def divNearest (num den : Nat) : Nat :=
  let q := num / den
  let r := num % den
  if 2 * r < den then q else if den < 2 * r then q + 1 else q + q % 2

/-- The fraction over a power of two, as numerator and denominator. -/
def scaled (num den : Nat) (exponent : Int) : Nat × Nat :=
  if exponent < 0 then (num * twoTo exponent.natAbs, den) else (num, den * twoTo exponent.toNat)

/-- The least exponent of a finite number. -/
def leastExponent : Int := -1074

/-- The greatest exponent of a finite number. -/
def greatestExponent : Int := 971

/-- The exponent at which the mantissa of a positive fraction has 53 bits, or the least one. -/
def exponentFor (num den : Nat) : Int :=
  let low := max (Int.ofNat num.log2 - Int.ofNat den.log2 - 53) leastExponent
  let (n, d) := scaled num den low
  if twoTo 53 ≤ n / d then low + 1 else low

/-- The number nearest to a positive fraction. -/
def ofFraction (negative : Bool) (num den : Nat) : Binary64 :=
  let exponent := exponentFor num den
  let (n, d) := scaled num den exponent
  let mantissa := divNearest n d
  let (mantissa, exponent) :=
    if mantissa = twoTo 53 then (twoTo 52, exponent + 1) else (mantissa, exponent)
  if greatestExponent < exponent then infinite negative else finite negative mantissa exponent

/-- The zero of the given sign. -/
def zero (negative : Bool) : Binary64 := finite negative 0 leastExponent

/-- The number nearest to `digits · 10 ^ exponent`. Decimals of more than 310 places before the
point are infinite and those that begin after 330 places behind it are zero. -/
def ofDecimal (negative : Bool) (digits : Nat) (exponent : Int) : Binary64 :=
  let places := Int.ofNat (Nat.toDigits 10 digits).length + exponent
  if digits = 0 then zero negative
  else if 310 < places then infinite negative
  else if places < -330 then zero negative
  else if exponent < 0 then ofFraction negative digits (tenTo exponent.natAbs)
  else ofFraction negative (digits * tenTo exponent.toNat) 1

/-- The integer that the number is, if it is one. -/
def toInt? : Binary64 → Option Int
  | finite negative mantissa exponent =>
    let (num, den) := scaled mantissa 1 exponent
    if num % den = 0 then some ((if negative then -1 else 1) * Int.ofNat (num / den)) else none
  | _ => none

end Binary64

end MarkupBinding
