import MarkupBinding.Number.Binary64

/-!
# Shortest decimals

The shortest decimal of a double precision number is the one with the fewest digits among those
that read back as the number, and of these the nearest to it. `shortest` searches the decimal grids
of one digit, two digits and so on: on each grid only the two neighbours of the number can be the
nearest point that reads back. `Binary64.text` writes the decimal with a point when its exponent
lies between `-4` and `15`, and with a signed exponent of at least two digits otherwise.
-/

set_option autoImplicit false
set_option relaxedAutoImplicit false

namespace MarkupBinding

/-- The decimal number `digits · 10 ^ exponent`. -/
structure Decimal where
  digits : Nat
  exponent : Int
  deriving DecidableEq, Repr

namespace Binary64

/-- A positive number and the ends of the interval of reals that round to it, in quarters of the
last mantissa place. -/
structure Neighbourhood where
  low : Nat
  value : Nat
  high : Nat
  /-- The exponent of two of a quarter place. -/
  exponent : Int
  /-- Whether the ends belong to the interval. -/
  closed : Bool

/-- The neighbourhood of a positive number; below a power of two the places are half as wide. -/
def neighbourhood (mantissa : Nat) (exponent : Int) : Neighbourhood where
  low :=
    if mantissa = twoTo 52 ∧ leastExponent < exponent then 4 * mantissa - 1 else 4 * mantissa - 2
  value := 4 * mantissa
  high := 4 * mantissa + 2
  exponent := exponent - 2
  closed := mantissa % 2 == 0

/-- The fraction of a number of quarter places over the unit `10 ^ place`. -/
def overPlace (n : Nat) (binary place : Int) : Nat × Nat :=
  let num := n * (if binary < 0 then 1 else twoTo binary.toNat) *
    (if place < 0 then tenTo place.natAbs else 1)
  let den := (if binary < 0 then twoTo binary.natAbs else 1) *
    (if place < 0 then 1 else tenTo place.toNat)
  (num, den)

/-- Whether `digits · 10 ^ place` lies in the neighbourhood. -/
def Neighbourhood.contains (h : Neighbourhood) (digits : Nat) (place : Int) : Bool :=
  let (low, den) := overPlace h.low h.exponent place
  let (high, _) := overPlace h.high h.exponent place
  let x := digits * den
  if h.closed then low ≤ x && x ≤ high else low < x && x < high

/-- The number of decimal places before the point of a positive fraction; zero or negative when
the fraction is below one and begins with zeros behind the point. -/
def placesBeforePoint (num den : Nat) : Int :=
  if den ≤ num then (Nat.toDigits 10 (num / den)).length
  else
    let inverse := (den + num - 1) / num
    1 - Int.ofNat (Nat.toDigits 10 (inverse - 1)).length

/-- The nearer of the two grid neighbours of the number that reads back, if one does; of two at
equal distance the even one. -/
def onGrid (h : Neighbourhood) (place : Int) : Option Decimal :=
  let (num, den) := overPlace h.value h.exponent place
  let below := num / den
  let above := below + 1
  let distance := 2 * (num % den)
  let belowFirst := distance < den || (distance == den && below % 2 == 0)
  let (first, second) := if belowFirst then (below, above) else (above, below)
  if h.contains first place then some ⟨first, place⟩
  else if h.contains second place then some ⟨second, place⟩
  else none

/-- The first grid with a hit, among those of `used`, `used + 1`, … digits. -/
def searchGrids (h : Neighbourhood) (places : Int) : Nat → Nat → Decimal
  | 0, used => (onGrid h (places - used)).getD ⟨0, 0⟩
  | more + 1, used =>
    match onGrid h (places - used) with
    | some decimal => decimal
    | none => searchGrids h places more (used + 1)

/-- The shortest decimal that reads back as the positive number `mantissa · 2 ^ exponent`. -/
def shortest (mantissa : Nat) (exponent : Int) : Decimal :=
  let h := neighbourhood mantissa exponent
  let (num, den) := overPlace h.value h.exponent 0
  searchGrids h (placesBeforePoint num den) 16 1

/-- The digits without the zeros at their end. -/
def significant (digits : List Char) : List Char :=
  match (digits.reverse.dropWhile (· == '0')).reverse with
  | [] => ['0']
  | kept => kept

/-- A number of at least two digits. -/
def atLeastTwo (n : Nat) : List Char :=
  if n < 10 then '0' :: Nat.toDigits 10 n else Nat.toDigits 10 n

/-- The decimal as text: with a point for exponents from `-4` to `15`, else in scientific form. -/
def decimalText (d : Decimal) : List Char :=
  let all := Nat.toDigits 10 d.digits
  let exponent := Int.ofNat all.length + d.exponent - 1
  let digits := significant all
  if exponent < -4 ∨ 16 ≤ exponent then
    let mantissa := match digits with
      | first :: second :: rest => first :: '.' :: second :: rest
      | short => short
    let sign := if exponent < 0 then '-' else '+'
    mantissa ++ 'e' :: sign :: atLeastTwo exponent.natAbs
  else if exponent < 0 then
    '0' :: '.' :: List.replicate (exponent.natAbs - 1) '0' ++ digits
  else
    let whole := exponent.toNat + 1
    let padded := digits ++ List.replicate (whole - digits.length) '0'
    match padded.drop whole with
    | [] => padded ++ ['.', '0']
    | fraction => padded.take whole ++ '.' :: fraction

/-- The shortest text that reads back as the number. -/
def text : Binary64 → String
  | nan => "nan"
  | infinite negative => if negative then "-inf" else "inf"
  | finite negative mantissa exponent =>
    let digits := if mantissa = 0 then ['0', '.', '0'] else decimalText (shortest mantissa exponent)
    String.ofList (if negative then '-' :: digits else digits)

end Binary64

end MarkupBinding
