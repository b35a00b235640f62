import QueryCode.Number.Double
import QueryCode.Text.Basic

/-!
# The shortest decimal of a double

A double is written with the fewest digits that read back as it, the nearest such decimal when there are
several and the larger one of two equally near. The digits are placed positionally, however large or small
the number is, and zero has no sign.
-/

namespace QueryCode
set_option autoImplicit false

namespace Double

/-- A decimal `digits * 10 ^ power`. -/
structure Decimal where
  digits : Nat
  power : Int
  deriving DecidableEq, Repr

/-- The reals that round to a positive double, over the common denominator `unit`: the double is
`value / unit`, and the reals lie between `low / unit` and `high / unit`. -/
structure Span where
  value : Nat
  low : Nat
  high : Nat
  unit : Nat
  /-- The two ends round to the double as well. -/
  closed : Bool
  deriving DecidableEq, Repr

/-- The span of `mantissa * 2 ^ exponent`. Below a power of two the neighbour is half as far. -/
def span (mantissa : Nat) (exponent : Int) : Span :=
  let below := if mantissa == Nat.pow 2 52 && minExponent < exponent then 1 else 2
  let (scale, unit) :=
    if 0 ≤ exponent then (Nat.pow 2 exponent.toNat, 4) else (1, 4 * Nat.pow 2 (-exponent).toNat)
  { value := 4 * mantissa * scale
    low := (4 * mantissa - below) * scale
    high := (4 * mantissa + 2) * scale
    unit := unit
    closed := mantissa % 2 == 0 }

namespace Span

/-- The decimal rounds to the double. -/
def holds (s : Span) (d : Decimal) : Bool :=
  let (num, den) :=
    if 0 ≤ d.power then (d.digits * Nat.pow 10 d.power.toNat, 1) else (d.digits, Nat.pow 10 (-d.power).toNat)
  if s.closed then s.low * den ≤ num * s.unit && num * s.unit ≤ s.high * den
  else s.low * den < num * s.unit && num * s.unit < s.high * den

/-- The two neighbours of the double among the multiples of `10 ^ power`, with twice the distance of the
double from the lower one and the length of the grid's step, both in the same unit. -/
def neighbours (s : Span) (power : Int) : Decimal × Decimal × Nat × Nat :=
  let (num, den) :=
    if 0 ≤ power then (s.value, s.unit * Nat.pow 10 power.toNat)
    else (s.value * Nat.pow 10 (-power).toNat, s.unit)
  (⟨num / den, power⟩, ⟨num / den + 1, power⟩, 2 * (num % den), den)

/-- The nearest multiple of `10 ^ power` that rounds to the double, the larger one of two equally near. -/
def onGrid (s : Span) (power : Int) : Option Decimal :=
  let (down, up, twice, step) := s.neighbours power
  match s.holds down, s.holds up with
  | true, true => if twice < step then some down else some up
  | true, false => some down
  | false, true => some up
  | false, false => none

/-- The first decimal found on ever finer grids, from `10 ^ power` down. -/
def search (s : Span) : Nat → Int → Decimal
  | 0, power => (s.neighbours power).1
  | n + 1, power =>
    match s.onGrid power with
    | some d => d
    | none => search s n (power - 1)

end Span

/-- A power of ten at or above the double's leading digit: the decimal logarithm of two is below 302/1000. -/
def leadingPower (mantissa : Nat) (exponent : Int) : Int :=
  let bits := Int.ofNat mantissa.log2 + exponent
  (if 0 ≤ bits then bits * 302 / 1000 else bits * 301 / 1000) + 1

/-- The shortest decimal that rounds to `mantissa * 2 ^ exponent`. Seventeen digits always suffice. -/
def shortest (mantissa : Nat) (exponent : Int) : Decimal :=
  (span mantissa exponent).search 24 (leadingPower mantissa exponent)

namespace Decimal

/-- The fractional digits without the zeros at their end. -/
def trimZeros (digits : Text) : Text := (digits.reverse.dropWhile (· == '0')).reverse

/-- The decimal in positional notation. -/
def text (d : Decimal) : Text :=
  let digits := Nat.toDigits 10 d.digits
  if 0 ≤ d.power then digits ++ List.replicate d.power.toNat '0'
  else
    let places := (-d.power).toNat
    let padded := List.replicate (places + 1 - digits.length) '0' ++ digits
    let whole := padded.take (padded.length - places)
    match trimZeros (padded.drop (padded.length - places)) with
    | [] => whole
    | fraction => whole ++ '.' :: fraction

end Decimal

/-- The sign of a number that is not zero. -/
def sign (negative : Bool) : Text := if negative then "-" else ""

/-- The text of a double. -/
def text : Double → Text
  | .infinite negative => sign negative ++ "inf"
  | .finite negative mantissa exponent =>
    if mantissa == 0 then "0" else sign negative ++ (shortest mantissa exponent).text

end Double
end QueryCode
