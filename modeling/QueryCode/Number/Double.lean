/-!
# Double-precision numbers

A decimal literal that is no integer stands for the nearest double: a signed `mantissa * 2 ^ exponent`
with at most 53 bits, or an infinity when the literal is too large. Everything is exact arithmetic on
natural numbers.
-/

namespace QueryCode
set_option autoImplicit false

/-- A double, with the least exponent -1074 for the numbers below the normal range. -/
inductive Double where
  | finite (negative : Bool) (mantissa : Nat) (exponent : Int)
  | infinite (negative : Bool)
  deriving DecidableEq, Repr

namespace Double

/-- The least exponent of a double. -/
def minExponent : Int := -1074

/-- The greatest exponent of a double. -/
def maxExponent : Int := 971

/-- `num / (den * 2 ^ e)` as a fraction of natural numbers. -/
def scaled (num den : Nat) (e : Int) : Nat × Nat :=
  if 0 ≤ e then (num, den * Nat.pow 2 e.toNat) else (num * Nat.pow 2 (-e).toNat, den)

/-- The nearest integer to `num / den`, the even one of two. -/
def roundEven (num den : Nat) : Nat :=
  let q := num / den
  let r := num % den
  if 2 * r < den then q
  else if den < 2 * r then q + 1
  else if q % 2 == 0 then q else q + 1

/-- The exponent at which `num / den` has 53 bits before the point, or the least one. -/
def exponentFor (num den : Nat) : Int :=
  let low : Int := Int.ofNat num.log2 - Int.ofNat den.log2 - 53
  let (n, d) := scaled num den low
  let e := if Nat.pow 2 53 ≤ n / d then low + 1 else low
  max minExponent e

/-- The double nearest to `± num / den`, the one with an even mantissa of two. -/
def nearest (negative : Bool) (num den : Nat) : Double :=
  if num == 0 then .finite negative 0 minExponent
  else
    let e := exponentFor num den
    let (n, d) := scaled num den e
    let m := roundEven n d
    let (m, e) := if m == Nat.pow 2 53 then (Nat.pow 2 52, e + 1) else (m, e)
    if maxExponent < e then .infinite negative else .finite negative m e

end Double
end QueryCode
