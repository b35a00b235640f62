/-!
# Tables of code points

A class of characters is a list of code point ranges in increasing order, and a map of characters is a
list of runs in increasing order. Both searches stop at the first entry beyond the code point.
-/

namespace QueryCode
set_option autoImplicit false

namespace Text

/-- Membership of a code point in a list of closed ranges in increasing order. -/
def inRanges : List (Nat × Nat) → Nat → Bool
  | [], _ => false
  | (lo, hi) :: rest, n => if n < lo then false else n ≤ hi || inRanges rest n

/-- The image of a code point under runs `(first, last, step, image of first)`: every `step`-th code
point from `first` to `last` moves by the same distance, and all others stay. -/
def runImage : List (Nat × Nat × Nat × Nat) → Nat → Nat
  | [], n => n
  | (first, last, step, image) :: rest, n =>
    if n < first then n
    else if n ≤ last && (n - first) % step == 0 then image + (n - first)
    else runImage rest n

end Text
end QueryCode
