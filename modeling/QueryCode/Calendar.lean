import QueryCode.Text.Basic
import QueryCode.Text.Digit

/-!
# Calendar dates

Dates written as year, month and day with hyphens between them. Each number may follow white space; the
year has at most four digits unless it carries a sign.
-/

namespace QueryCode
set_option autoImplicit false

namespace Calendar

/-- Every fourth year, but of the centuries only every fourth. -/
def isLeap (year : Int) : Bool := year % 4 == 0 && (year % 100 != 0 || year % 400 == 0)

/-- The number of days in a month, none when there is no such month. -/
def monthLength (year : Int) (month : Nat) : Nat :=
  match month with
  | 1 | 3 | 5 | 7 | 8 | 10 | 12 => 31
  | 4 | 6 | 9 | 11 => 30
  | 2 => if isLeap year then 29 else 28
  | _ => 0

/-- The date exists in the Gregorian calendar, extended over all years. -/
def isDate (year : Int) (month day : Nat) : Bool := 1 ≤ day && day ≤ monthLength year month

/-- At least one digit and no more than `most`, after optional white space. -/
def readNumber (most : Nat) (t : Text) : Option (Nat × Text) :=
  let t := Text.trimStart t
  let digits := (t.take most).takeWhile Text.isAsciiDigit
  if digits.isEmpty then none else some (Text.digitsValue digits, t.drop digits.length)

/-- A year: four digits at most, or any number of them after a sign. -/
def readYear (t : Text) : Option (Int × Text) :=
  match Text.trimStart t with
  | '-' :: rest => (signed rest).map fun (n, rest) => (-(Int.ofNat n), rest)
  | '+' :: rest => (signed rest).map fun (n, rest) => (Int.ofNat n, rest)
  | t => (readNumber 4 t).map fun (n, rest) => (Int.ofNat n, rest)
where
  /-- The digits right after a sign. -/
  signed (t : Text) : Option (Nat × Text) :=
    let digits := t.takeWhile Text.isAsciiDigit
    if digits.isEmpty then none else some (Text.digitsValue digits, t.drop digits.length)

/-- Year, month and day with hyphens between them, and nothing else. -/
def readDate (t : Text) : Option (Int × Nat × Nat) := do
  let (year, t) ← readYear t
  let t ← Text.after? "-" t
  let (month, t) ← readNumber 2 t
  let t ← Text.after? "-" t
  let (day, t) ← readNumber 2 t
  if t.isEmpty then some (year, month, day) else none

/-- A text of ten bytes that is an existing date. -/
def isIsoDate (t : Text) : Bool :=
  Text.size t == 10 &&
    match readDate t with
    | some (year, month, day) => isDate year month day
    | none => false

end Calendar
end QueryCode
