import QueryCode.Code
import QueryCode.Number.Shortest
import QueryCode.Target
import QueryCode.Text.Digit

/-!
# Literals

What a value token of a statement stands for: nothing, `NULL`, a truth value, a number or a string. A token
in matching quotes is a string; of the others the words and numbers are recognised, and the rest are
strings as they stand.
-/

namespace QueryCode
set_option autoImplicit false

/-- The value of a token. -/
inductive Literal where
  | empty
  | null
  | boolean (value : Bool)
  | integer (value : Int)
  | number (value : Double)
  | string (value : Text)
  deriving DecidableEq, Repr

namespace Literal

/-- The text with every doubled quote made single. -/
def undouble (quote : Char) : Text → Text
  | [] => []
  | [c] => [c]
  | c :: d :: rest =>
    if c == quote && d == quote then quote :: undouble quote rest else c :: undouble quote (d :: rest)

/-- The inside of a token whose first and last characters are the same quote. -/
def unquote? (token : Text) : Option Text :=
  match token with
  | [] => none
  | quote :: rest =>
    if Text.isQuote quote && rest.getLast? == some quote then some (undouble quote rest.dropLast)
    else none

/-- The sign in front of a token, and what follows it. -/
def signed : Text → Bool × Text
  | '-' :: rest => (true, rest)
  | t => (false, t)

/-- A decimal literal without an exponent. -/
structure Numeral where
  negative : Bool
  /-- The digits before the point. -/
  whole : Text
  /-- The digits after the point, if there is one. -/
  fraction : Option Text
  deriving DecidableEq, Repr

/-- Digits of a class with at most one point among them, at least one digit. -/
def unsigned? (isDigit : Char → Bool) (negative : Bool) (t : Text) : Option Numeral :=
  let whole := t.takeWhile isDigit
  match t.dropWhile isDigit with
  | [] => if whole.isEmpty then none else some ⟨negative, whole, none⟩
  | '.' :: fraction =>
    if fraction.all isDigit && !(whole.isEmpty && fraction.isEmpty) then some ⟨negative, whole, some fraction⟩
    else none
  | _ => none

/-- A numeral in digits of a class, after an optional minus sign. -/
def numeral? (isDigit : Char → Bool) (token : Text) : Option Numeral :=
  unsigned? isDigit (signed token).1 (signed token).2

/-- The token looks like a number, in the digits of any script. -/
def isNumeric (token : Text) : Bool := (numeral? Text.isDigit token).isSome

/-- The least integer that is kept exactly. -/
def minInteger : Int := -Int.ofNat (Nat.pow 2 127)

/-- The greatest integer that is kept exactly. -/
def maxInteger : Int := Int.ofNat (Nat.pow 2 127 - 1)

/-- An integer within the exact range, in the digits `0` to `9`. -/
def integer? (token : Text) : Option Int :=
  let (negative, digits) := signed token
  if digits.isEmpty || !digits.all Text.isAsciiDigit then none
  else
    let magnitude := Int.ofNat (Text.digitsValue digits)
    let value := if negative then -magnitude else magnitude
    if minInteger ≤ value && value ≤ maxInteger then some value else none

/-- The double nearest to a numeral. -/
def Numeral.double (n : Numeral) : Double :=
  let fraction := n.fraction.getD []
  Double.nearest n.negative (Text.digitsValue (n.whole ++ fraction)) (Nat.pow 10 fraction.length)

/-- The double nearest to a number in the digits `0` to `9`. -/
def double? (token : Text) : Option Double := (numeral? Text.isAsciiDigit token).map Numeral.double

/-- The value of a token that looks like a number: an integer if it can be kept exactly, else a double. In the digits of
another script it is neither, and stays a string. -/
def ofNumeric (token : Text) : Literal :=
  match integer? token with
  | some value => .integer value
  | none =>
    match double? token with
    | some value => .number value
    | none => .string token

/-- The value of a token. -/
def ofToken (raw : Text) : Literal :=
  let token := Text.trim raw
  if token.isEmpty then .empty
  else
    match unquote? token with
    | some inner => .string inner
    | none =>
      if Text.sameWord token "null" then .null
      else if Text.sameWord token "true" then .boolean true
      else if Text.sameWord token "false" then .boolean false
      else if isNumeric token then ofNumeric token
      else .string token

/-- The decimal text of an integer. -/
def integerText (n : Int) : Text :=
  match n with
  | .ofNat n => Nat.toDigits 10 n
  | .negSucc n => '-' :: Nat.toDigits 10 (n + 1)

/-- The value in the target's language. -/
def code (target : Target) : Literal → Code
  | .empty => .quoted ""
  | .null =>
    match target with
    | .activeRecord => "nil"
    | .sequelize => "null"
  | .boolean true => "true"
  | .boolean false => "false"
  | .integer n => .word (integerText n)
  | .number x => .word x.text
  | .string t => .quoted t

end Literal
end QueryCode
