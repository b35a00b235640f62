import QueryCode.Statement.Basic
import QueryCode.Text.Scan

/-!
# Aggregates

Expressions that reduce a column to one value. A statement whose only column is an aggregate, without
groups, has a single value as its result.
-/

namespace QueryCode
set_option autoImplicit false

/-- A function that reduces a column to one value. -/
inductive AggregateFunction where
  | count
  | sum
  | avg
  | min
  | max
  deriving DecidableEq, Repr

/-- The name of the function in a statement. -/
def AggregateFunction.text : AggregateFunction → Text
  | .count => "COUNT"
  | .sum => "SUM"
  | .avg => "AVG"
  | .min => "MIN"
  | .max => "MAX"

/-- An aggregate function applied to a column. -/
structure Aggregate where
  function : AggregateFunction
  /-- Equal values count once. -/
  distinct : Bool
  column : Text
  deriving DecidableEq, Repr

namespace Aggregate

open Text.Scan

/-- The function with this name; only the letters `a` to `z` tell them apart. -/
def functionOf (name : Text) : AggregateFunction :=
  if Text.sameWord name "count" then .count
  else if Text.sameWord name "sum" then .sum
  else if Text.sameWord name "avg" then .avg
  else if Text.sameWord name "min" then .min
  else .max

/-- The name of a function and its opening parenthesis. -/
def opening : Text.Scan Text := do
  let name ← first [letters "count", letters "sum", letters "avg", letters "min", letters "max"]
  blanks
  discard (char '(')
  return name

/-- The word `DISTINCT` at the start of an argument, with the white space after it and the rest. -/
def distinctHead (t : Text) : Option (Text × Text) :=
  match (letters "distinct") (Text.Cursor.start (Text.trimStart t)) with
  | some (_, cur) => some (cur.rest.takeWhile Text.isBlank, cur.rest.dropWhile Text.isBlank)
  | none => none

/-- The argument of an aggregate: `DISTINCT` must leave a character for the column, be it white space. -/
def argument (t : Text) : Bool × Text :=
  match distinctHead t with
  | some (gap, rest) =>
    if !gap.isEmpty && (!rest.isEmpty || 2 ≤ gap.length) then (true, Text.trim rest) else (false, Text.trim t)
  | none => (false, Text.trim t)

/-- The aggregate that an expression stands for. Its parentheses hold at least one character and no closing
parenthesis. -/
def parse? (expr : Text) : Option Aggregate :=
  match opening (Text.Cursor.start (Text.trim expr)) with
  | none => none
  | some (name, cur) =>
    let body := cur.rest.dropLast
    if cur.rest.getLast? == some ')' && !body.isEmpty && !body.contains ')' then
      let (distinct, column) := argument body
      some ⟨functionOf name, distinct, column⟩
    else none

/-- The number of all rows. -/
def isCountAll (a : Aggregate) : Bool := a.function == .count && a.column == "*"

/-- The argument in a statement. -/
def argumentText (a : Aggregate) : Text := if a.distinct then "DISTINCT " ++ a.column else a.column

/-- The aggregate in a statement. -/
def text (a : Aggregate) : Text := a.function.text ++ "(" ++ a.argumentText ++ ")"

end Aggregate

/-- The aggregate that is the whole result of the statement. -/
def Statement.scalar? (s : Statement) : Option Aggregate :=
  match s.columns, s.groupBy, s.having? with
  | [column], [], none => Aggregate.parse? column.name
  | _, _, _ => none

end QueryCode
