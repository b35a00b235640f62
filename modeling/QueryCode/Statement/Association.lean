import QueryCode.Condition.Grammar
import QueryCode.Naming.Noun
import QueryCode.Statement.Basic

/-!
# Associations

A join on a conventional key is an association between two models: one table's `id` equals the other's
`<singular>_id`. If the main table has the `id`, the joined table has many rows for it; if the joined table
has it, the main table belongs to it.
-/

namespace QueryCode
set_option autoImplicit false

/-- How a joined table belongs to the main table. -/
inductive Association where
  | hasMany (name : Text)
  | belongsTo (name : Text)
  deriving DecidableEq, Repr

namespace Association

open Text.Scan

/-- The name of the association. -/
def name : Association → Text
  | .hasMany name => name
  | .belongsTo name => name

/-- A column with its table. -/
structure Key where
  table : Text
  column : Text
  deriving DecidableEq, Repr

/-- An optional backtick. -/
def tick : Text.Scan Unit := do discard (opt (char '\x60'))

/-- A table and a column, each in optional backticks, with a point between them. -/
def key : Text.Scan Key := do
  tick
  let table ← run1 Text.isWord
  tick
  discard (char '.')
  tick
  let column ← run1 Text.isWord
  tick
  return ⟨table, column⟩

/-- An equation of two columns. -/
def equation : Text.Scan (Key × Key) := do
  let left ← key
  blanks
  discard (char '=')
  blanks
  let right ← key
  return (left, right)

/-- The column is the conventional reference to the rows of a table. -/
def isForeignKey (column table : Text) : Bool := Text.sameWord column (Naming.singular table ++ "_id")

/-- The association of an equation whose first side holds the `id`. -/
def ofKeys? (main joined : Text) (id reference : Key) : Option Association :=
  if Text.sameWord id.column "id" && isForeignKey reference.column id.table then
    if Text.sameWord id.table main && Text.sameWord reference.table joined then some (.hasMany joined)
    else if Text.sameWord reference.table main && Text.sameWord id.table joined then
      some (.belongsTo (Naming.singular joined))
    else none
  else none

end Association

namespace Statement

/-- The table that a name in the statement refers to; other names stand for themselves. -/
def resolve (s : Statement) (name : Text) : Text :=
  if s.isMain name then s.table
  else
    match s.joinFor? name with
    | some join => join.table
    | none => name

/-- The association that a condition is the key equation of. -/
def keyAssociation? (s : Statement) (join : Join) (condition : Text) : Option Association :=
  match Text.Scan.whole? Association.equation (Text.trim condition) with
  | none => none
  | some (left, right) =>
    let left := { left with table := s.resolve left.table }
    let right := { right with table := s.resolve right.table }
    (Association.ofKeys? s.table join.table left right).or
      (Association.ofKeys? s.table join.table right left)

/-- The association of a join whose whole condition is the key equation. -/
def classify? (s : Statement) (join : Join) : Option Association := s.keyAssociation? join join.on

/-- The association of a join one of whose conjuncts is the key equation. -/
def association? (s : Statement) (join : Join) : Except Fault (Option Association) :=
  match Condition.parse join.on with
  | .error fault => .error fault
  | .ok none => .ok none
  | .ok (some condition) =>
    if condition.hasOr then .ok none
    else .ok (condition.conjuncts.findSome? fun part => s.keyAssociation? join part.text)

end Statement
end QueryCode
