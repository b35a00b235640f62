import QueryCode.Calendar
import QueryCode.Naming.Identifier
import QueryCode.Relation.Template
import QueryCode.Statement.Basic
import QueryCode.Text.Mark

/-!
# Names and dates in kept text

Text that is kept as it stands may use the alias of the main table, which a relation on one model does not
know; and dates in it are better passed as values. Quoted literals are left alone in both cases.
-/

namespace QueryCode
set_option autoImplicit false

namespace Relation

/-- The part before the first point and the part after it. -/
def splitPoint? (t : Text) : Option (Text × Text) :=
  match t.dropWhile (· != '.') with
  | [] => none
  | _ :: rest => some (t.takeWhile (· != '.'), rest)

/-- A field without the main table in front of it. -/
def unqualify (s : Statement) (field : Text) : Text :=
  match splitPoint? field with
  | some (table, column) => if s.isMain table then column else field
  | none => field

/-- A plain field with the main table's name in front of it. -/
def qualify (reference field : Text) : Text :=
  if field.contains '.' || !Naming.isIdentifier field then field else reference ++ "." ++ field

/-- An alias in front of a point, at the start of a word. -/
def aliasPoint (given : Text) : Text.Scan Unit := do
  Text.Scan.edge
  discard (Text.Scan.letters given)
  discard (Text.Scan.char '.')

/-- The text with the alias of the main table replaced by the table's name. -/
def dealias (s : Statement) (t : Text) : Text :=
  match s.alias? with
  | none => t
  | some given => Text.mapHits (fun _ => s.table ++ ".") (Text.mark (aliasPoint given) t)

/-- Four, two and two digits with hyphens between them, as a whole word. -/
def bareDate : Text.Scan Unit := do
  Text.Scan.edge
  digits 4
  discard (Text.Scan.char '-')
  digits 2
  discard (Text.Scan.char '-')
  digits 2
  Text.Scan.edge
where
  /-- Exactly `n` digits. -/
  digits : Nat → Text.Scan Unit
    | 0 => pure ()
    | n + 1 => do
      discard (Text.Scan.one Text.isDigit)
      digits n

/-- The text as a template whose values are the dates in it. -/
def dateTemplate (t : Text) : Template :=
  let parts := Text.mark bareDate t
  { text := Text.mapHits (fun date => if Calendar.isIsoDate date then "?" else date) parts
    params := ((Text.hits parts).filter Calendar.isIsoDate).map .quoted }

end Relation
end QueryCode
