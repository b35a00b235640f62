import QueryCode.Code
import QueryCode.Statement.Basic
import QueryCode.Target

/-!
# Writers

A writer turns statements into code for one target, with one function for each kind of statement.
-/

namespace QueryCode
set_option autoImplicit false

/-- How the statements of each kind are written. -/
structure Writer where
  target : Target
  select : Statement → Except Fault Code
  insert : Statement → Except Fault Code
  update : Statement → Except Fault Code
  delete : Statement → Except Fault Code

namespace Writer

/-- A comment in the target's language. -/
def comment (w : Writer) (t : Text) : Code := .word (w.target.comment t)

/-- The code for a statement of any kind. -/
def write (w : Writer) (s : Statement) : Except Fault Code :=
  match s.kind with
  | .select => w.select s
  | .insert => w.insert s
  | .update => w.update s
  | .delete => w.delete s
  | .unknown =>
    .ok (w.comment
      (if s.table == Statement.unknownTable then "Could not parse this SQL query"
      else "Query type not supported"))

end Writer
end QueryCode
