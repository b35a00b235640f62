import QueryCode.Finder.Joined
import QueryCode.Relation.Joined
import QueryCode.Statement.Parser

/-!
# Conversion

A statement is read once and written for each target by the writer for statements with or without joins.
-/

namespace QueryCode
set_option autoImplicit false

namespace Target

/-- The writer of statements without joins. -/
def singleWriter : Target → Writer
  | .activeRecord => Relation.Single.writer
  | .sequelize => Finder.Single.writer

/-- The writer of statements with joins. -/
def joinedWriter : Target → Writer
  | .activeRecord => Relation.Joined.writer
  | .sequelize => Finder.Joined.writer

end Target

/-- The code for a statement. -/
def Statement.write (target : Target) (s : Statement) : Except Fault Code :=
  if s.joins.isEmpty then target.singleWriter.write s else target.joinedWriter.write s

/-- The code for the text of a statement. -/
def convert (target : Target) (sql : Text) : Except Fault Text := do
  return (← (← Statement.parse sql).write target).text

/-- The code for every target. -/
def convertAll (sql : Text) : Except Fault (List (Target × Text)) := do
  let s ← Statement.parse sql
  Target.all.mapM fun target => do return (target, (← s.write target).text)

end QueryCode
