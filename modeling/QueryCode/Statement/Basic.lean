import QueryCode.Text.Basic

/-!
# Statements

The clauses of one statement. Conditions stay texts here; `Condition.parse` reads them where they are needed.
-/

namespace QueryCode
set_option autoImplicit false

/-- What a statement does. -/
inductive Kind where
  | select
  | insert
  | update
  | delete
  | unknown
  deriving DecidableEq, Repr

/-- The keyword of the kind. -/
def Kind.text : Kind → Text
  | .select => "SELECT"
  | .insert => "INSERT"
  | .update => "UPDATE"
  | .delete => "DELETE"
  | .unknown => "UNKNOWN"

/-- A table and the name it goes by in the statement. -/
structure Table where
  name : Text
  alias? : Option Text
  deriving DecidableEq, Repr

/-- A column, or an expression in its place, with the table named in front of it. -/
structure ColumnName where
  name : Text
  table : Option Text
  deriving DecidableEq, Repr

/-- The name with its table in front. -/
def ColumnName.qualified (c : ColumnName) : Text :=
  match c.table with
  | some table => table ++ "." ++ c.name
  | none => c.name

/-- An item of a select list or an insert list. -/
structure Column extends ColumnName where
  alias? : Option Text := none
  deriving DecidableEq, Repr

/-- The item is a star without a table. -/
def Column.isWildcard (c : Column) : Bool := c.name == "*" && c.table.isNone

/-- Which rows a join keeps. -/
inductive JoinKind where
  | plain
  | inner
  | left
  | right
  | full
  | cross
  deriving DecidableEq, Repr

/-- A joined table. -/
structure Join where
  kind : JoinKind
  outer : Bool
  /-- The words of the join as written, with single spaces. -/
  keyword : Text
  table : Text
  alias? : Option Text
  /-- The text of the join condition, empty if there is none. -/
  on : Text
  deriving DecidableEq, Repr

namespace Join

/-- The name by which the statement refers to the table. -/
def reference (j : Join) : Text := j.alias?.getD j.table

/-- The join in a statement. -/
def text (j : Join) : Text :=
  j.keyword ++ " " ++ j.table
    ++ (match j.alias? with
      | some given => " ".toList ++ given
      | none => [])
    ++ (if j.on.isEmpty then [] else " ON ".toList ++ j.on)

/-- The table or its alias has this name, whatever the letter case. -/
def isNamed (j : Join) (name : Text) : Bool :=
  Text.sameWord j.table name || j.alias?.any (Text.sameWord · name)

end Join

/-- The direction of a sort. -/
inductive Direction where
  | asc
  | desc
  deriving DecidableEq, Repr

/-- The keyword of the direction. -/
def Direction.text : Direction → Text
  | .asc => "ASC"
  | .desc => "DESC"

/-- A sort term. -/
structure OrderTerm extends ColumnName where
  direction : Direction
  deriving DecidableEq, Repr

/-- How many rows are taken, and how many are passed over before them. -/
structure Limit where
  count : Nat
  offset : Option Nat
  deriving DecidableEq, Repr

/-- The number of rows passed over, if there are any. -/
def Limit.effectiveOffset (l : Limit) : Option Nat := l.offset.filter (0 < ·)

/-- A column and the text of its new value. -/
structure Assignment where
  name : Text
  value : Text
  deriving DecidableEq, Repr

/-- A statement, clause by clause. -/
structure Statement where
  kind : Kind := .unknown
  /-- The main table, if one was found. -/
  main : Option Table := none
  distinct : Bool := false
  columns : List Column := []
  joins : List Join := []
  /-- The text of the condition, empty if there is none. -/
  condition : Text := []
  values : Option (List Text) := none
  assignments : Option (List Assignment) := none
  groupBy : List ColumnName := []
  having : Option Text := none
  orderBy : List OrderTerm := []
  limit : Option Limit := none
  deriving DecidableEq, Repr

namespace Statement

/-- The name that stands for a main table that was not found. -/
def unknownTable : Text := "table"

/-- The name of the main table. -/
def table (s : Statement) : Text :=
  match s.main with
  | some table => table.name
  | none => unknownTable

/-- The alias of the main table. -/
def alias? (s : Statement) : Option Text := s.main.bind Table.alias?

/-- The name by which the statement refers to its main table. -/
def reference (s : Statement) : Text := s.alias?.getD s.table

/-- There is a condition. -/
def hasCondition (s : Statement) : Bool := !(Text.trim s.condition).isEmpty

/-- The text of the condition on groups, if there is one. -/
def having? (s : Statement) : Option Text := s.having.filter fun h => !(Text.trim h).isEmpty

/-- The statement asks for all columns. -/
def selectsAll (s : Statement) : Bool :=
  match s.columns with
  | [] => true
  | [column] => column.isWildcard
  | _ => false

/-- The name is that of the main table or of its alias, whatever the letter case. -/
def isMain (s : Statement) (name : Text) : Bool :=
  Text.sameWord name s.table || s.alias?.any (Text.sameWord · name)

/-- The first join whose table or alias has this name. -/
def joinFor? (s : Statement) (name : Text) : Option Join := s.joins.find? (·.isNamed name)

end Statement
end QueryCode
