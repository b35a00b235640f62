import QueryCode.Relation.Single
import QueryCode.Statement.Association

/-!
# Relations with joins

Joins along a conventional association are named by it; all others are kept as text. Since several tables
are in play, the fields of the condition carry the main table's name or its alias.
-/

namespace QueryCode
set_option autoImplicit false

namespace Relation
namespace Joined

/-- The association of a join that can be named: neither table goes by an alias. -/
def named? (s : Statement) (join : Join) : Option Association :=
  if s.alias?.isNone && join.alias?.isNone then s.classify? join else none

/-- How a join is written. -/
inductive Form where
  | inner (name : Text)
  | left (name : Text)
  | raw (text : Text)
  deriving DecidableEq, Repr

/-- The form of a join. -/
def form (s : Statement) (join : Join) : Form :=
  match named? s join, join.kind with
  | some a, .plain => .inner a.name
  | some a, .inner => .inner a.name
  | some a, .left => .left a.name
  | _, _ => .raw join.text

/-- A call with symbols as arguments, if there are any. -/
def symbolCalls (method : String) (names : List Text) : List Call :=
  match names with
  | [] => []
  | names => [call method (names.map Naming.symbol)]

/-- The calls that join tables: named inner joins, named left joins, then the others. -/
def joinCalls (s : Statement) : List Call :=
  let forms := s.joins.map (form s)
  symbolCalls "joins" (forms.filterMap fun f => match f with | .inner name => some name | _ => none)
    ++ symbolCalls "left_joins" (forms.filterMap fun f => match f with | .left name => some name | _ => none)
    ++ forms.filterMap fun f => match f with | .raw text => some (call "joins" [.quoted text]) | _ => none

/-- The call that names the main table's alias. -/
def sourceCalls (s : Statement) : List Call :=
  match s.alias? with
  | some given => [call "from" [.quoted (s.table ++ " " ++ given)]]
  | none => []

/-- The calls for the condition of the statement. -/
def conditionCalls (s : Statement) : Except Fault (List Call) := do
  return filter s.reference (← Plan.ofText s.condition)

/-- The call that groups the rows. -/
def groupCalls (s : Statement) : List Call :=
  match s.groupBy with
  | [] => []
  | groups => [call "group" (groups.map fun g => .quoted (qualify s.reference g.qualified))]

/-- The call that keeps some of the groups. -/
def havingCalls (s : Statement) : List Call :=
  match s.having? with
  | some having => [call "having" [.quoted having]]
  | none => []

/-- The call that sorts the rows. -/
def orderCalls (s : Statement) : List Call :=
  match s.orderBy with
  | [] => []
  | terms => [call "order" (terms.map fun o => .quoted (o.qualified ++ " " ++ o.direction.text))]

/-- An item of the select list, as a text. -/
def selectItem (column : Column) : Code :=
  let expr :=
    match Aggregate.parse? column.name with
    | some aggregate => aggregate.text
    | none => column.qualified
  match column.alias? with
  | some given => .quoted (expr ++ " AS " ++ given)
  | none => .quoted expr

/-- The call that chooses columns. -/
def selectCalls (s : Statement) : List Call :=
  if s.selectsAll then [] else [call "select" (s.columns.map selectItem)]

/-- The chain for a query. -/
def selectChain (s : Statement) : Except Fault Chain := do
  let found ← conditionCalls s
  let calls :=
    match s.scalar? with
    | some a => orderCalls s ++ limitCalls s ++ aggregateCalls a
    | none =>
      groupCalls s ++ havingCalls s ++ orderCalls s ++ limitCalls s ++ selectCalls s ++ distinctCalls s
  return ⟨Naming.modelName s.table, sourceCalls s ++ joinCalls s ++ found ++ calls⟩

/-- The chain for an update. -/
def updateChain (s : Statement) : Except Fault Chain := do
  let found ← conditionCalls s
  return ⟨Naming.modelName s.table,
    sourceCalls s ++ joinCalls s ++ found ++ [call "update_all" (assignmentPairs s)]⟩

/-- The chain for a deletion. -/
def deleteChain (s : Statement) : Except Fault Chain := do
  let found ← conditionCalls s
  return ⟨Naming.modelName s.table, sourceCalls s ++ joinCalls s ++ found ++ [bareCall "destroy_all"]⟩

/-- The writer of statements with joins. -/
def writer : Writer where
  target := .activeRecord
  select s := do return (← selectChain s).code
  insert _ := .ok (.word (Target.comment .activeRecord "INSERT with JOIN is not supported by ActiveRecord"))
  update s := do return (← updateChain s).code
  delete s := do return (← deleteChain s).code

end Joined
end Relation
end QueryCode
