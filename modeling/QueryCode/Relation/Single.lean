import QueryCode.Naming.Noun
import QueryCode.Relation.Filter
import QueryCode.Statement.Aggregate
import QueryCode.Writer

/-!
# Relations on one model

Statements without joins as chains on the model of their table, such as
`User.where("age > ?", 18).order(name: :asc).limit(5).select(:name)`.
-/

namespace QueryCode
set_option autoImplicit false

namespace Relation

/-- The calls that take some of the rows. -/
def limitCalls (s : Statement) : List Call :=
  match s.limit with
  | none => []
  | some limit =>
    call "limit" [.number limit.count] ::
      (match limit.effectiveOffset with
      | some offset => [call "offset" [.number offset]]
      | none => [])

/-- The call that counts as the given aggregate function. -/
def aggregateMethod : AggregateFunction → String
  | .count => "count"
  | .sum => "sum"
  | .avg => "average"
  | .min => "minimum"
  | .max => "maximum"

/-- The calls that reduce the rows to one value. -/
def aggregateCalls (a : Aggregate) : List Call :=
  if a.isCountAll then [bareCall "count"]
  else
    (if a.distinct then [bareCall "distinct"] else [])
      ++ [call (aggregateMethod a.function) [Naming.symbol a.column]]

/-- The columns and the values of an update. -/
def assignmentPairs (s : Statement) : List Code :=
  (s.assignments.getD []).map fun a => pair a.name (value a.value)

/-- The call that drops repeated rows. -/
def distinctCalls (s : Statement) : List Call := if s.distinct then [bareCall "distinct"] else []

namespace Single

/-- A grouping term: a symbol, or a text if it belongs to another table. -/
def groupTerm (s : Statement) (g : ColumnName) : Code :=
  match g.table with
  | some table => if s.isMain table then Naming.symbol g.name else .quoted g.qualified
  | none => Naming.symbol g.name

/-- The call that groups the rows. -/
def groupCalls (s : Statement) : List Call :=
  match s.groupBy with
  | [] => []
  | groups => [call "group" (groups.map (groupTerm s))]

/-- The call that keeps some of the groups. -/
def havingCalls (s : Statement) : List Call :=
  match s.having? with
  | some having => [call "having" [.quoted (dealias s having)]]
  | none => []

/-- The sort term is a plain column of the main table. -/
def isPlainTerm (s : Statement) (o : OrderTerm) : Bool := Naming.isIdentifier o.name && o.table.all s.isMain

/-- A sort term as a hash pair. -/
def orderPair (o : OrderTerm) : Code := .row [Naming.hashKey o.name, " :", .word (Text.lower o.direction.text)]

/-- A sort term as a text. -/
def orderText (s : Statement) (o : OrderTerm) : Code :=
  .quoted (unqualify s o.qualified ++ " " ++ o.direction.text)

/-- The call that sorts the rows. -/
def orderCalls (s : Statement) : List Call :=
  match s.orderBy with
  | [] => []
  | terms =>
    if terms.all (isPlainTerm s) then [call "order" (terms.map orderPair)]
    else [call "order" (terms.map (orderText s))]

/-- An expression with its alias, as a text. -/
def aliased (s : Statement) (column : Column) (expr : Text) : Code :=
  match column.alias? with
  | some given => .quoted (dealias s expr ++ " AS " ++ given)
  | none => .quoted (dealias s expr)

/-- A column that is no aggregate and belongs to the main table. -/
def ownItem (s : Statement) (column : Column) : Code :=
  if column.alias?.isSome || !Naming.isIdentifier column.name then aliased s column column.name
  else Naming.symbol column.name

/-- An item of the select list. -/
def selectItem (s : Statement) (column : Column) : Code :=
  match Aggregate.parse? column.name, column.table with
  | some aggregate, _ => aliased s column aggregate.text
  | none, some table =>
    if !s.isMain table then aliased s column column.qualified
    else if column.name == "*" then aliased s column (s.table ++ ".*")
    else ownItem s column
  | none, none => ownItem s column

/-- The call that chooses columns. -/
def selectCalls (s : Statement) : List Call :=
  if s.selectsAll then [] else [call "select" (s.columns.map (selectItem s))]

/-- The calls for the condition of the statement. -/
def conditionCalls (s : Statement) : Except Fault (List Call) := do
  return filter s (← Plan.ofText s.condition)

/-- The chain for a query. -/
def selectChain (s : Statement) : Except Fault Chain := do
  let found ← conditionCalls s
  let calls :=
    match s.scalar? with
    | some a => orderCalls s ++ limitCalls s ++ aggregateCalls { a with column := unqualify s a.column }
    | none =>
      groupCalls s ++ havingCalls s ++ orderCalls s ++ limitCalls s ++ selectCalls s ++ distinctCalls s
  return ⟨Naming.modelName s.table, found ++ calls⟩

/-- The columns and the values of an insertion; a column without a value is missing. -/
def insertPairs (s : Statement) : List Code :=
  match s.values.getD [] with
  | [] => []
  | values => s.columns.mapIdx fun i column =>
    pair column.name
      (match values[i]? with
      | some raw => value raw
      | none => "nil")

/-- The chain for an insertion. -/
def insertChain (s : Statement) : Chain := ⟨Naming.modelName s.table, [call "create!" (insertPairs s)]⟩

/-- The chain for an update. -/
def updateChain (s : Statement) : Except Fault Chain := do
  return ⟨Naming.modelName s.table, (← conditionCalls s) ++ [call "update_all" (assignmentPairs s)]⟩

/-- The chain for a deletion. -/
def deleteChain (s : Statement) : Except Fault Chain := do
  return ⟨Naming.modelName s.table, (← conditionCalls s) ++ [bareCall "destroy_all"]⟩

/-- The writer of statements without joins. -/
def writer : Writer where
  target := .activeRecord
  select s := do return (← selectChain s).code
  insert s := .ok (insertChain s).code
  update s := do return (← updateChain s).code
  delete s := do return (← deleteChain s).code

end Single
end Relation
end QueryCode
