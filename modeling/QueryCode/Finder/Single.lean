import QueryCode.Finder.Filter
import QueryCode.Naming.Noun
import QueryCode.Statement.Aggregate
import QueryCode.Writer

/-!
# Finders on one model

Statements without joins as calls with an object of options, such as
`User.findAll({attributes: ["name"], where: { age: { [Op.gt]: 18 } }, limit: 5})`.
-/

namespace QueryCode
set_option autoImplicit false

namespace Finder

/-- A call on the model of a table. -/
def modelCall (s : Statement) (method : String) (items : List Code) : Code :=
  .row [.word (Naming.modelName s.table), ".", .word method, Code.args items]

/-- The condition as an option, if there is one. -/
def whereOption (s : Statement) (wrapped : Bool) : Except Fault (List Code) := do
  if s.hasCondition then return [field "where" (← condition s wrapped)] else return []

/-- The grouping terms as an option. -/
def groupOption (s : Statement) : List Code :=
  match s.groupBy with
  | [] => []
  | groups => [field "group" (Code.array (groups.map fun g => .quoted g.qualified))]

/-- A sort term: a name, a column of another table, or an expression kept as it stands. -/
def orderTerm (s : Statement) (o : OrderTerm) : Code :=
  let own : Code := if Naming.isIdentifier o.name then .quoted o.name else literal o.name
  let term :=
    match o.table with
    | some table => if s.isMain table then own else columnRef o.qualified
    | none => own
  Code.array [term, .quoted o.direction.text]

/-- The sort terms as an option. -/
def orderOption (s : Statement) : List Code :=
  match s.orderBy with
  | [] => []
  | terms => [field "order" (Code.array (terms.map (orderTerm s)))]

/-- The number of rows taken and passed over, as options. -/
def limitOptions (s : Statement) : List Code :=
  match s.limit with
  | none => []
  | some limit =>
    field "limit" (.number limit.count) ::
      (match limit.effectiveOffset with
      | some offset => [field "offset" (.number offset)]
      | none => [])

/-- An aggregate as an attribute. -/
def aggregateAttribute (a : Aggregate) : Code :=
  let argument :=
    if a.isCountAll then literal "*"
    else if a.distinct then literal a.argumentText
    else columnRef a.column
  Code.call "Sequelize.fn" [.quoted a.function.text, argument]

/-- An item of the select list as an attribute, without its alias. -/
def bareAttribute (s : Statement) (column : Column) : Code :=
  let own := if Naming.isIdentifier column.name then .quoted column.name else literal column.name
  match Aggregate.parse? column.name, column.table with
  | some a, _ => aggregateAttribute a
  | none, some table => if s.isMain table then own else columnRef column.qualified
  | none, none => own

/-- An item of the select list as an attribute. -/
def columnAttribute (s : Statement) (column : Column) : Code :=
  match column.alias? with
  | some given => Code.array [bareAttribute s column, .quoted given]
  | none => bareAttribute s column

/-- The assignments of an update. -/
def assignments (s : Statement) : Code :=
  Code.object ((s.assignments.getD []).map fun a => .row [Naming.key a.name, ": ", value a.value])

/-- The options as a further argument, if there are any. -/
def trailing (options : List Code) : List Code :=
  match options with
  | [] => []
  | options => [Code.object options]

/-- The call that reduces the rows to one value. -/
def aggregateCall (s : Statement) (a : Aggregate) (options : List Code) : Code :=
  let column := Code.quoted a.column
  let method := String.ofList (Text.lower a.function.text)
  let distinct := if a.distinct then [field "distinct" "true"] else []
  if a.isCountAll then modelCall s "count" (trailing options)
  else if a.function == .count then
    modelCall s "count" [Code.object (options ++ [field "col" column] ++ distinct)]
  else if a.distinct || a.function == .avg then
    modelCall s "aggregate" ([column, .quoted method] ++ trailing (options ++ distinct))
  else modelCall s method (column :: trailing options)

namespace Single

/-- The first attribute of a list without repeated rows. -/
def distinctAttribute (column : Column) : Code :=
  Code.array [
    Code.call "Sequelize.fn" [.quoted "DISTINCT", columnRef column.qualified],
    .quoted (column.alias?.getD column.name)]

/-- The attributes; of a list without repeated rows the first is marked, if it is a plain name. -/
def attributes (s : Statement) : List Code :=
  match s.columns with
  | [] => []
  | column :: more =>
    (if s.distinct && Naming.isIdentifier column.name then distinctAttribute column else columnAttribute s column)
      :: more.map (columnAttribute s)

/-- The attributes as an option. -/
def attributesOption (s : Statement) : List Code :=
  if s.selectsAll then [] else [field "attributes" (Code.array (attributes s))]

/-- The condition on groups as an option. -/
def havingOption (s : Statement) : List Code :=
  match s.having? with
  | some having => [field "having" (literal having)]
  | none => []

/-- The call for a query. -/
def select (s : Statement) : Except Fault Code := do
  let found ← whereOption s false
  match s.scalar? with
  | some a => return aggregateCall s a (found ++ orderOption s ++ limitOptions s)
  | none =>
    return modelCall s "findAll" [Code.options
      (attributesOption s ++ found ++ groupOption s ++ havingOption s ++ orderOption s ++ limitOptions s)]

/-- The columns and the values of an insertion; a column without a value is missing. -/
def insertFields (s : Statement) : List Code :=
  match s.values.getD [] with
  | [] => []
  | values => s.columns.mapIdx fun i column =>
    .row [Naming.key column.name, ": ",
      (match values[i]? with
      | some raw => value raw
      | none => "null")]

/-- The call for an insertion. -/
def insert (s : Statement) : Code := modelCall s "create" [Code.object (insertFields s)]

/-- The call for an update. -/
def update (s : Statement) : Except Fault Code := do
  return modelCall s "update" [assignments s, Code.object [field "where" (← condition s false)]]

/-- The call for a deletion. -/
def delete (s : Statement) : Except Fault Code := do
  return modelCall s "destroy" [Code.object [field "where" (← condition s false)]]

/-- The writer of statements without joins. -/
def writer : Writer where
  target := .sequelize
  select := select
  insert s := .ok (insert s)
  update := update
  delete := delete

end Single
end Finder
end QueryCode
