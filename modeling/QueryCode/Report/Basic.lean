import QueryCode.Condition.Clause
import QueryCode.Report.Json
import QueryCode.Statement.Parser
import QueryCode.Target

/-!
# Reports

A statement, its condition and its code as JSON, for the user to read. The members of every object stand in
alphabetical order.
-/

namespace QueryCode
set_option autoImplicit false

namespace Report

/-- An optional value as JSON. -/
def optional {α : Type} (report : α → JsonValue) : Option α → JsonValue
  | none => .null
  | some a => report a

/-- A list as JSON. -/
def list {α : Type} (report : α → JsonValue) (items : List α) : JsonValue := .array (items.map report)

/-- The name of a kind of join. -/
def joinKind : JoinKind → Text
  | .plain => "Plain"
  | .inner => "Inner"
  | .left => "Left"
  | .right => "Right"
  | .full => "Full"
  | .cross => "Cross"

/-- A table of a statement. -/
def table (t : Table) : JsonValue :=
  .object [("alias", .ofText? t.alias?), ("name", .string t.name)]

/-- A column of a statement. -/
def column (c : Column) : JsonValue :=
  .object [("alias", .ofText? c.alias?), ("name", .string c.name), ("table", .ofText? c.table)]

/-- A column by which rows are grouped. -/
def columnName (c : ColumnName) : JsonValue :=
  .object [("name", .string c.name), ("table", .ofText? c.table)]

/-- A join of a statement. -/
def join (j : Join) : JsonValue :=
  .object [
    ("alias", .ofText? j.alias?), ("keyword", .string j.keyword), ("kind", .string (joinKind j.kind)),
    ("on", .string j.on), ("outer", .boolean j.outer), ("table", .string j.table)]

/-- A term of the order. -/
def orderTerm (o : OrderTerm) : JsonValue :=
  .object [("direction", .string o.direction.text), ("name", .string o.name), ("table", .ofText? o.table)]

/-- A limit on the number of rows. -/
def limit (l : Limit) : JsonValue :=
  .object [("count", .number l.count), ("offset", optional .number l.offset)]

/-- An assignment of an update. -/
def assignment (a : Assignment) : JsonValue :=
  .object [("name", .string a.name), ("value", .string a.value)]

/-- A statement. -/
def statement (s : Statement) : JsonValue :=
  .object [
    ("columns", list column s.columns),
    ("distinct", .boolean s.distinct),
    ("group_by", list columnName s.groupBy),
    ("having", .ofText? s.having),
    ("joins", list join s.joins),
    ("limit", optional limit s.limit),
    ("main_table", .string s.table),
    ("order_by", list orderTerm s.orderBy),
    ("set", optional (list assignment) s.assignments),
    ("tables", list table s.main.toList),
    ("type", .string s.kind.text),
    ("values", optional .ofTexts s.values),
    ("where", .string s.condition)]

/-- A predicate. -/
def predicate : Predicate → JsonValue
  | .comparison field op value =>
    .object [("field", .string field), ("kind", .string "comparison"), ("op", .string op.text),
      ("value", .string value)]
  | .like field negated pattern anyCase =>
    .object [("case_insensitive", .boolean anyCase), ("field", .string field), ("kind", .string "like"),
      ("not", .boolean negated), ("pattern", .string pattern)]
  | .inList field negated values =>
    .object [("field", .string field), ("kind", .string "in"), ("not", .boolean negated),
      ("values", .ofTexts values)]
  | .inQuery field negated query =>
    .object [("field", .string field), ("kind", .string "in_subquery"), ("not", .boolean negated),
      ("subquery", .string query)]
  | .between field negated low high =>
    .object [("end", .string high), ("field", .string field), ("kind", .string "between"),
      ("not", .boolean negated), ("start", .string low)]
  | .isNull field negated =>
    .object [("field", .string field), ("kind", .string "is_null"), ("not", .boolean negated)]
  | .raw text => .object [("kind", .string "raw"), ("text", .string text)]

mutual

/-- A condition. -/
def condition : Condition → JsonValue
  | .and parts => .object [("and", .array (conditions parts))]
  | .or parts => .object [("or", .array (conditions parts))]
  | .not part => .object [("not", condition part)]
  | .leaf p => .object [("leaf", predicate p)]

/-- The parts of a condition. -/
def conditions : List Condition → List JsonValue
  | [] => []
  | part :: parts => condition part :: conditions parts

end

/-- A test against the rows of another query. -/
def queryTest (test : QueryTest) : JsonValue :=
  .object [
    ("field", .string test.field), ("full_match", .string test.predicate), ("not", .boolean test.negated),
    ("subquery", .string test.query)]

/-- A statement with all that is known about its condition. -/
def explanation (s : Statement) : Except Fault JsonValue := do
  let plan ← Plan.ofText s.condition
  let tree ← Condition.parse s.condition
  let queries ← Clause.queryTests s.condition
  let tests ← Clause.tests s.condition
  return .object [
    ("query", statement s),
    ("subqueries", list queryTest queries),
    ("unparsed", .ofTexts tests.unparsed),
    ("where_plan", .string plan.name),
    ("where_tree", optional condition tree)]

/-- The code for one target beside the statement that it stands for. -/
def output (sql : Text) (target : Target) (code : Text) : JsonValue :=
  .object [("code", .string code), ("sql", .string (Text.trim sql)), ("target", .string target.name)]

end Report
end QueryCode
