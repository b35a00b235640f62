import QueryCode.Error
import QueryCode.Statement.Pattern
import QueryCode.Text.TopLevel

/-!
# Reading statements

Each clause is found on its own in the masked statement and cut out of the statement at the same offsets. A
statement without a table is unknown, and so is one that starts with no known keyword.
-/

namespace QueryCode
set_option autoImplicit false

namespace Statement

open Text (Cursor Scan)

/-- A statement next to its mask. -/
structure Source where
  text : Text
  mask : Text

namespace Source

/-- A statement with its mask. -/
def ofText (t : Text) : Source := ⟨t, Text.mask .nested t⟩

/-- The first place in the mask where a pattern fits. -/
def find {α : Type} (s : Source) (p : Scan α) : Option (Scan.Hit α) := Scan.find p (Cursor.start s.mask)

/-- The byte offset at which a pattern first fits from a place on, or the end of the statement. -/
def endFrom (s : Source) (p : Scan Unit) (cur : Cursor) : Nat :=
  match Scan.find p cur with
  | some hit => hit.start.offset
  | none => Text.size s.mask

/-- The trimmed text from a place to the first fit of a pattern. -/
def body (s : Source) (start : Cursor) (stop : Scan Unit) : Except Fault Text := do
  return Text.trim (← Text.slice start.offset (s.endFrom stop start) s.text)

/-- The text of the clause between two patterns, unless it is blank. -/
def clause (s : Source) (start stop : Scan Unit) : Except Fault (Option Text) :=
  match s.find start with
  | none => .ok none
  | some hit => do
    let found ← s.body hit.stop stop
    return if found.isEmpty then none else some found

/-- The items of the parenthesised list at a place, if its parenthesis is closed. -/
def list (s : Source) (start : Cursor) : Except Fault (Option (List Text)) :=
  match Text.matchingParen? s.text start.offset with
  | none => .ok none
  | some stop => do
    let inner ← Text.slice (start.offset + 1) stop s.text
    return some (← Text.splitTop ',' inner)

end Source

/-- The column that an expression names; other expressions are names as they stand. -/
def columnName (t : Text) : ColumnName :=
  match Scan.whole? Pattern.qualified t with
  | some column => column
  | none => ⟨Text.stripBackticks t, none⟩

/-- An item of a select list. -/
def column (item : Text) : Column :=
  match Scan.shortest? Pattern.columnAlias item with
  | some (expr, given) => { columnName (Text.trim expr) with alias? := some given }
  | none => { columnName (Text.trim item) with alias? := none }

/-- A sort term. -/
def orderTerm? (item : Text) : Option OrderTerm :=
  (Scan.shortest? Pattern.orderTail item).map fun (expr, direction) =>
    { columnName (Text.trim expr) with
      direction := if direction.any (Text.sameWord · "desc") then .desc else .asc }

/-- The greatest number of rows. -/
def maxCount : Nat := Nat.pow 2 64 - 1

/-- A number of rows; one that is too large, or not in the digits `0` to `9`, counts as the greatest. -/
def rowCount (digits : Text) : Nat :=
  if digits.all Text.isAsciiDigit then min (Text.digitsValue digits) maxCount else maxCount

/-- An assignment, if an equals sign shows in it. -/
def assignment? (pair : Text) : Except Fault (Option Assignment) :=
  match Text.findTop? '=' pair with
  | none => .ok none
  | some eq => do
    let (name, _) ← Text.cut eq pair
    let (_, value) ← Text.cut (eq + 1) pair
    return some ⟨Text.stripBackticks (Text.trim name), Text.trim value⟩

/-- What the statement does, from its first word. -/
def kindOf (t : Text) : Kind :=
  match Pattern.statement (Cursor.start t) with
  | none => .unknown
  | some (word, _) =>
    if Text.sameWord word "select" then .select
    else if Text.sameWord word "insert" then .insert
    else if Text.sameWord word "update" then .update
    else if Text.sameWord word "delete" then .delete
    else .unknown

namespace Source

/-- The main table: after `FROM`, else after `INTO`, else after a leading `UPDATE`. -/
def main? (s : Source) : Option Table :=
  match s.find Pattern.fromTable with
  | some hit => some hit.value.table
  | none =>
    match s.find Pattern.intoTable with
    | some hit => some ⟨hit.value, none⟩
    | none => (Pattern.updateTable (Cursor.start s.mask)).map fun (found, _) => found.table

/-- The select list and whether it is `DISTINCT`. -/
def selectColumns (s : Source) : Except Fault (List Column × Bool) :=
  match Pattern.selectList (Cursor.start s.mask) with
  | none => .ok ([], false)
  | some (distinct, start) => do
    let found ← Text.slice start.offset (s.endFrom (Scan.word "from") start) s.text
    return ((← Text.splitTop ',' found).map column, distinct)

/-- The columns of an insertion. -/
def insertColumns (s : Source) : Except Fault (List Column) :=
  match s.find Pattern.insertColumns with
  | none => .ok []
  | some hit => do
    let items ← s.list hit.value
    return (items.getD []).map fun item => { name := Text.stripBackticks item, table := none }

/-- The columns of a statement of this kind, and whether they are `DISTINCT`. -/
def columns (s : Source) (kind : Kind) : Except Fault (List Column × Bool) :=
  match kind with
  | .select => s.selectColumns
  | .insert => do return (← s.insertColumns, false)
  | _ => .ok ([], false)

/-- A join with its condition. -/
def join (s : Source) (hit : Scan.Hit Pattern.JoinMatch) : Except Fault Join := do
  let found := hit.value
  let keyword ← Text.slice hit.start.offset found.wordsEnd.offset s.text
  let after := found.table.finish
  let on ←
    match Pattern.on after with
    | some (_, start) => s.body start Pattern.joinEnd
    | none => .ok []
  return {
    kind := found.kind
    outer := found.outer
    keyword := Text.join " " (Text.words keyword)
    table := found.table.name
    alias? := found.table.table.alias?
    on := on }

/-- The joins in the order of the statement. -/
def joins (s : Source) : Except Fault (List Join) :=
  (Scan.findAll Pattern.join (Cursor.start s.mask)).mapM s.join

/-- The grouping terms. -/
def groupBy (s : Source) : Except Fault (List ColumnName) := do
  match ← s.clause (Pattern.phrase "group" "by") Pattern.groupEnd with
  | none => return []
  | some found => return (← Text.splitTop ',' found).map columnName

/-- The sort terms. -/
def orderBy (s : Source) : Except Fault (List OrderTerm) := do
  match ← s.clause (Pattern.phrase "order" "by") Pattern.orderEnd with
  | none => return []
  | some found => return (← Text.splitTop ',' found).filterMap orderTerm?

/-- The limit. Of two counts the first is the offset; an `OFFSET` right after the counts goes before both, and
one elsewhere counts only if there is no other. -/
def limit? (s : Source) : Option Limit :=
  (s.find Pattern.limit).map fun hit =>
    let (first, second, offset) := hit.value
    let (count, before) :=
      match second with
      | some second => (rowCount second, some (rowCount first))
      | none => (rowCount first, none)
    let elsewhere := (s.find Pattern.offset).map fun hit => rowCount hit.value
    ⟨count, ((offset.map rowCount).or before).or elsewhere⟩

/-- The first row of inserted values. -/
def values (s : Source) : Except Fault (Option (List Text)) :=
  match s.find Pattern.values with
  | none => .ok none
  | some hit => s.list hit.value

/-- The assignments of an update. -/
def assignments (s : Source) : Except Fault (Option (List Assignment)) := do
  match ← s.clause (Scan.word "set") Pattern.setEnd with
  | none => return none
  | some found =>
    let pairs ← (← Text.splitTop ',' found).mapM assignment?
    return some (pairs.filterMap id)

end Source

/-- The text without the white space and the semicolons at its end, and the white space at its start. -/
def strip (t : Text) : Text :=
  Text.trimEnd ((Text.trim t).reverse.dropWhile (· == ';')).reverse

/-- The statement that a text stands for. -/
def parse (t : Text) : Except Fault Statement := do
  let s := Source.ofText (strip t)
  match s.main? with
  | none => return {}
  | some main =>
    let kind := kindOf s.text
    let (columns, distinct) ← s.columns kind
    return {
      kind := kind
      main := some main
      distinct := distinct
      columns := columns
      joins := ← s.joins
      condition := (← s.clause (Scan.word "where") Pattern.whereEnd).getD []
      values := ← if kind == .insert then s.values else .ok none
      assignments := ← if kind == .update then s.assignments else .ok none
      groupBy := ← s.groupBy
      having := ← s.clause (Scan.word "having") Pattern.havingEnd
      orderBy := ← s.orderBy
      limit := s.limit? }

/-- The number of characters of a statement that an error shows. -/
def excerptLength : Nat := 60

/-- The statement that a text stands for, if it has a known kind. -/
def parseStrict (t : Text) : Except Fault (Except Error Statement) := do
  let s ← parse t
  if s.kind == .unknown then return .error (.unparsable ((Text.trim t).take excerptLength)) else return .ok s

end Statement
end QueryCode
