import QueryCode.Finder.Single
import QueryCode.Statement.Association

/-!
# Finders with joins

Joined tables are written as included models. A join along an association needs no condition of its own but
for the other conjuncts; any other join keeps its condition as text.
-/

namespace QueryCode
set_option autoImplicit false

namespace Finder
namespace Joined

/-- The place among the joins of the one that a column belongs to, if it is a column of a joined table. -/
def owner? (s : Statement) (column : Column) : Option Nat :=
  match Aggregate.parse? column.name, column.table with
  | some _, _ => none
  | none, none => none
  | none, some table => if s.isMain table then none else s.joins.findIdx? (·.isNamed table)

/-- Rows without a partner are kept. -/
def isOptional (join : Join) : Bool :=
  match join.kind with
  | .left | .right | .full => true
  | _ => false

/-- The model of a join and its alias. -/
def headFields (join : Join) : List Code :=
  field "model" (.word (Naming.modelName join.table)) ::
    (match join.alias? with
    | some given => [field "as" (.quoted given)]
    | none => [])

/-- Whether rows without a partner are dropped. -/
def requiredField (join : Join) : Code := field "required" (if isOptional join then "false" else "true")

/-- The condition of a join as text. -/
def onField (join : Join) : Code := field "on" (junction "Op.and" [literal join.on])

/-- An included model in an update or a deletion. -/
def basicInclude (s : Statement) (join : Join) : Code :=
  Code.object
    (headFields join ++ [requiredField join] ++ (if (s.classify? join).isNone then [onField join] else []))

/-- The name refers to the joined table. -/
def refersTo (join : Join) (name : Text) : Bool :=
  Text.sameWord name join.reference || Text.sameWord name join.table

/-- The predicate about another field. -/
def rename (name : Text) : Predicate → Predicate
  | .comparison _ op value => .comparison name op value
  | .like _ negated pattern anyCase => .like name negated pattern anyCase
  | .inList _ negated values => .inList name negated values
  | .inQuery _ negated query => .inQuery name negated query
  | .between _ negated low high => .between name negated low high
  | .isNull _ negated => .isNull name negated
  | .raw text => .raw text

/-- The column that a predicate tests, if its field names the joined table. -/
def localColumn? (join : Join) (predicate : Predicate) : Option Text :=
  match predicate.field? with
  | none => none
  | some field =>
    match field.dropWhile (· != '.') with
    | [] => none
    | _ :: column => if refersTo join (field.takeWhile (· != '.')) then some column else none

/-- A further conjunct of a join condition; the key equation needs none. -/
def extra? (s : Statement) (join : Join) : Condition → Option Code
  | .leaf predicate =>
    if (s.keyAssociation? join predicate.text).isSome then none
    else
      match localColumn? join predicate with
      | some column => some (leaf s (rename column predicate))
      | none => some (literal predicate.text)
  | other => some (literal other.text)

/-- The condition object for the conjuncts besides the key equation. -/
def extraCondition? (s : Statement) (join : Join) : Except Fault (Option Code) := do
  match ← Condition.parse join.on with
  | none => return none
  | some c =>
    if c.hasOr then return none
    match c.conjuncts.filterMap (extra? s join) with
    | [] => return none
    | [part] => return some part
    | parts => return some (junction "Op.and" parts)

/-- The attributes of the `i`-th join, unless all of its columns are asked for. -/
def joinAttributes (s : Statement) (i : Nat) (join : Join) : List Code :=
  if s.selectsAll || s.columns.any (fun c => c.name == "*" && c.table.any (refersTo join)) then []
  else
    [field "attributes" (Code.array ((s.columns.filter fun c => owner? s c == some i).map fun c =>
      match c.alias? with
      | some given => Code.array [.quoted c.name, .quoted given]
      | none => .quoted c.name))]

/-- The included model of the `i`-th join in a query. -/
def fullInclude (s : Statement) (i : Nat) (join : Join) : Except Fault Code := do
  let association ← s.association? join
  let extra ← if association.isSome then extraCondition? s join else .ok none
  return Code.object
    (headFields join
      ++ (extra.map (field "where")).toList
      ++ joinAttributes s i join
      ++ [requiredField join]
      ++ (if join.kind == .right then [field "right" "true"] else [])
      ++ (if association.isNone then [onField join] else []))

/-- All columns of the main table are asked for. -/
def wantsMain (s : Statement) : Bool := s.columns.any fun c => c.name == "*" && c.table.any s.isMain

/-- The attributes that belong to no join, as an option. -/
def attributesOption (s : Statement) : List Code :=
  if s.selectsAll || wantsMain s then []
  else
    let own := s.columns.filter fun c => (owner? s c).isNone && c.name != "*"
    [field "attributes" (Code.array (own.map (columnAttribute s)))]

/-- The condition on groups: a lone comparison of a plain column is an object, all else is kept as text. -/
def having (s : Statement) (t : Text) : Except Fault Code := do
  let t := Text.trim t
  if t.contains '.' || t.contains '(' then return literal t
  match ← Condition.parse t with
  | some (.leaf (.comparison field op value)) => return tree s (.leaf (.comparison field op value))
  | _ => return literal t

/-- The condition on groups as an option. -/
def havingOption (s : Statement) : Except Fault (List Code) := do
  match s.having? with
  | some t => return [field "having" (← having s t)]
  | none => return []

/-- The call for a query. -/
def select (s : Statement) : Except Fault Code := do
  let includes ← (s.joins.mapIdx fun i join => fullInclude s i join).mapM id
  let included := field "include" (Code.array includes)
  let found ← whereOption s true
  match s.scalar? with
  | some a => return aggregateCall s a (included :: found ++ orderOption s ++ limitOptions s)
  | none =>
    let having ← havingOption s
    return modelCall s "findAll" [Code.options
      (included :: attributesOption s ++ found ++ groupOption s ++ having ++ orderOption s ++ limitOptions s)]

/-- The condition and the included models of an update or a deletion. -/
def changeOptions (s : Statement) : Except Fault Code := do
  return Code.object [
    field "where" (← condition s true), field "include" (Code.array (s.joins.map (basicInclude s)))]

/-- The call for an update. -/
def update (s : Statement) : Except Fault Code := do
  return modelCall s "update" [assignments s, ← changeOptions s]

/-- The call for a deletion. -/
def delete (s : Statement) : Except Fault Code := do
  return modelCall s "destroy" [← changeOptions s]

/-- The writer of statements with joins. -/
def writer : Writer where
  target := .sequelize
  select := select
  insert _ := .ok (.word (Target.comment .sequelize "INSERT with JOIN is not supported by Sequelize"))
  update := update
  delete := delete

end Joined
end Finder
end QueryCode
