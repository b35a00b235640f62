import QueryCode.Condition.Plan
import QueryCode.Finder.Object
import QueryCode.Statement.Basic

/-!
# Filters

The condition object of a clause. A field of the main table is a plain key, and one of another table goes
by its dollar-marked path.
-/

namespace QueryCode
set_option autoImplicit false

namespace Finder

/-- Text that is kept as it stands. -/
def literal (t : Text) : Code := Code.call "Sequelize.literal" [.quoted t]

/-- A column by its name. -/
def columnRef (t : Text) : Code := Code.call "Sequelize.col" [.quoted t]

/-- The value of a token. -/
def value (raw : Text) : Code := (Literal.ofToken raw).code .sequelize

/-- The name of the property for a field. -/
def keyOf (s : Statement) (field : Text) : Text :=
  match field.dropWhile (· != '.') with
  | [] => field
  | _ :: column => if s.isMain (field.takeWhile (· != '.')) then column else "$" ++ field ++ "$"

/-- The operator for a comparison. -/
def comparison : Comparator → Operator
  | .eq => .eq
  | .ne => .ne
  | .ge => .gte
  | .le => .lte
  | .gt => .gt
  | .lt => .lt

/-- The operator for a pattern match. -/
def likeOperator (negated anyCase : Bool) : Operator :=
  match negated, anyCase with
  | false, false => .like
  | true, false => .notLike
  | false, true => .iLike
  | true, true => .notILike

/-- A comparison with a value. -/
def simpleTest (s : Statement) (t : SimpleTest) : Test := ⟨keyOf s t.field, comparison t.op, t.value.code .sequelize⟩

/-- A pattern match. -/
def likeTest (s : Statement) (t : LikeTest) : Test :=
  ⟨keyOf s t.field, likeOperator t.negated t.anyCase, .quoted t.pattern⟩

/-- Membership in a list. -/
def inTest (s : Statement) (t : InTest) : Test :=
  ⟨keyOf s t.field, if t.negated then .notIn else .inList,
    Code.array (t.values.map (Literal.code .sequelize))⟩

/-- Membership in a range. -/
def betweenTest (s : Statement) (t : BetweenTest) : Test :=
  ⟨keyOf s t.field, if t.negated then .notBetween else .between,
    Code.array [t.low.code .sequelize, t.high.code .sequelize]⟩

/-- A test for a missing value. -/
def nullTest (s : Statement) (t : NullTest) : Test :=
  ⟨keyOf s t.field, if t.negated then .ne else .isNull, "null"⟩

/-- An operand: a column, an expression that calls a function, or a value. -/
def operand (raw : Text) : Code :=
  if Naming.isColumnRef raw then columnRef (Text.trim raw)
  else if raw.contains '(' then literal (Text.trim raw)
  else value raw

/-- One predicate of a tree. -/
def leaf (s : Statement) : Predicate → Code
  | .comparison field op raw => assemble [⟨keyOf s field, comparison op, operand raw⟩]
  | .like field negated pattern anyCase => assemble [likeTest s ⟨field, negated, pattern, anyCase⟩]
  | .inList field negated values => assemble [inTest s ⟨field, negated, values.map .ofToken⟩]
  | .between field negated low high => assemble [betweenTest s ⟨field, negated, .ofToken low, .ofToken high⟩]
  | .isNull field negated => assemble [nullTest s ⟨field, negated⟩]
  | .inQuery field negated query => literal (Predicate.inQuery field negated query).text
  | .raw text => literal text

mutual

/-- A whole condition. -/
def tree (s : Statement) : Condition → Code
  | .and parts => junction "Op.and" (trees s parts)
  | .or parts => junction "Op.or" (trees s parts)
  | .not part => Code.object [opField "Op.not" (tree s part)]
  | .leaf predicate => leaf s predicate

/-- Several conditions. -/
def trees (s : Statement) : List Condition → List Code
  | [] => []
  | part :: more => tree s part :: trees s more

end

/-- The condition object for a plan. Text that is kept whole stands in an object if `wrapped`. -/
def filter (s : Statement) (wrapped : Bool) : Plan → Code
  | .empty => Code.object []
  | .literal text => if wrapped then junction "Op.and" [literal text] else literal text
  | .disjunction c | .raw c => tree s c
  | .consolidated tests => assemble (tests.map (simpleTest s))
  | .decomposed tests =>
    assemble (tests.like.map (likeTest s) ++ tests.inList.map (inTest s) ++ tests.between.map (betweenTest s)
      ++ tests.null.map (nullTest s) ++ tests.simple.map (simpleTest s))

/-- The condition object of the statement. -/
def condition (s : Statement) (wrapped : Bool) : Except Fault Code := do
  return filter s wrapped (← Plan.ofText s.condition)

end Finder
end QueryCode
