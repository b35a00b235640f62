import QueryCode.Condition.Plan
import QueryCode.Relation.Rename

/-!
# Filters

The calls that keep the rows for which a condition holds. On a single model equalities become hashes and the
main table's name is dropped; with joins every test is a template whose fields carry their table.
-/

namespace QueryCode
set_option autoImplicit false

namespace Relation

/-- The call that keeps rows, or the one that drops them. -/
def whereMethod (negated : Bool) : String := if negated then "where.not" else "where"

/-- A key and its value in a hash. -/
def pair (field : Text) (value : Code) : Code := .row [Naming.hashKey field, " ", value]

/-- An operator with a place for its value. -/
def opTemplate (field : Text) (op : Comparator) : Text := field ++ " " ++ op.text ++ " ?"

/-- A hash under construction: fields and their pairs. -/
abbrev Hash := List (Text × Code)

/-- The pair in the first hash that does not have its field yet. -/
def place (field : Text) (entry : Code) : List Hash → List Hash
  | [] => [[(field, entry)]]
  | hash :: more =>
    if hash.any (·.1 == field) then hash :: place field entry more
    else (hash ++ [(field, entry)]) :: more

namespace Single

/-- The call for one comparison. -/
def simpleCall (s : Statement) (test : SimpleTest) : Call :=
  let field := unqualify s test.field
  let value := test.value.code .activeRecord
  match test.op with
  | .eq => call "where" [pair field value]
  | .ne => call "where.not" [pair field value]
  | op => call "where" [.quoted (opTemplate field op), value]

/-- The call for a pattern match. -/
def likeCall (s : Statement) (test : LikeTest) : Call :=
  let text := unqualify s test.field ++ " " ++ Predicate.likeWord test.anyCase ++ " ?"
  call (whereMethod test.negated) [.quoted text, .quoted test.pattern]

/-- The call for membership in a list. -/
def inCall (s : Statement) (test : InTest) : Call :=
  call (whereMethod test.negated)
    [pair (unqualify s test.field) (Code.array (test.values.map (Literal.code .activeRecord)))]

/-- The call for membership in a range. -/
def betweenCall (s : Statement) (test : BetweenTest) : Call :=
  let range := Code.row [test.low.code .activeRecord, "..", test.high.code .activeRecord]
  call (whereMethod test.negated) [pair (unqualify s test.field) range]

/-- The call for a missing value. -/
def nullCall (s : Statement) (test : NullTest) : Call :=
  call (whereMethod test.negated) [pair (unqualify s test.field) "nil"]

/-- The hashes of the equalities: the k-th equality of a field is in the k-th hash. -/
def hashes (s : Statement) (tests : List SimpleTest) : List Hash :=
  (tests.filter (·.op == .eq)).foldl
    (fun hashes test =>
      let field := unqualify s test.field
      place field (pair field (test.value.code .activeRecord)) hashes)
    []

/-- One template for all comparisons, if there are any. -/
def rangeCalls (s : Statement) (tests : List SimpleTest) : List Call :=
  match tests with
  | [] => []
  | tests =>
    let text := Text.join " AND " (tests.map fun test => opTemplate (unqualify s test.field) test.op)
    [Template.whereCall ⟨text, tests.map (·.value.code .activeRecord)⟩]

/-- The calls for a list of comparisons: equalities, then inequalities, then the others together. -/
def consolidated (s : Statement) (tests : List SimpleTest) : List Call :=
  (hashes s tests).map (fun hash => call "where" (hash.map Prod.snd))
    ++ (tests.filter (·.op == .ne)).map (simpleCall s)
    ++ rangeCalls s (tests.filter fun test => test.op != .eq && test.op != .ne)

/-- The calls for a plan. -/
def filter (s : Statement) : Plan → List Call
  | .empty => []
  | .literal text => [(dateTemplate (dealias s text)).whereCall]
  | .disjunction c | .raw c =>
    let t := template (unqualify s) c
    [Template.whereCall ⟨dealias s t.text, t.params⟩]
  | .consolidated tests => consolidated s tests
  | .decomposed tests =>
    tests.like.map (likeCall s) ++ tests.inList.map (inCall s) ++ tests.between.map (betweenCall s)
      ++ tests.null.map (nullCall s) ++ tests.simple.map (simpleCall s)

end Single

namespace Joined

/-- A call with a template. -/
def templateCall (negated : Bool) (text : Text) (params : List Code) : Call :=
  call (whereMethod negated) (.quoted text :: params)

/-- The call for one comparison. -/
def simpleCall (reference : Text) (test : SimpleTest) : Call :=
  let field := qualify reference test.field
  let value := test.value.code .activeRecord
  match test.op with
  | .ne => templateCall true (opTemplate field .eq) [value]
  | op => templateCall false (opTemplate field op) [value]

/-- The call for a pattern match. -/
def likeCall (reference : Text) (test : LikeTest) : Call :=
  templateCall test.negated
    (qualify reference test.field ++ " " ++ Predicate.likeWord test.anyCase ++ " ?") [.quoted test.pattern]

/-- The call for membership in a list. -/
def inCall (reference : Text) (test : InTest) : Call :=
  templateCall test.negated (qualify reference test.field ++ " IN (?)")
    [Code.array (test.values.map (Literal.code .activeRecord))]

/-- The call for membership in a range. -/
def betweenCall (reference : Text) (test : BetweenTest) : Call :=
  templateCall test.negated (qualify reference test.field ++ " BETWEEN ? AND ?")
    [test.low.code .activeRecord, test.high.code .activeRecord]

/-- The call for a missing value. -/
def nullCall (reference : Text) (test : NullTest) : Call :=
  templateCall false (qualify reference test.field ++ (if test.negated then " IS NOT NULL" else " IS NULL")) []

/-- One template for a list of comparisons. -/
def consolidated (reference : Text) (tests : List SimpleTest) : Call :=
  let text := Text.join " AND " (tests.map fun test => opTemplate (qualify reference test.field) test.op)
  Template.whereCall ⟨text, tests.map (·.value.code .activeRecord)⟩

/-- The calls for a plan. -/
def filter (reference : Text) : Plan → List Call
  | .empty => []
  | .literal text => [(dateTemplate text).whereCall]
  | .disjunction c | .raw c => [(template (qualify reference) c).whereCall]
  | .consolidated tests => [consolidated reference tests]
  | .decomposed tests =>
    tests.like.map (likeCall reference) ++ tests.inList.map (inCall reference)
      ++ tests.between.map (betweenCall reference) ++ tests.null.map (nullCall reference)
      ++ tests.simple.map (simpleCall reference)

end Joined
end Relation
end QueryCode
