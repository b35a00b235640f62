import QueryCode.Condition.Plan

/-!
# The text of a clause

Questions about a condition that is given as text.
-/

namespace QueryCode
set_option autoImplicit false

namespace Clause

/-- The answer for the condition of a text, or the one for a blank text. -/
def ask {α : Type} (t : Text) (blank : α) (f : Condition → α) : Except Fault α :=
  match Condition.parse t with
  | .error fault => .error fault
  | .ok none => .ok blank
  | .ok (some c) => .ok (f c)

/-- The text is a conjunction of comparisons, without a query. -/
def isSimple (t : Text) : Except Fault Bool :=
  if Condition.hasSubquery t then .ok false else ask t false Condition.isSimple

/-- The comparisons among the conjuncts, none if there is a query. -/
def simpleTests (t : Text) : Except Fault (List SimpleTest) :=
  if Condition.hasSubquery t then .ok [] else ask t [] Condition.simpleTests

/-- The predicates in their kinds. -/
def tests (t : Text) : Except Fault Tests := ask t {} Tests.ofCondition

/-- The tests against queries. -/
def queryTests (t : Text) : Except Fault (List QueryTest) := ask t [] Condition.queryTests

end Clause
end QueryCode
