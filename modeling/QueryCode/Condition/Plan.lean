import QueryCode.Condition.Grammar

/-!
# Plans for conditions

How the condition of a clause is written out. A text with a query in it is kept whole. A condition with an
`OR`, with raw text or with a negated group is kept as a tree. Of the others, plain comparisons are kept in
order, and mixed predicates are sorted into one list for each kind.
-/

namespace QueryCode
set_option autoImplicit false

/-- A comparison with a typed value. -/
structure SimpleTest where
  field : Text
  op : Comparator
  value : Literal
  deriving DecidableEq, Repr

/-- A pattern match. -/
structure LikeTest where
  field : Text
  negated : Bool
  pattern : Text
  anyCase : Bool
  deriving DecidableEq, Repr

/-- Membership in a list of typed values. -/
structure InTest where
  field : Text
  negated : Bool
  values : List Literal
  deriving DecidableEq, Repr

/-- Membership in a range of typed values. -/
structure BetweenTest where
  field : Text
  negated : Bool
  low : Literal
  high : Literal
  deriving DecidableEq, Repr

/-- A test for a missing value. -/
structure NullTest where
  field : Text
  negated : Bool
  deriving DecidableEq, Repr

/-- Membership in the result of a query, with the text of the whole predicate. -/
structure QueryTest where
  field : Text
  negated : Bool
  query : Text
  predicate : Text
  deriving DecidableEq, Repr

/-- Predicates sorted by kind, each kind in the order of the condition. -/
structure Tests where
  like : List LikeTest := []
  inList : List InTest := []
  between : List BetweenTest := []
  null : List NullTest := []
  simple : List SimpleTest := []
  /-- What belongs to no kind, as text. -/
  unparsed : List Text := []
  deriving DecidableEq, Repr

namespace Tests

/-- The lists one after the other, kind by kind. -/
def append (a b : Tests) : Tests where
  like := a.like ++ b.like
  inList := a.inList ++ b.inList
  between := a.between ++ b.between
  null := a.null ++ b.null
  simple := a.simple ++ b.simple
  unparsed := a.unparsed ++ b.unparsed

instance : Append Tests := ⟨append⟩

/-- There is no test of any kind. -/
def isEmpty (tests : Tests) : Bool :=
  tests.like.isEmpty && tests.inList.isEmpty && tests.between.isEmpty && tests.null.isEmpty
    && tests.simple.isEmpty

/-- One predicate in its kind. Membership in a query's result has none. -/
def ofPredicate : Predicate → Tests
  | .comparison field op value => { simple := [⟨field, op, .ofToken value⟩] }
  | .like field negated pattern anyCase => { like := [⟨field, negated, pattern, anyCase⟩] }
  | .inList field negated values => { inList := [⟨field, negated, values.map .ofToken⟩] }
  | .between field negated low high => { between := [⟨field, negated, .ofToken low, .ofToken high⟩] }
  | .isNull field negated => { null := [⟨field, negated⟩] }
  | .inQuery .. => {}
  | .raw text => { unparsed := [text] }

mutual

/-- The predicates of a condition in their kinds, with negations carried out. -/
def ofCondition : Condition → Tests
  | .and parts => ofConditions parts
  | .or parts => ofConditions parts
  | .not part =>
    match (Condition.not part).predicate? with
    | some predicate => ofPredicate predicate
    | none => { unparsed := [(Condition.not part).text] }
  | .leaf predicate => ofPredicate predicate

/-- The predicates of several conditions in their kinds. -/
def ofConditions : List Condition → Tests
  | [] => {}
  | part :: more => ofCondition part ++ ofConditions more

end

end Tests

namespace Condition

/-- The conjunct as a typed comparison, if it is one. -/
def simpleTest? : Condition → Option SimpleTest
  | .leaf (.comparison field op value) => some ⟨field, op, .ofToken value⟩
  | _ => none

/-- The comparisons among the conjuncts. -/
def simpleTests (c : Condition) : List SimpleTest := c.conjuncts.filterMap simpleTest?

/-- Every conjunct is a comparison. -/
def isSimple (c : Condition) : Bool := !c.hasOr && c.conjuncts.all fun part => part.simpleTest?.isSome

/-- The predicate is neither raw text nor a test against a query. -/
def isPlain : Predicate → Bool
  | .raw _ => false
  | .inQuery .. => false
  | _ => true

/-- The conjuncts are predicates, and all of them plain. -/
def isDecomposable (c : Condition) : Bool :=
  match c.conjunctPredicates? with
  | some predicates => predicates.all isPlain
  | none => false

/-- The tests against queries among the leaves. -/
def queryTests (c : Condition) : List QueryTest :=
  c.leaves.filterMap fun predicate =>
    match predicate with
    | .inQuery field negated query => some ⟨field, negated, query, predicate.text⟩
    | _ => none

/-- From a place on, the word `SELECT` shows where a parenthesis was opened and none was closed since. -/
def selectFrom (opened : Bool) (last : Option Char) : Text → Bool
  | [] => false
  | c :: rest =>
    (opened && (Text.Scan.word "select" ⟨0, last, c :: rest⟩).isSome)
      || selectFrom (c == '(' || (opened && c != ')')) (some c) rest

/-- A query stands in parentheses somewhere outside literals. -/
def hasSubquery (t : Text) : Bool := selectFrom false none (Text.mask .quotes t)

end Condition

/-- How a condition is written out. -/
inductive Plan where
  | empty
  | literal (text : Text)
  | disjunction (condition : Condition)
  | decomposed (tests : Tests)
  | consolidated (tests : List SimpleTest)
  | raw (condition : Condition)
  deriving Repr

namespace Plan

/-- The name of the kind of plan. -/
def name : Plan → Text
  | .empty => "empty"
  | .literal _ => "literal"
  | .disjunction _ => "disjunction"
  | .decomposed _ => "decomposed"
  | .consolidated _ => "consolidated"
  | .raw _ => "raw"

/-- The plan for a condition without queries. -/
def ofCondition (c : Condition) : Plan :=
  if c.hasOr then .disjunction c
  else if !c.isDecomposable then .raw c
  else if c.isSimple then .consolidated c.simpleTests
  else .decomposed (Tests.ofCondition c)

/-- The plan for the text of a clause. -/
def ofText (t : Text) : Except Fault Plan :=
  let t := Text.trim t
  if t.isEmpty then .ok .empty
  else if Condition.hasSubquery t then .ok (.literal t)
  else
    match Condition.parse t with
    | .error fault => .error fault
    | .ok none => .ok .empty
    | .ok (some c) => .ok (ofCondition c)

end Plan
end QueryCode
