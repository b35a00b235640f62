import QueryCode.Literal
import QueryCode.Naming.Identifier

/-!
# Condition objects

A condition is written as an object whose properties are fields. Tests of one field share its property, as
long as they use different operators; otherwise each of them becomes an object of its own in a common
conjunction, so that no test overwrites another.
-/

namespace QueryCode
set_option autoImplicit false

namespace Finder

/-- An operator of a condition object. -/
inductive Operator where
  | eq
  | ne
  | gte
  | lte
  | gt
  | lt
  | like
  | notLike
  | iLike
  | notILike
  | inList
  | notIn
  | between
  | notBetween
  | isNull
  deriving DecidableEq, Repr

/-- The name of the operator. -/
def Operator.name : Operator → String
  | .eq => "Op.eq"
  | .ne => "Op.ne"
  | .gte => "Op.gte"
  | .lte => "Op.lte"
  | .gt => "Op.gt"
  | .lt => "Op.lt"
  | .like => "Op.like"
  | .notLike => "Op.notLike"
  | .iLike => "Op.iLike"
  | .notILike => "Op.notILike"
  | .inList => "Op.in"
  | .notIn => "Op.notIn"
  | .between => "Op.between"
  | .notBetween => "Op.notBetween"
  | .isNull => "Op.is"

/-- A property with a plain key. -/
def field (key : String) (value : Code) : Code := .row [.word key, ": ", value]

/-- A property whose key is an operator. -/
def opField (op : String) (value : Code) : Code := .row [Code.array [.word op], ": ", value]

/-- An object that joins conditions by an operator. -/
def junction (op : String) (items : List Code) : Code := Code.object [opField op (Code.array items)]

/-- A test of one property. -/
structure Test where
  key : Text
  op : Operator
  value : Code
  deriving Repr

/-- The tests of one property, in order. -/
structure Property where
  key : Text
  tests : List (Operator × Code)
  deriving Repr

/-- The properties with one more test. -/
def addTest (test : Test) : List Property → List Property
  | [] => [⟨test.key, [(test.op, test.value)]⟩]
  | property :: more =>
    if property.key == test.key then
      { property with tests := property.tests ++ [(test.op, test.value)] } :: more
    else property :: addTest test more

/-- The tests by property, in the order in which the properties first occur. -/
def properties (tests : List Test) : List Property := tests.foldl (fun found test => addTest test found) []

namespace Property

/-- Some operator occurs twice. -/
def repeats (p : Property) : Bool := !decide (p.tests.map Prod.fst).Nodup

/-- The property; a lone equality is the bare value. -/
def code (p : Property) : Code :=
  match p.tests with
  | [(.eq, value)] => .row [Naming.key p.key, ": ", value]
  | tests =>
    .row [Naming.key p.key, ": ", Code.object (tests.map fun (op, value) => opField op.name value)]

/-- One object for each test. -/
def apart (p : Property) : List Code := p.tests.map fun test => Code.object [code ⟨p.key, [test]⟩]

end Property

/-- The object that holds when all tests do. -/
def assemble (tests : List Test) : Code :=
  let found := properties tests
  let merged := (found.filter fun p => !p.repeats).map Property.code
  match (found.filter Property.repeats).flatMap Property.apart with
  | [] => Code.object merged
  | conjuncts => Code.object (merged ++ [opField "Op.and" (Code.array conjuncts)])

end Finder
end QueryCode
