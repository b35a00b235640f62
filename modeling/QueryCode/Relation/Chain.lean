import QueryCode.Code

/-!
# Chains of calls

A relation is written as a model and the calls made on it one after the other.
-/

namespace QueryCode
set_option autoImplicit false

namespace Relation

/-- A call on a relation. -/
structure Call where
  method : String
  /-- The arguments; a call without parentheses has none. -/
  args : Option (List Code)
  deriving Repr

/-- The call after its point. -/
def Call.code (call : Call) : Code :=
  match call.args with
  | none => .row [".", .word call.method]
  | some items => .row [".", .word call.method, Code.args items]

/-- A call with arguments. -/
def call (method : String) (items : List Code) : Call := ⟨method, some items⟩

/-- A call without parentheses. -/
def bareCall (method : String) : Call := ⟨method, none⟩

/-- A model and the calls on it. -/
structure Chain where
  model : Text
  calls : List Call
  deriving Repr

/-- The chain as code. -/
def Chain.code (chain : Chain) : Code := .row (.word chain.model :: chain.calls.map Call.code)

end Relation
end QueryCode
