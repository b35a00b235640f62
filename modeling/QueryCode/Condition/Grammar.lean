import QueryCode.Condition.Basic
import QueryCode.Condition.Token
import QueryCode.Literal

/-!
# Reading conditions

The grammar, with `NOT` binding tighter than `AND` and `AND` tighter than `OR`:

    disjunction := conjunction (OR conjunction)*
    conjunction := unary (AND unary)*
    unary       := NOT unary | primary
    primary     := '(' disjunction ')' | predicate | raw
    predicate   := field [NOT] LIKE|ILIKE 'pattern' | field [NOT] IN (...)
                 | field [NOT] BETWEEN operand AND operand | field IS [NOT] NULL | field op operand

Text that is no predicate becomes a raw leaf up to the next connective, and what is left after the whole
condition becomes one last raw conjunct, so every text but a blank one is read.
-/

namespace QueryCode
set_option autoImplicit false

namespace Condition

open Reader

/-- A condition ends before this text: at its end, a closing parenthesis or a connective. -/
def atBoundary (t : Text) : Bool :=
  match Text.trimStart t with
  | [] => true
  | c :: rest => c == ')' || startsLogical (c :: rest)

/-- An optional `NOT` in front of a predicate's keyword. -/
def negation : Reader Bool := do
  let found ← opt (do keyword "not"; gaps1)
  return found.isSome

/-- An operator and the spelling by which it is known. -/
def operatorSpellings : List (String × Comparator) := [
  (">=", .ge), ("<=", .le), ("!=", .ne), ("<>", .ne), ("=", .eq), (">", .gt), ("<", .lt)]

/-- The first operator whose spelling starts the text. -/
def comparator : Reader Comparator := ofOption fun t =>
  operatorSpellings.findSome? fun (spelling, op) => (Text.after? spelling t).map fun rest => (op, rest)

/-- A pattern match. -/
def likeTail (field : Text) : Reader Predicate := do
  let negated ← negation
  let anyCase ← (do keyword "ilike"; return true) <|> (do keyword "like"; return false)
  gaps
  let literal ← ofOption stringLiteral?
  return .like field negated ((Literal.unquote? literal).getD literal) anyCase

/-- Membership in a list or in the result of a query. -/
def inTail (field : Text) : Reader Predicate := do
  let negated ← negation
  keyword "in"
  gaps
  let body ← ofOption Text.parenBody?
  if containsSelect body then return .inQuery field negated (Text.trim body)
  else return .inList field negated (← ofExcept (Text.splitTop ',' body))

/-- Membership in a range. -/
def betweenTail (field : Text) : Reader Predicate := do
  let negated ← negation
  keyword "between"
  gaps1
  let low ← ofOption operand?
  connective "and"
  let high ← ofOption operand?
  return .between field negated low high

/-- A test for a missing value. -/
def nullTail (field : Text) : Reader Predicate := do
  keyword "is"
  gaps1
  let negated ← negation
  keyword "null"
  return .isNull field negated

/-- A comparison with an operand. -/
def compareTail (field : Text) : Reader Predicate := do
  let op ← comparator
  gaps
  let value ← ofOption operand?
  return .comparison field op value

/-- A field and a test of it. -/
def predicate : Reader Predicate := do
  let field ← ofOption fieldRef?
  gaps
  likeTail field <|> inTail field <|> betweenTail field <|> nullTail field <|> compareTail field

/-- One part alone, or several under a connective. -/
def combine (wrap : List Condition → Condition) (first : Condition) : List Condition → Condition
  | [] => first
  | more => wrap (first :: more)

/-- Parts joined by `AND`. -/
def conjunction (unary : Reader Condition) : Reader Condition := do
  let first ← unary
  let more ← many (do connective "and"; unary)
  return combine .and first more

/-- Parts joined by `OR`. -/
def disjunction (unary : Reader Condition) : Reader Condition := do
  let first ← conjunction unary
  let more ← many (do connective "or"; conjunction unary)
  return combine .or first more

/-- The whole of a text, but for the separating white space around it. -/
def wholeBody (unary : Reader Condition) (body : Text) : Except Fault (Option Condition) :=
  match (do gaps; let c ← disjunction unary; gaps; return c : Reader Condition) body with
  | .error fault => .error fault
  | .ok (some (c, [])) => .ok (some c)
  | .ok _ => .ok none

/-- A condition in parentheses, which is not blank and no query. -/
def group (unary : Reader Condition) : Reader Condition := do
  let body ← ofOption Text.parenBody?
  if (Text.trim body).isEmpty || startsWith "select" (Text.trimStart body) then fail
  else
    match ← ofExcept (wholeBody unary body) with
    | some c => return c
    | none => fail

/-- A condition in parentheses, a predicate or raw text. -/
def primary (unary : Reader Condition) : Reader Condition :=
  before (group unary) atBoundary
    <|> (do return .leaf (← before predicate atBoundary))
    <|> (do return raw (← ofOption operand?))

/-- A condition after any number of `NOT`s, with parentheses and `NOT`s nested less than `depth` deep. -/
def unary : Nat → Reader Condition
  | 0 => fail
  | depth + 1 => (do keyword "not"; gaps; return .not (← unary depth)) <|> primary (unary depth)

/-- The condition with one more conjunct. -/
def addConjunct (c extra : Condition) : Condition :=
  match c with
  | .and parts => .and (parts ++ [extra])
  | c => .and [c, extra]

/-- The condition that a text stands for; a blank text stands for none. Each nested condition is shorter
than the one around it, so the length of the text bounds the depth. -/
def parse (t : Text) : Except Fault (Option Condition) :=
  let t := Text.trim t
  if t.isEmpty then .ok none
  else
    match disjunction (unary t.length) t with
    | .error fault => .error fault
    | .ok none => .ok (some (raw t))
    | .ok (some (c, rest)) =>
      let rest := Text.trim rest
      .ok (some (if rest.isEmpty then c else addConjunct c (raw rest)))

end Condition
end QueryCode
