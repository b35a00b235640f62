import QueryCode.Text.Basic

/-!
# Conditions

A condition is a tree of predicates joined by `AND`, `OR` and `NOT`. Its text needs parentheses only where an
`OR` stands under an `AND` or a `NOT` covers more than a predicate.
-/

namespace QueryCode
set_option autoImplicit false

/-- A comparison operator. -/
inductive Comparator where
  | eq
  | ne
  | ge
  | le
  | gt
  | lt
  deriving DecidableEq, Repr

namespace Comparator

/-- The operator in a statement. -/
def text : Comparator → Text
  | .eq => "="
  | .ne => "!="
  | .ge => ">="
  | .le => "<="
  | .gt => ">"
  | .lt => "<"

/-- The operator that holds when this one does not. -/
def negate : Comparator → Comparator
  | .eq => .ne
  | .ne => .eq
  | .ge => .lt
  | .le => .gt
  | .gt => .le
  | .lt => .ge

end Comparator

/-- A single test of a row. -/
inductive Predicate where
  | comparison (field : Text) (op : Comparator) (value : Text)
  | like (field : Text) (negated : Bool) (pattern : Text) (anyCase : Bool)
  | inList (field : Text) (negated : Bool) (values : List Text)
  | inQuery (field : Text) (negated : Bool) (query : Text)
  | between (field : Text) (negated : Bool) (low high : Text)
  | isNull (field : Text) (negated : Bool)
  /-- Text that is none of the others, kept as it stands. -/
  | raw (text : Text)
  deriving DecidableEq, Repr

namespace Predicate

/-- The field under test. -/
def field? : Predicate → Option Text
  | .comparison field .. => some field
  | .like field .. => some field
  | .inList field .. => some field
  | .inQuery field .. => some field
  | .between field .. => some field
  | .isNull field _ => some field
  | .raw _ => none

/-- The predicate that holds when this one does not. -/
def negation? : Predicate → Option Predicate
  | .comparison field op value => some (.comparison field op.negate value)
  | .like field negated pattern anyCase => some (.like field (!negated) pattern anyCase)
  | .inList field negated values => some (.inList field (!negated) values)
  | .inQuery field negated query => some (.inQuery field (!negated) query)
  | .between field negated low high => some (.between field (!negated) low high)
  | .isNull field negated => some (.isNull field (!negated))
  | .raw _ => none

/-- The word that negates a predicate, with the space after it. -/
def notWord (negated : Bool) : Text := if negated then "NOT " else ""

/-- The keyword of a pattern match. -/
def likeWord (anyCase : Bool) : Text := if anyCase then "ILIKE" else "LIKE"

/-- The text with every single quote doubled. -/
def doubleQuotes (t : Text) : Text := Text.substitute '\'' ['\'', '\''] t

/-- The predicate in a statement. -/
def text : Predicate → Text
  | .comparison field op value => field ++ " " ++ op.text ++ " " ++ value
  | .like field negated pattern anyCase =>
    field ++ " " ++ notWord negated ++ likeWord anyCase ++ " '" ++ doubleQuotes pattern ++ "'"
  | .inList field negated values => field ++ " " ++ notWord negated ++ "IN (" ++ Text.join ", " values ++ ")"
  | .inQuery field negated query => field ++ " " ++ notWord negated ++ "IN (" ++ query ++ ")"
  | .between field negated low high =>
    field ++ " " ++ notWord negated ++ "BETWEEN " ++ low ++ " AND " ++ high
  | .isNull field negated => field ++ " IS " ++ notWord negated ++ "NULL"
  | .raw text => text

end Predicate

/-- A tree of predicates. -/
inductive Condition where
  | and (parts : List Condition)
  | or (parts : List Condition)
  | not (part : Condition)
  | leaf (predicate : Predicate)
  deriving Repr

namespace Condition

/-- A leaf of text that is no known predicate. -/
def raw (t : Text) : Condition := .leaf (.raw t)

/-- The root is an `OR`. -/
def isOr : Condition → Bool
  | .or _ => true
  | _ => false

/-- The root is a leaf. -/
def isLeaf : Condition → Bool
  | .leaf _ => true
  | _ => false

/-- The text in parentheses if asked for. -/
def bracket (brackets : Bool) (t : Text) : Text := if brackets then "(" ++ t ++ ")" else t

/-- The word between the parts of an `AND` or an `OR`, with its spaces. -/
def joiner (underAnd : Bool) : Text := if underAnd then " AND " else " OR "

mutual

/-- The condition in a statement. -/
def text : Condition → Text
  | .and parts => partsText true parts
  | .or parts => partsText false parts
  | .not part => "NOT " ++ bracket (!part.isLeaf) (text part)
  | .leaf predicate => predicate.text

/-- The parts of an `AND` or an `OR` in a statement. -/
def partsText (underAnd : Bool) : List Condition → Text
  | [] => []
  | [part] => bracket (underAnd && part.isOr) (text part)
  | part :: more =>
    bracket (underAnd && part.isOr) (text part) ++ joiner underAnd ++ partsText underAnd more

end

mutual

/-- An `OR` stands somewhere in the tree. -/
def hasOr : Condition → Bool
  | .and parts => anyHasOr parts
  | .or _ => true
  | .not part => hasOr part
  | .leaf _ => false

/-- An `OR` stands somewhere in the trees. -/
def anyHasOr : List Condition → Bool
  | [] => false
  | part :: more => hasOr part || anyHasOr more

end

mutual

/-- The conditions that hold together, with nested `AND`s opened up. -/
def conjuncts : Condition → List Condition
  | .and parts => allConjuncts parts
  | .or parts => [.or parts]
  | .not part => [.not part]
  | .leaf predicate => [.leaf predicate]

/-- The conjuncts of several conditions one after the other. -/
def allConjuncts : List Condition → List Condition
  | [] => []
  | part :: more => conjuncts part ++ allConjuncts more

end

mutual

/-- The predicates of the tree from left to right. -/
def leaves : Condition → List Predicate
  | .and parts => allLeaves parts
  | .or parts => allLeaves parts
  | .not part => leaves part
  | .leaf predicate => [predicate]

/-- The predicates of several trees from left to right. -/
def allLeaves : List Condition → List Predicate
  | [] => []
  | part :: more => leaves part ++ allLeaves more

end

/-- The predicate that a conjunct amounts to: a leaf, or the negation of one. -/
def predicate? : Condition → Option Predicate
  | .leaf predicate => some predicate
  | .not (.leaf predicate) => predicate.negation?
  | _ => none

/-- The conjuncts as predicates, if each of them amounts to one. -/
def conjunctPredicates? (c : Condition) : Option (List Predicate) := c.conjuncts.mapM predicate?

end Condition
end QueryCode
