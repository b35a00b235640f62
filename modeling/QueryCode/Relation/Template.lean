import QueryCode.Condition.Basic
import QueryCode.Literal
import QueryCode.Naming.Identifier
import QueryCode.Relation.Chain

/-!
# Templates

A condition that has no hash form is written as text with a question mark for every value, followed by the
values in the same order. Values that are columns or calls of functions stay in the text.
-/

namespace QueryCode
set_option autoImplicit false

namespace Relation

/-- A text with question marks and the values for them. -/
structure Template where
  text : Text
  params : List Code
  deriving Repr

/-- The value of a token. -/
def value (raw : Text) : Code := (Literal.ofToken raw).code .activeRecord

/-- The operand is a column or calls a function, so it is no value. -/
def isExpression (raw : Text) : Bool := Naming.isColumnRef raw || raw.contains '('

/-- The template of a predicate, with its field renamed. -/
def predicateTemplate (rename : Text → Text) : Predicate → Template
  | .comparison field op raw =>
    if isExpression raw then ⟨rename field ++ " " ++ op.text ++ " " ++ raw, []⟩
    else ⟨rename field ++ " " ++ op.text ++ " ?", [value raw]⟩
  | .like field negated pattern anyCase =>
    ⟨rename field ++ " " ++ Predicate.notWord negated ++ Predicate.likeWord anyCase ++ " ?", [.quoted pattern]⟩
  | .inList field negated values =>
    ⟨rename field ++ " " ++ Predicate.notWord negated ++ "IN (?)", [Code.array (values.map value)]⟩
  | .between field negated low high =>
    ⟨rename field ++ " " ++ Predicate.notWord negated ++ "BETWEEN ? AND ?", [value low, value high]⟩
  | .isNull field negated => ⟨rename field ++ " IS " ++ Predicate.notWord negated ++ "NULL", []⟩
  | .inQuery field negated query => ⟨(Predicate.inQuery field negated query).text, []⟩
  | .raw text => ⟨text, []⟩

/-- Templates one after the other, with a text between them. -/
def Template.join (between : Text) (parts : List Template) : Template :=
  ⟨Text.join between (parts.map Template.text), parts.flatMap Template.params⟩

mutual

/-- The template of a condition that stands alone, or inside an `AND`: there an `OR` puts itself in parentheses. -/
def templateIn (rename : Text → Text) (insideAnd : Bool) : Condition → Template
  | .and parts => .join " AND " (templatesIn rename true parts)
  | .or parts =>
    let whole := Template.join " OR " (templatesIn rename false parts)
    ⟨Condition.bracket insideAnd whole.text, whole.params⟩
  | .not part =>
    let inner := templateIn rename false part
    ⟨"NOT " ++ Condition.bracket (!part.isLeaf) inner.text, inner.params⟩
  | .leaf predicate => predicateTemplate rename predicate

/-- The templates of the parts of an `AND` or an `OR`. -/
def templatesIn (rename : Text → Text) (insideAnd : Bool) : List Condition → List Template
  | [] => []
  | part :: more => templateIn rename insideAnd part :: templatesIn rename insideAnd more

end

/-- The template of a condition. -/
def template (rename : Text → Text) (c : Condition) : Template := templateIn rename false c

/-- The call that keeps the rows for which the template holds. -/
def Template.whereCall (t : Template) : Call := call "where" (.quoted t.text :: t.params)

end Relation
end QueryCode
