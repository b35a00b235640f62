import QueryCode.Condition.Basic

/-!
# Equality of conditions

Two trees are compared part by part, so that what a text is read as can be checked by evaluation.
-/

namespace QueryCode
set_option autoImplicit false

namespace Condition

mutual

/-- Equality of two conditions. -/
def decideEq : (c d : Condition) → Decidable (c = d)
  | .and cs, .and ds =>
    match decideParts cs ds with
    | .isTrue same => .isTrue (congrArg Condition.and same)
    | .isFalse differ => .isFalse fun same => differ (Condition.and.inj same)
  | .or cs, .or ds =>
    match decideParts cs ds with
    | .isTrue same => .isTrue (congrArg Condition.or same)
    | .isFalse differ => .isFalse fun same => differ (Condition.or.inj same)
  | .not c, .not d =>
    match decideEq c d with
    | .isTrue same => .isTrue (congrArg Condition.not same)
    | .isFalse differ => .isFalse fun same => differ (Condition.not.inj same)
  | .leaf p, .leaf q =>
    match decEq p q with
    | .isTrue same => .isTrue (congrArg Condition.leaf same)
    | .isFalse differ => .isFalse fun same => differ (Condition.leaf.inj same)
  | .and _, .or _ | .and _, .not _ | .and _, .leaf _ | .or _, .and _ | .or _, .not _ | .or _, .leaf _
  | .not _, .and _ | .not _, .or _ | .not _, .leaf _ | .leaf _, .and _ | .leaf _, .or _ | .leaf _, .not _ =>
    .isFalse fun same => by cases same

/-- Equality of two lists of conditions. -/
def decideParts : (cs ds : List Condition) → Decidable (cs = ds)
  | [], [] => .isTrue rfl
  | [], _ :: _ | _ :: _, [] => .isFalse fun same => by cases same
  | c :: cs, d :: ds =>
    match decideEq c d, decideParts cs ds with
    | .isTrue same, .isTrue same' => .isTrue (same ▸ same' ▸ rfl)
    | .isFalse differ, _ => .isFalse fun same => differ (List.cons.inj same).1
    | _, .isFalse differ => .isFalse fun same => differ (List.cons.inj same).2

end

instance : DecidableEq Condition := decideEq

end Condition
end QueryCode
