import QueryCode.Proofs.Condition.Tree
import QueryCode.Relation.Template

/-!
# Question marks and their values

The template of a condition is printed by a recursion of its own, beside the printer of conditions. Here both are taken
back to one thing: a predicate is a frame, fixed text with places for values. With the values in their places the frames
of a tree give the text of the condition, with question marks they give the text of its template, and the codes of the
values in the order of the predicates are what follows the text. So the `AND`s, `OR`s, `NOT`s and parentheses are those
of the condition, and each question mark stands where the value with its number stood.
-/

namespace QueryCode
set_option autoImplicit false

namespace Relation

/-- A value in a predicate: how it stands in a statement, and its code. -/
structure Operand where
  text : Text
  code : Code

/-- A predicate around its values: the text before the first of them, and each with the text after it. -/
structure Frame where
  start : Text
  places : List (Operand × Text)

namespace Frame

variable (frame : Frame)

/-- The text with something put in the place of each value. -/
def fill (put : Operand → Text) : Text := frame.start ++ frame.places.flatMap fun place => put place.1 ++ place.2

/-- The text with a question mark for each value. -/
def marked : Text := frame.fill fun _ => ['?']

/-- The text with the values as they stand in a statement. -/
def written : Text := frame.fill Operand.text

/-- The codes of the values, in order. -/
def values : List Code := frame.places.map fun place => place.1.code

/-- As many question marks are put in as there are values. -/
theorem count_marked : frame.marked.count '?' = (frame.fill fun _ => []).count '?' + frame.values.length := by
  have places (more : List (Operand × Text)) :
      (more.flatMap fun place => ['?'] ++ place.2).count '?' =
        (more.flatMap fun place => [] ++ place.2).count '?' + more.length := by
    induction more with
    | nil => rfl
    | cons place more ih =>
      simp only [List.flatMap_cons, List.count_append, List.nil_append, List.count_singleton_self] at ih ⊢
      rw [ih, List.length_cons]
      omega
  rw [marked, fill, fill, values, List.count_append, List.count_append, places, List.length_map, Nat.add_assoc]

end Frame

/-- The predicate with its field renamed. Membership in the result of a query keeps its field, as raw text does. -/
def renamed (rename : Text → Text) : Predicate → Predicate
  | .comparison field op raw => .comparison (rename field) op raw
  | .like field negated pattern anyCase => .like (rename field) negated pattern anyCase
  | .inList field negated values => .inList (rename field) negated values
  | .inQuery field negated query => .inQuery field negated query
  | .between field negated low high => .between (rename field) negated low high
  | .isNull field negated => .isNull (rename field) negated
  | .raw text => .raw text

/-- A token as a value. -/
def token (raw : Text) : Operand := ⟨raw, value raw⟩

/-- The frame of a predicate. One without values is all text: its own, with the field renamed. -/
def frame (rename : Text → Text) (p : Predicate) : Frame :=
  match p with
  | .comparison field op raw =>
    if isExpression raw then ⟨(renamed rename p).text, []⟩
    else ⟨rename field ++ " " ++ op.text ++ " ", [(token raw, [])]⟩
  | .like field negated pattern anyCase =>
    ⟨rename field ++ " " ++ Predicate.notWord negated ++ Predicate.likeWord anyCase ++ " ",
      [(⟨"'" ++ Predicate.doubleQuotes pattern ++ "'", .quoted pattern⟩, [])]⟩
  | .inList field negated values =>
    ⟨rename field ++ " " ++ Predicate.notWord negated ++ "IN (",
      [(⟨Text.join ", " values, Code.array (values.map value)⟩, ")")]⟩
  | .between field negated low high =>
    ⟨rename field ++ " " ++ Predicate.notWord negated ++ "BETWEEN ", [(token low, " AND "), (token high, [])]⟩
  | .isNull .. | .inQuery .. | .raw _ => ⟨(renamed rename p).text, []⟩

section Leaves

variable (rename : Text → Text) (p : Predicate)

/-- The template of a predicate is its frame with question marks, and the values of the frame. -/
theorem predicateTemplate_eq_frame :
    predicateTemplate rename p = ⟨(frame rename p).marked, (frame rename p).values⟩ := by
  cases p with
  | comparison field op raw =>
    rw [predicateTemplate, frame]
    split <;> simp [Frame.marked, Frame.fill, Frame.values, renamed, Predicate.text, token]
  | _ => simp [predicateTemplate, frame, Frame.marked, Frame.fill, Frame.values, renamed, Predicate.text, token]

/-- With its values, the frame is the predicate in a statement. -/
theorem written_frame : (frame rename p).written = (renamed rename p).text := by
  cases p with
  | comparison field op raw =>
    rw [frame]
    split <;> simp [Frame.written, Frame.fill, renamed, Predicate.text, token]
  | _ => simp [frame, Frame.written, Frame.fill, renamed, Predicate.text, token]

end Leaves

/-! ## Templates of trees -/

section Trees

variable (rename : Text → Text)

theorem templatesIn_eq_map (insideAnd : Bool) (parts : List Condition) :
    templatesIn rename insideAnd parts = parts.map (templateIn rename insideAnd) := by
  induction parts with
  | nil => rfl
  | cons part more ih => rw [templatesIn, ih, List.map_cons]

/-- Inside an `AND`, the template is the same but for the parentheses of an `OR`. -/
theorem templateIn_eq (insideAnd : Bool) (c : Condition) :
    templateIn rename insideAnd c =
      ⟨Condition.placed insideAnd c (template rename c).text, (template rename c).params⟩ := by
  cases c <;> simp [template, templateIn, Condition.placed, Condition.isOr, Condition.bracket]

/-- The parts of an `AND` or an `OR` are placed in the template as in the condition. -/
theorem join_templatesIn (underAnd : Bool) (parts : List Condition) :
    Template.join (Condition.joiner underAnd) (templatesIn rename underAnd parts) =
      ⟨Text.join (Condition.joiner underAnd)
          (parts.map fun part => Condition.placed underAnd part (template rename part).text),
        parts.flatMap fun part => (template rename part).params⟩ := by
  rw [templatesIn_eq_map, Template.join, List.map_map, List.flatMap_map]
  simp only [Function.comp_def, templateIn_eq]

theorem template_and (parts : List Condition) :
    template rename (.and parts) = .join (Condition.joiner true) (templatesIn rename true parts) := by
  rw [template, templateIn]
  rfl

theorem template_or (parts : List Condition) :
    template rename (.or parts) = .join (Condition.joiner false) (templatesIn rename false parts) := by
  rw [template, templateIn]
  rfl

/-- The text of a template is the text of the condition whose predicates are the templates of its predicates. -/
theorem text_template (c : Condition) :
    (template rename c).text = (c.mapLeaves fun p => .raw (predicateTemplate rename p).text).text := by
  have parts {underAnd : Bool} {parts : List Condition} (ih : ∀ part ∈ parts, (template rename part).text =
      (part.mapLeaves fun p => .raw (predicateTemplate rename p).text).text) :
      (Template.join (Condition.joiner underAnd) (templatesIn rename underAnd parts)).text =
        Text.join (Condition.joiner underAnd) (parts.map fun part =>
          Condition.placed underAnd part (part.mapLeaves fun p => .raw (predicateTemplate rename p).text).text) := by
    rw [join_templatesIn]
    dsimp only
    congr 1
    apply List.map_congr_left
    intro part mem
    rw [ih part mem]
  induction c using Condition.byParts with
  | and _ ih => rw [template_and, parts ih, Condition.text_mapLeaves_and]
  | or _ ih => rw [template_or, parts ih, Condition.text_mapLeaves_or]
  | not part ih => rw [template, templateIn, Condition.text_mapLeaves_not, ← ih, template]
  | leaf p => rw [template, templateIn, Condition.text_mapLeaves_leaf, Predicate.text]

/-- The values of a template are those of its predicates, from left to right. -/
theorem params_template (c : Condition) :
    (template rename c).params = c.leaves.flatMap fun p => (predicateTemplate rename p).params := by
  have parts {parts : List Condition} (ih : ∀ part ∈ parts, (template rename part).params =
      part.leaves.flatMap fun p => (predicateTemplate rename p).params) (underAnd : Bool) :
      (Template.join (Condition.joiner underAnd) (templatesIn rename underAnd parts)).params =
        (parts.flatMap Condition.leaves).flatMap fun p => (predicateTemplate rename p).params := by
    rw [join_templatesIn, List.flatMap_assoc]
    exact List.flatMap_congr ih
  induction c using Condition.byParts with
  | and _ ih => rw [template_and, parts ih, Condition.leaves_and]
  | or _ ih => rw [template_or, parts ih, Condition.leaves_or]
  | not part ih => rw [template, templateIn, ← template, ih, Condition.leaves]
  | leaf p => rw [template, templateIn, Condition.leaves, List.flatMap_singleton]

/-- **A template keeps the structure of its condition, and its question marks stand for its values in order.** For every
way to rename the fields, its text is that of the condition with the frame of each predicate in the predicate's place
and question marks in the frames. The same frames filled with the values give the condition with its fields renamed, the
codes of these values are the values of the template, and no frame has more or fewer question marks than values. -/
theorem template_aligned (c : Condition) :
    (template rename c).text = (c.mapLeaves fun p => .raw (frame rename p).marked).text ∧
      (c.mapLeaves (renamed rename)).text = (c.mapLeaves fun p => .raw (frame rename p).written).text ∧
      (template rename c).params = c.leaves.flatMap (fun p => (frame rename p).values) ∧
      ∀ p ∈ c.leaves, (frame rename p).marked.count '?' =
        ((frame rename p).fill fun _ => []).count '?' + (frame rename p).values.length := by
  refine ⟨?_, ?_, ?_, fun p _ => Frame.count_marked _⟩
  · rw [text_template]
    simp only [predicateTemplate_eq_frame]
  · refine Condition.text_mapLeaves_congr (fun p => ?_) c
    rw [Predicate.text, written_frame]
  · rw [params_template]
    simp only [predicateTemplate_eq_frame]

end Trees

/-- A disjunction under a conjunction, and a range whose two values follow the pattern that is written before it. The
question mark that belongs to the pattern is in the value and not in the text. -/
theorem template_aligned_range :
    let c : Condition := .and [
      .or [.leaf (.like "name".toList true "it's?".toList false), .leaf (.comparison "a".toList .eq "b.c".toList)],
      .not (.leaf (.between "n".toList false "1".toList "2".toList))]
    let p : Predicate := .between "n".toList false "1".toList "2".toList
    let rename (field : Text) : Text := "u.".toList ++ field
    p ∈ c.leaves ∧
      (template rename c).text = "(u.name NOT LIKE ? OR u.a = b.c) AND NOT u.n BETWEEN ? AND ?".toList ∧
      (template rename c).params.map Code.text = ["\"it's?\"".toList, "1".toList, "2".toList] ∧
      (frame rename p).marked.count '?' = 2 := by
  intro c p rename
  have mem : p ∈ c.leaves := by decide
  obtain ⟨_, _, _, marks⟩ := template_aligned rename c
  exact ⟨mem, by decide +kernel, by decide +kernel, (marks p mem).trans (by decide +kernel)⟩

end Relation
end QueryCode
