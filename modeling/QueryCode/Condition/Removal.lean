import QueryCode.Text.Basic
import QueryCode.Text.Fold

/-!
# Removing a condition

A condition is taken out of a clause together with one connective on either side, whatever the letter case.
-/

namespace QueryCode
set_option autoImplicit false

namespace Condition

/-- The text after a leading `head`, whatever the letter case. -/
def afterFolded? (head t : Text) : Option Text :=
  if Text.sameFold head (t.take head.length) then some (t.drop head.length) else none

/-- The text without its leading white space, then with ever more of it back. -/
def blankTails (t : Text) : List Text :=
  let n := (t.takeWhile Text.isBlank).length
  (List.range (n + 1)).reverse.map t.drop

/-- The text after a leading `AND`, after a leading `OR`, and as it stands. -/
def connectiveTails (t : Text) : List Text :=
  [afterFolded? "and" t, afterFolded? "or" t, some t].filterMap id

/-- The text without a leading connective and the white space around it. -/
def dropConnective (t : Text) : Text :=
  let t := Text.trimStart t
  Text.trimStart (((afterFolded? "and" t).or (afterFolded? "or" t)).getD t)

/-- The text after `clause` and the connectives around it, if they start the text. -/
def afterClause? (clause t : Text) : Option Text :=
  (((blankTails t).flatMap connectiveTails).flatMap blankTails).findSome? fun t =>
    (afterFolded? clause t).map dropConnective

/-- The text with the first occurrence of `clause` and its connectives replaced by a space. -/
def removeClause (clause : Text) (t : Text) : Text :=
  if clause.isEmpty then t else go t
where
  /-- Tries every place from the left. -/
  go : Text → Text
    | [] =>
      match afterClause? clause [] with
      | some rest => ' ' :: rest
      | none => []
    | c :: rest =>
      match afterClause? clause (c :: rest) with
      | some rest => ' ' :: rest
      | none => c :: go rest

end Condition
end QueryCode
