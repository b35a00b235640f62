import QueryCode.Proofs.Code.Clean
import QueryCode.Proofs.Ensures
import QueryCode.Writer

/-!
# What writers make

What holds of the code for each kind of statement holds of all that a writer makes of a statement, as long as it holds
of the comments that stand for statements of unknown kind. Comments are clean in every target.
-/

namespace QueryCode
set_option autoImplicit false

namespace Writer

/-- The code for each kind of statement is as asked, if there is any. -/
structure Makes (w : Writer) (s : Statement) (holds : Code → Prop) : Prop where
  select : Ensures (w.select s) holds
  insert : Ensures (w.insert s) holds
  update : Ensures (w.update s) holds
  delete : Ensures (w.delete s) holds

variable {w : Writer} {s : Statement} {holds : Code → Prop}

theorem Makes.write (makes : w.Makes s holds) (comments : ∀ t : Text, t.Inert → holds (w.comment t)) :
    Ensures (w.write s) holds := by
  unfold Writer.write
  split
  · exact makes.select
  · exact makes.insert
  · exact makes.update
  · exact makes.delete
  · refine ensures_ok (comments _ ?_)
    split <;> decide

theorem clean_comment {ban : Text.Ban} (w : Writer) {t : Text} (inert : t.Inert) : (w.comment t).Clean ban := by
  have mark : (Target.commentMark w.target).Inert := by cases w.target <;> decide
  exact Code.clean_word.2 (Text.inert_append.2 ⟨Text.inert_append.2 ⟨mark, by decide⟩, inert⟩)

end Writer
end QueryCode
