import QueryCode.Convert
import QueryCode.Proofs.Finder.Clean
import QueryCode.Proofs.Relation.Clean

/-!
# Generated code is well formed

Whatever a statement holds, its strings end where they should and its brackets match: the words of the code come
from fixed texts, plain names and names of tables, and all else is a string or a bracketed list.
-/

namespace QueryCode
set_option autoImplicit false

/-- A statement that avoids a ban is written as code that is clean of it. -/
theorem Statement.ensures_clean_write (target : Target) {ban : Text.Ban} {s : Statement} (avoids : s.Avoids ban) :
    Ensures (s.write target) (Code.Clean ban) := by
  have single : target.singleWriter.Makes s (Code.Clean ban) := by
    cases target
    · exact Relation.Single.clean_writer avoids
    · exact Finder.Single.clean_writer avoids
  have joined : target.joinedWriter.Makes s (Code.Clean ban) := by
    cases target
    · exact Relation.Joined.clean_writer avoids
    · exact Finder.Joined.clean_writer avoids
  unfold Statement.write
  split
  · exact single.write fun _ inert => Writer.clean_comment _ inert
  · exact joined.write fun _ inert => Writer.clean_comment _ inert

/-- **Generated code is well formed.** A scan of it ends outside every string, and the brackets outside strings are
nested and balanced. -/
theorem convert_wellFormed {target : Target} {sql code : Text} (converted : convert target sql = .ok code) :
    Scanner.WellFormed code := by
  have ensured : Ensures (convert target sql) Scanner.WellFormed := by
    -- the words of the code are inert whatever its strings hold
    refine (Statement.ensures_parse_avoids (Text.avoids_nothing sql)).bind fun s avoids => ?_
    exact (Statement.ensures_clean_write target avoids).bind fun code clean => ensures_pure clean.inert.wellFormed
  exact ensured code converted

/-- A string that holds a backslash, a quote and brackets that do not match. -/
theorem convert_wellFormed_quotes :
    let sql := "SELECT * FROM users WHERE note = 'a\\\"b(' OR t IN ('\x7d', 2)".toList
    let code := "User.where(\"note = 'a\\\\\\\"b(' OR t IN (?)\", [\"\x7d\", 2])".toList
    convert .activeRecord sql = .ok code ∧ Scanner.WellFormed code := by
  intro sql code
  have converted : convert .activeRecord sql = .ok code := by decide +kernel
  exact ⟨converted, convert_wellFormed converted⟩

end QueryCode
