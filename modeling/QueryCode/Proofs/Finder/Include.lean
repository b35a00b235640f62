import QueryCode.Finder.Joined
import QueryCode.Proofs.Condition.KeyEquation

/-!
# Included models on a key equation

A query looks for the key equation of a join among the conjuncts of its condition, an update or a deletion takes the whole
condition for it. Where the whole condition is a key equation, both find the same association exactly if the condition is
not misread. Then neither writes the condition; otherwise only the query does.
-/

namespace QueryCode
set_option autoImplicit false

namespace Statement

open Association Condition

variable {s : Statement} {join : Join} {e : EquationText}

theorem keyAssociation_of_keyless {condition : Text} (keyless : Keyless condition) :
    s.keyAssociation? join condition = none := by
  rw [Option.eq_none_iff_forall_ne_some]
  intro a found
  obtain ⟨e, written⟩ := exists_text_of_keyAssociation found
  exact keyless e written

theorem parse_on (written : e.text = Text.trim join.on) : Condition.parse join.on = Condition.parse e.text := by
  simp only [Condition.parse, written, Text.trim_trim]

/-- A key equation that is not misread is one leaf of the condition, with the association of the whole. -/
theorem exists_leaf_of_not_isMisread (written : e.text = Text.trim join.on) (read : e.isMisread = false) :
    ∃ p : Predicate, Condition.parse join.on = .ok (some (.leaf p)) ∧ s.keyAssociation? join p.text = s.classify? join := by
  obtain ⟨p, e', parsed, written', left, right⟩ := e.parse_of_not_isMisread read
  refine ⟨p, (parse_on written).trans parsed, ?_⟩
  have trimmed : e'.text = Text.trim p.text := by rw [← written', e'.isSolid_text.trim]
  rw [classify?, keyAssociation_of_text written, keyAssociation_of_text trimmed, left, right]

/-- The association of a condition that is a key equation is found among its conjuncts unless it is misread. -/
theorem association_of_text (written : e.text = Text.trim join.on) :
    s.association? join = .ok (if e.isMisread then none else s.classify? join) := by
  cases misread : e.isMisread with
  | true =>
    obtain ⟨c, parsed, lost⟩ := e.parse_of_isMisread misread
    rw [association?, parse_on written, parsed]
    rcases lost with or' | keyless
    · simp [or']
    · have missing : c.conjuncts.findSome? (fun part => s.keyAssociation? join part.text) = none :=
        List.findSome?_eq_none_iff.2 fun part mem => keyAssociation_of_keyless (keyless part mem)
      simp [missing]
  | false =>
    obtain ⟨p, parsed, same⟩ := exists_leaf_of_not_isMisread (s := s) written misread
    rw [association?, parsed]
    simp [hasOr, conjuncts, text, same]

end Statement

namespace Finder
namespace Joined

open Association

variable {s : Statement} {join : Join} {e : EquationText} {a : Association}

/-- The fields of an included model besides its condition. -/
def plainFields (s : Statement) (i : Nat) (join : Join) : List Code :=
  headFields join ++ joinAttributes s i join ++ [requiredField join] ++
    (if join.kind == .right then [field "right" "true"] else [])

theorem extraCondition_of_text (written : e.text = Text.trim join.on) (read : e.isMisread = false)
    (found : s.classify? join = some a) : extraCondition? s join = .ok none := by
  obtain ⟨p, parsed, same⟩ := Statement.exists_leaf_of_not_isMisread (s := s) written read
  have empty : (Condition.leaf p).conjuncts.filterMap (extra? s join) = [] := by
    simp [Condition.conjuncts, extra?, same, found]
  rw [extraCondition?, parsed]
  simp [bind, Except.bind, Condition.hasOr, empty]
  rfl

theorem fullInclude_of_text (written : e.text = Text.trim join.on) (found : s.classify? join = some a) (i : Nat) :
    fullInclude s i join = .ok (Code.object (plainFields s i join ++ if e.isMisread then [onField join] else [])) := by
  rw [fullInclude, Statement.association_of_text written]
  cases misread : e.isMisread with
  | true => simp [bind, Except.bind, plainFields, pure, Except.pure]
  | false =>
    simp [bind, Except.bind, found, extraCondition_of_text written misread found, plainFields, pure, Except.pure]

/-- **Included models on a key equation.** If the whole condition of a join is the key equation of an association, then

* the association is found among the conjuncts of the condition exactly if the equation is not misread;
* an update or a deletion never writes the condition;
* a query writes it exactly if the equation is misread, and writes no other condition;
* no equation is misread whose tables have names of name characters other than `NOT`, `AND` and `OR`. -/
theorem association_of_classify {s : Statement} {join : Join} {a : Association} (found : s.classify? join = some a) :
    (∃ e : EquationText, e.text = Text.trim join.on) ∧
      ∀ e : EquationText, e.text = Text.trim join.on →
        s.association? join = .ok (if e.isMisread then none else some a) ∧
        basicInclude s join = Code.object (headFields join ++ [requiredField join]) ∧
        (∀ i, fullInclude s i join =
          .ok (Code.object (plainFields s i join ++ if e.isMisread then [onField join] else []))) ∧
        (e.left.table.isPlain = true → e.right.table.isPlain = true → e.isMisread = false) := by
  refine ⟨Statement.exists_text_of_keyAssociation found, fun e written => ?_⟩
  refine ⟨?_, ?_, fun i => ?_, EquationText.not_isMisread⟩
  · rw [Statement.association_of_text written, found]
  · simp [basicInclude, found]
  · exact fullInclude_of_text written found i

/-- The name of the main table goes on with an accent after the letters of `NOT`. -/
theorem association_of_classify_accented :
    let j : Join := ⟨.plain, false, "JOIN".toList, "posts".toList, some "p".toList, "not\u0301.id = p.user_id".toList⟩
    let s : Statement := { kind := .select, main := some ⟨"users".toList, some "not\u0301".toList⟩, joins := [j] }
    s.classify? j = some (.hasMany j.table) ∧ s.association? j = .ok none := by
  intro j s
  have found : s.classify? j = some (.hasMany j.table) := by decide
  let accented : NameText := ⟨false, "not\u0301".toList, false, by decide⟩
  let posts : KeyText := ⟨⟨false, "p".toList, false, by decide⟩, ⟨false, "user_id".toList, false, by decide⟩⟩
  let e : EquationText :=
    ⟨⟨accented, ⟨false, "id".toList, false, by decide⟩⟩, " ".toList, " ".toList, posts, by decide, by decide⟩
  have misread : e.isMisread = true := by decide
  have read := ((association_of_classify found).2 e (by decide)).1
  rw [misread] at read
  exact ⟨found, read⟩

end Joined
end Finder
end QueryCode
