import QueryCode.Finder.Filter
import QueryCode.Proofs.Condition.Planning

/-!
# Condition objects with something to test

Whatever the plan, its condition object has a property or is a literal, and its text is not that of the empty
object. Tests of one field may share a property, but no test is left without one.
-/

namespace QueryCode
set_option autoImplicit false

namespace Finder

/-- A condition object with a property, or text that is kept as it stands. -/
inductive IsFilter : Code → Prop where
  | object (item : Code) (items : List Code) : IsFilter (Code.object (item :: items))
  | literal (t : Text) : IsFilter (literal t)

theorem IsFilter.of_ne_nil {items : List Code} (filled : items ≠ []) : IsFilter (Code.object items) := by
  match items, filled with
  | item :: items, _ => exact .object item items

/-- The empty object has a text of its own. -/
theorem IsFilter.text_ne_empty {code : Code} (filled : IsFilter code) : code.text ≠ (Code.object []).text := by
  cases filled with
  | object item items =>
    rw [Code.object, Code.object, Code.text, Code.text]
    intro same
    -- a space comes after the opening brace of the one, the closing brace of the other
    have second := (List.cons.inj same).2
    simp at second
  | literal t =>
    intro same
    rw [Finder.literal, Code.call, Code.text, Code.rowText, Code.text] at same
    simp [Code.object, Code.text, Bracket.left] at same

/-! ## Properties -/

theorem addTest_ne_nil (test : Test) (found : List Property) : addTest test found ≠ [] := by
  unfold addTest
  split
  · simp
  · split <;> simp

theorem properties_ne_nil {tests : List Test} (filled : tests ≠ []) : properties tests ≠ [] := by
  match tests, filled with
  | first :: more, _ =>
    rw [properties, List.foldl_cons]
    -- the first test makes a property, and none goes away
    have kept : ∀ (more : List Test) (found : List Property), found ≠ [] →
        more.foldl (fun found test => addTest test found) found ≠ [] := by
      intro more
      induction more with
      | nil => exact fun _ filled => filled
      | cons test more ih => exact fun found _ => ih _ (addTest_ne_nil test found)
    exact kept more _ (addTest_ne_nil first [])

/-- A property in which an operator is repeated is written as at least one object. -/
theorem Property.apart_ne_nil {p : Property} (again : p.repeats = true) : p.apart ≠ [] := by
  rw [Property.apart, ne_eq, List.map_eq_nil_iff]
  intro empty
  simp [Property.repeats, empty] at again

/-- Tests make an object with a property. -/
theorem isFilter_assemble {tests : List Test} (filled : tests ≠ []) : IsFilter (assemble tests) := by
  unfold assemble
  dsimp only
  split
  · rename_i empty
    have single : ∀ p ∈ properties tests, p.repeats = false := by
      intro p mem
      by_contra again
      rw [Bool.not_eq_false] at again
      have whole := List.flatMap_eq_nil_iff.1 empty p (List.mem_filter.2 ⟨mem, again⟩)
      exact Property.apart_ne_nil again whole
    have all : (properties tests).filter (fun p => !p.repeats) = properties tests :=
      List.filter_eq_self.2 fun p mem => by rw [single p mem]; rfl
    rw [all]
    exact .of_ne_nil (by simpa using properties_ne_nil filled)
  · exact .of_ne_nil (by simp)

theorem isFilter_leaf (s : Statement) (p : Predicate) : IsFilter (leaf s p) := by
  cases p with
  | inQuery => exact .literal _
  | raw => exact .literal _
  | _ =>
    rw [leaf]
    exact isFilter_assemble (List.cons_ne_nil _ _)

theorem isFilter_tree (s : Statement) (c : Condition) : IsFilter (tree s c) := by
  cases c with
  | leaf p =>
    rw [tree]
    exact isFilter_leaf s p
  | _ =>
    rw [tree]
    exact .object _ _

/-- Where there is something to test, the condition object tests it. -/
theorem isFilter_filter {s : Statement} {wrapped : Bool} {plan : Plan} (tested : plan.HasTest) :
    IsFilter (filter s wrapped plan) := by
  match plan with
  | .empty => cases tested
  | .literal t =>
    rw [filter]
    split
    · exact .object _ _
    · exact .literal t
  | .disjunction c => exact isFilter_tree s c
  | .raw c => exact isFilter_tree s c
  | .consolidated tests => exact isFilter_assemble (mt List.map_eq_nil_iff.1 tested)
  | .decomposed tests =>
    rw [filter]
    apply isFilter_assemble
    intro empty
    have count := congrArg List.length empty
    simp only [List.length_append, List.length_map, List.length_nil] at count
    exact tested count

end Finder
end QueryCode
