import QueryCode.Convert
import QueryCode.Proofs.Finder.Filter
import QueryCode.Proofs.Relation.Filter

/-!
# Updates and deletions keep their filter

The code for an update or a deletion has one place for the condition. It is left empty exactly when the statement
has no condition, whatever the condition looks like and whether or not tables are joined.
-/

namespace QueryCode
set_option autoImplicit false

namespace Relation

/-- The calls in front of the filter: those that name the alias and join tables. -/
def leadingCalls (s : Statement) : List Call :=
  if s.joins.isEmpty then [] else Joined.sourceCalls s ++ Joined.joinCalls s

/-- The last call of an update or a deletion. -/
def changeCall (s : Statement) : Call :=
  if s.kind = .update then call "update_all" (assignmentPairs s) else bareCall "destroy_all"

/-- The chain of an update or a deletion around its filter. -/
def changeChain (s : Statement) (filters : List Call) : Chain :=
  ⟨Naming.modelName s.table, leadingCalls s ++ filters ++ [changeCall s]⟩

end Relation

namespace Finder

/-- The options of an update or a deletion around its condition object. -/
def changeFields (s : Statement) (found : Code) : List Code :=
  field "where" found ::
    if s.joins.isEmpty then [] else [field "include" (Code.array (s.joins.map (Joined.basicInclude s)))]

/-- The call for an update or a deletion around its condition object. -/
def changeCode (s : Statement) (found : Code) : Code :=
  if s.kind = .update then modelCall s "update" [assignments s, Code.object (changeFields s found)]
  else modelCall s "destroy" [Code.object (changeFields s found)]

end Finder

/-- The ways in which a condition is written: as calls on a relation or as a condition object, each for statements
without and with joins. -/
inductive Dialect where
  | relation (s : Statement)
  | joinedRelation (reference : Text)
  | finder (s : Statement)
  | joinedFinder (s : Statement)

namespace Dialect

/-- The text of a plan. -/
def render : Dialect → Plan → Text
  | .relation s, plan => Code.rowText ((Relation.Single.filter s plan).map Relation.Call.code)
  | .joinedRelation reference, plan => Code.rowText ((Relation.Joined.filter reference plan).map Relation.Call.code)
  | .finder s, plan => (Finder.filter s false plan).text
  | .joinedFinder s, plan => (Finder.filter s true plan).text

/-- The text for a clause. -/
def renderText (d : Dialect) (w : Text) : Except Fault Text := do return d.render (← Plan.ofText w)

/-- The text where there is no condition: no call at all, or the empty object. -/
def emptyText : Dialect → Text
  | .relation _ | .joinedRelation _ => []
  | .finder _ | .joinedFinder _ => "\x7b\x7d"

theorem render_empty (d : Dialect) : d.render .empty = d.emptyText := by
  cases d <;> rfl

/-- A filter with a call has a text: that of a call starts with a point. -/
theorem rowText_calls_ne_nil {calls : List Relation.Call} (filled : calls ≠ []) :
    Code.rowText (calls.map Relation.Call.code) ≠ [] := by
  match calls, filled with
  | call :: more, _ =>
    rw [List.map_cons, Code.rowText, Relation.Call.code]
    split <;> simp [Code.text, Code.rowText]

theorem render_ne_empty (d : Dialect) {plan : Plan} (tested : plan.HasTest) : d.render plan ≠ d.emptyText := by
  cases d with
  | relation s => exact rowText_calls_ne_nil (Relation.Single.filter_ne_nil tested)
  | joinedRelation reference => exact rowText_calls_ne_nil (Relation.Joined.filter_ne_nil tested)
  | finder s => exact (Finder.isFilter_filter tested).text_ne_empty
  | joinedFinder s => exact (Finder.isFilter_filter tested).text_ne_empty

end Dialect

namespace Relation

/-- The calls for a plan, without or with joins. -/
def filters (s : Statement) (plan : Plan) : List Call :=
  if s.joins.isEmpty then Single.filter s plan else Joined.filter s.reference plan

theorem isFilter_filters {s : Statement} {plan : Plan} : ∀ call ∈ filters s plan, IsFilter call := by
  unfold filters
  split
  · exact Single.isFilter_filter plan
  · exact Joined.isFilter_filter plan

theorem filters_empty (s : Statement) : filters s .empty = [] := by
  unfold filters
  split <;> rfl

theorem filters_ne_nil {s : Statement} {plan : Plan} (tested : plan.HasTest) : filters s plan ≠ [] := by
  unfold filters
  split
  · exact Single.filter_ne_nil tested
  · exact Joined.filter_ne_nil tested

/-- The chain of an update or a deletion has the calls for its condition before the last one. -/
theorem write_change {s : Statement} {plan : Plan} (change : s.kind = .update ∨ s.kind = .delete)
    (planned : Plan.ofText s.condition = .ok plan) :
    s.write .activeRecord = .ok (changeChain s (filters s plan)).code := by
  have single : Single.conditionCalls s = .ok (Single.filter s plan) := by
    rw [Single.conditionCalls, planned]
    rfl
  have joined : Joined.conditionCalls s = .ok (Joined.filter s.reference plan) := by
    rw [Joined.conditionCalls, planned]
    rfl
  unfold Statement.write changeChain leadingCalls filters changeCall
  split
  · rcases change with kind | kind <;>
      simp only [Writer.write, kind, Target.singleWriter, Single.writer, Single.updateChain, Single.deleteChain,
        single]
    · rfl
    · rfl
  · rcases change with kind | kind <;>
      simp only [Writer.write, kind, Target.joinedWriter, Joined.writer, Joined.updateChain, Joined.deleteChain,
        joined]
    · rfl
    · rfl

end Relation

namespace Finder

/-- The call for an update or a deletion has the condition object among its options. -/
theorem write_change {s : Statement} {plan : Plan} (change : s.kind = .update ∨ s.kind = .delete)
    (planned : Plan.ofText s.condition = .ok plan) :
    s.write .sequelize = .ok (changeCode s (filter s (!s.joins.isEmpty) plan)) := by
  have found (wrapped : Bool) : condition s wrapped = .ok (filter s wrapped plan) := by
    rw [condition, planned]
    rfl
  unfold Statement.write changeCode changeFields
  split
  · rename_i alone
    rcases change with kind | kind <;>
      simp only [Writer.write, kind, Target.singleWriter, Single.writer, Single.update, Single.delete, found, alone]
    · rfl
    · rfl
  · rename_i joins
    rw [Bool.not_eq_true] at joins
    rcases change with kind | kind <;>
      simp only [Writer.write, kind, Target.joinedWriter, Joined.writer, Joined.update, Joined.delete,
        Joined.changeOptions, found, joins]
    · rfl
    · rfl

end Finder

/-- **An update or a deletion is filtered exactly when it has a condition.** Before the last call of its chain
stand the calls of its filter, each with something to test, and there are none only for a blank condition;
its condition object is the empty one only then. The same holds of each way to write a condition. -/
theorem change_filtered_iff {s : Statement} {found : Option Condition} (change : s.kind = .update ∨ s.kind = .delete)
    (read : Condition.parse s.condition = .ok found) :
    (∃ calls value,
      s.write .activeRecord = .ok (Relation.changeChain s calls).code ∧
      s.write .sequelize = .ok (Finder.changeCode s value) ∧
      (∀ call ∈ calls, Relation.IsFilter call) ∧
      (calls = [] ↔ Text.Blank s.condition) ∧
      (value.text = "\x7b\x7d".toList ↔ Text.Blank s.condition)) ∧
    ∀ d : Dialect, d.renderText s.condition = .ok d.emptyText ↔ Text.Blank s.condition := by
  obtain ⟨plan, planned, kept⟩ := Plan.ofText_hasTest read
  have rendered (d : Dialect) : d.renderText s.condition = .ok (d.render plan) := by
    rw [Dialect.renderText, planned]
    rfl
  refine ⟨⟨Relation.filters s plan, Finder.filter s (!s.joins.isEmpty) plan, Relation.write_change change planned,
    Finder.write_change change planned, Relation.isFilter_filters, ?_, ?_⟩, fun d => ?_⟩
  · obtain ⟨rfl, blank⟩ | ⟨tested, solid⟩ := kept
    · exact iff_of_true (Relation.filters_empty s) blank
    · exact iff_of_false (Relation.filters_ne_nil tested) solid
  · obtain ⟨rfl, blank⟩ | ⟨tested, solid⟩ := kept
    · exact iff_of_true rfl blank
    · exact iff_of_false (Finder.isFilter_filter tested).text_ne_empty solid
  · rw [rendered, Except.ok.injEq]
    obtain ⟨rfl, blank⟩ | ⟨tested, solid⟩ := kept
    · exact iff_of_true d.render_empty blank
    · exact iff_of_false (d.render_ne_empty tested) solid

/-- A deletion with a join whose condition has a parenthesis too many and ends in the middle. -/
theorem change_filtered_iff_unbalanced :
    let s : Statement :=
      { kind := .delete
        main := some ⟨"users".toList, none⟩
        joins := [⟨.inner, false, "INNER JOIN".toList, "posts".toList, none, "posts.user_id = users.id".toList⟩]
        condition := "age < 18) OR".toList }
    let tree : Condition := .and [
      .leaf (.comparison "age".toList .lt "18".toList), Condition.raw ") OR".toList]
    s.kind = .delete ∧ Condition.parse s.condition = .ok (some tree) ∧
      ∃ calls value,
        s.write .activeRecord = .ok (Relation.changeChain s calls).code ∧
        s.write .sequelize = .ok (Finder.changeCode s value) ∧
        calls ≠ [] ∧ value.text ≠ "\x7b\x7d".toList := by
  intro s tree
  have read : Condition.parse s.condition = .ok (some tree) := by decide +kernel
  have solid : ¬ Text.Blank s.condition := by decide +kernel
  obtain ⟨⟨calls, value, relation, finder, _, noCall, noTest⟩, _⟩ := change_filtered_iff (.inr rfl) read
  exact ⟨rfl, read, calls, value, relation, finder, mt noCall.1 solid, mt noTest.1 solid⟩

end QueryCode
