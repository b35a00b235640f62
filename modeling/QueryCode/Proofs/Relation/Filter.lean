import QueryCode.Proofs.Condition.Planning
import QueryCode.Relation.Filter

/-!
# The calls of a filter

A filter is a chain of `where` and `where.not` calls, each with something to test. There are none only where
there is nothing to test: each of the lists of a plan makes at least as many calls as it has fields.
-/

namespace QueryCode
set_option autoImplicit false

namespace Relation

/-- A call that keeps or drops rows by a test. -/
inductive IsFilter : Call → Prop where
  | test (negated : Bool) (item : Code) (items : List Code) : IsFilter (call (whereMethod negated) (item :: items))

theorem Template.isFilter_whereCall (t : Template) : IsFilter t.whereCall := .test false _ _

/-! ## Hashes -/

theorem place_ne_nil (field : Text) (entry : Code) (hashes : List Hash) : place field entry hashes ≠ [] := by
  unfold place
  split
  · simp
  · split <;> simp

/-- What holds of every hash goes on to hold if adding the pair to a hash, or to an empty one, keeps it. -/
theorem forall_place {holds : Hash → Prop} {field : Text} {entry : Code} {hashes : List Hash}
    (grows : ∀ hash, hash = [] ∨ holds hash → holds (hash ++ [(field, entry)])) (all : ∀ hash ∈ hashes, holds hash) :
    ∀ hash ∈ place field entry hashes, holds hash := by
  induction hashes with
  | nil => exact List.forall_mem_singleton.2 (grows [] (.inl rfl))
  | cons first more ih =>
    rw [List.forall_mem_cons] at all
    rw [place]
    split
    · exact List.forall_mem_cons.2 ⟨all.1, ih all.2⟩
    · exact List.forall_mem_cons.2 ⟨grows first (.inr all.1), all.2⟩

namespace Single

variable {s : Statement}

theorem isFilter_simpleCall (test : SimpleTest) : IsFilter (simpleCall s test) := by
  unfold simpleCall
  dsimp only
  split
  · exact .test false _ _
  · exact .test true _ _
  · exact .test false _ _

/-- The pair of an equality in a hash. -/
def entry (s : Statement) (test : SimpleTest) : Text × Code :=
  (unqualify s test.field, pair (unqualify s test.field) (test.value.code .activeRecord))

/-- What holds of every hash as the equalities are placed one after the other. -/
theorem forall_hashes (holds : Hash → Prop) (tests : List SimpleTest)
    (grows : ∀ test ∈ tests, ∀ hash, hash = [] ∨ holds hash → holds (hash ++ [entry s test])) :
    ∀ hash ∈ hashes s tests, holds hash := by
  have chosen : ∀ test ∈ tests.filter (·.op == .eq), ∀ hash, hash = [] ∨ holds hash → holds (hash ++ [entry s test]) :=
    fun test mem => grows test (List.mem_filter.1 mem).1
  unfold hashes
  generalize tests.filter (·.op == .eq) = tests at chosen
  have start : ∀ hash ∈ ([] : List Hash), holds hash := by simp
  generalize ([] : List Hash) = found at start
  induction tests generalizing found with
  | nil => exact start
  | cons test tests ih =>
    rw [List.forall_mem_cons] at chosen
    exact ih chosen.2 _ (forall_place chosen.1 start)

theorem hashes_ne_nil {tests : List SimpleTest} (filled : tests.filter (·.op == .eq) ≠ []) : hashes s tests ≠ [] := by
  unfold hashes
  -- the last equality is placed somewhere
  rw [← List.dropLast_append_getLast filled, List.foldl_append]
  exact place_ne_nil _ _ _

theorem isFilter_consolidated {tests : List SimpleTest} : ∀ call ∈ consolidated s tests, IsFilter call := by
  intro call mem
  simp only [consolidated, List.mem_append, List.mem_map] at mem
  rcases mem with (⟨hash, placed, rfl⟩ | ⟨test, _, rfl⟩) | range
  · have filled := forall_hashes (· ≠ []) tests (fun test _ hash _ => by simp) hash placed
    match hash, filled with
    | first :: more, _ => exact .test false _ _
  · exact isFilter_simpleCall test
  · unfold rangeCalls at range
    split at range
    · cases range
    · obtain rfl := List.mem_singleton.1 range
      exact Template.isFilter_whereCall _

/-- Every comparison is among the equalities, the inequalities or the others. -/
theorem consolidated_ne_nil {tests : List SimpleTest} (filled : tests ≠ []) : consolidated s tests ≠ [] := by
  obtain ⟨test, mem⟩ := List.exists_mem_of_ne_nil tests filled
  have kept {p : SimpleTest → Bool} (holds : p test = true) : tests.filter p ≠ [] :=
    List.ne_nil_of_mem (List.mem_filter.2 ⟨mem, holds⟩)
  simp only [consolidated, ne_eq, List.append_eq_nil_iff, List.map_eq_nil_iff, not_and]
  rintro ⟨noHash, noNe⟩
  by_cases eq : test.op = .eq
  · exact absurd noHash (hashes_ne_nil (kept (by simp [eq])))
  by_cases ne : test.op = .ne
  · exact absurd noNe (kept (by simp [ne]))
  · unfold rangeCalls
    split
    · rename_i empty
      exact absurd empty (kept (by simp [eq, ne]))
    · simp

/-- Every call of a filter tests something. -/
theorem isFilter_filter (plan : Plan) : ∀ call ∈ filter s plan, IsFilter call := by
  intro call mem
  cases plan with
  | empty => cases mem
  | literal | disjunction | raw =>
    obtain rfl := List.mem_singleton.1 mem
    exact Template.isFilter_whereCall _
  | consolidated tests => exact isFilter_consolidated call mem
  | decomposed tests =>
    simp only [filter, List.mem_append, List.mem_map] at mem
    rcases mem with (((⟨_, _, rfl⟩ | ⟨_, _, rfl⟩) | ⟨_, _, rfl⟩) | ⟨_, _, rfl⟩) | ⟨test, _, rfl⟩
    · exact .test _ _ _
    · exact .test _ _ _
    · exact .test _ _ _
    · exact .test _ _ _
    · exact isFilter_simpleCall test

/-- Where there is something to test, there is a call. -/
theorem filter_ne_nil {plan : Plan} (tested : plan.HasTest) : filter s plan ≠ [] := by
  match plan with
  | .empty => cases tested
  | .literal _ | .disjunction _ | .raw _ => simp [filter]
  | .consolidated tests => exact consolidated_ne_nil tested
  | .decomposed tests =>
    have count : (filter s (.decomposed tests)).length = tests.size := by
      simp only [filter, List.length_append, List.length_map, Tests.size]
    intro empty
    exact tested (by rw [← count, empty, List.length_nil])

end Single

namespace Joined

variable {reference : Text}

theorem isFilter_simpleCall (test : SimpleTest) : IsFilter (simpleCall reference test) := by
  unfold simpleCall
  dsimp only
  split
  · exact .test true _ _
  · exact .test false _ _

/-- Every call of a filter tests something. -/
theorem isFilter_filter (plan : Plan) : ∀ call ∈ filter reference plan, IsFilter call := by
  intro call mem
  cases plan with
  | empty => cases mem
  | literal | disjunction | raw | consolidated =>
    obtain rfl := List.mem_singleton.1 mem
    exact Template.isFilter_whereCall _
  | decomposed tests =>
    simp only [filter, List.mem_append, List.mem_map] at mem
    rcases mem with (((⟨_, _, rfl⟩ | ⟨_, _, rfl⟩) | ⟨_, _, rfl⟩) | ⟨_, _, rfl⟩) | ⟨test, _, rfl⟩
    · exact .test _ _ _
    · exact .test _ _ _
    · exact .test _ _ _
    · exact .test _ _ _
    · exact isFilter_simpleCall test

/-- Where there is something to test, there is a call. -/
theorem filter_ne_nil {plan : Plan} (tested : plan.HasTest) : filter reference plan ≠ [] := by
  match plan with
  | .empty => cases tested
  | .literal _ | .disjunction _ | .raw _ | .consolidated _ => simp [filter]
  | .decomposed tests =>
    have count : (filter reference (.decomposed tests)).length = tests.size := by
      simp only [filter, List.length_append, List.length_map, Tests.size]
    intro empty
    exact tested (by rw [← count, empty, List.length_nil])

end Joined
end Relation
end QueryCode
