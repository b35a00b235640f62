import Mathlib.Data.List.Forall2
import QueryCode.Condition.Clause
import QueryCode.Proofs.Condition.Equality
import QueryCode.Proofs.Condition.Sound

/-!
# Planning keeps the condition

A plan is a rearrangement of the condition that a text stands for. Comparisons are kept one for one, mixed
predicates are sorted into one list for each kind and in the order of the condition, and where neither is
possible the whole tree or the whole text is carried along.
-/

namespace QueryCode
set_option autoImplicit false

namespace Predicate

/-- The predicate as a typed comparison, if it is one. -/
def simpleTest? : Predicate → Option SimpleTest
  | .comparison field op value => some ⟨field, op, .ofToken value⟩
  | _ => none

/-- The predicate as a pattern match, if it is one. -/
def likeTest? : Predicate → Option LikeTest
  | .like field negated pattern anyCase => some ⟨field, negated, pattern, anyCase⟩
  | _ => none

/-- The predicate as typed membership in a list, if it is one. -/
def inTest? : Predicate → Option InTest
  | .inList field negated values => some ⟨field, negated, values.map .ofToken⟩
  | _ => none

/-- The predicate as typed membership in a range, if it is one. -/
def betweenTest? : Predicate → Option BetweenTest
  | .between field negated low high => some ⟨field, negated, .ofToken low, .ofToken high⟩
  | _ => none

/-- The predicate as a test for a missing value, if it is one. -/
def nullTest? : Predicate → Option NullTest
  | .isNull field negated => some ⟨field, negated⟩
  | _ => none

end Predicate

namespace Tests

/-- The tests are the predicates sorted by kind, with nothing left over. -/
structure Sorts (tests : Tests) (ps : List Predicate) : Prop where
  like : tests.like = ps.filterMap Predicate.likeTest?
  inList : tests.inList = ps.filterMap Predicate.inTest?
  between : tests.between = ps.filterMap Predicate.betweenTest?
  null : tests.null = ps.filterMap Predicate.nullTest?
  simple : tests.simple = ps.filterMap Predicate.simpleTest?
  unparsed : tests.unparsed = []

/-- The number of tests of all kinds. -/
def size (tests : Tests) : Nat :=
  tests.like.length + tests.inList.length + tests.between.length + tests.null.length + tests.simple.length

theorem append_def (a b : Tests) : a ++ b = a.append b := rfl

@[simp] theorem append_empty (a : Tests) : a ++ ({} : Tests) = a := by simp [append_def, append]

@[simp] theorem empty_append (a : Tests) : ({} : Tests) ++ a = a := by simp [append_def, append]

theorem append_assoc (a b c : Tests) : a ++ b ++ c = a ++ (b ++ c) := by simp [append_def, append]

/-- What is sorted apart is sorted together. -/
theorem Sorts.append {a b : Tests} {ps qs : List Predicate} (left : a.Sorts ps) (right : b.Sorts qs) :
    (a ++ b).Sorts (ps ++ qs) where
  like := by rw [List.filterMap_append, ← left.like, ← right.like]; rfl
  inList := by rw [List.filterMap_append, ← left.inList, ← right.inList]; rfl
  between := by rw [List.filterMap_append, ← left.between, ← right.between]; rfl
  null := by rw [List.filterMap_append, ← left.null, ← right.null]; rfl
  simple := by rw [List.filterMap_append, ← left.simple, ← right.simple]; rfl
  unparsed := List.append_eq_nil_iff.2 ⟨left.unparsed, right.unparsed⟩

theorem size_append (a b : Tests) : (a ++ b).size = a.size + b.size := by
  simp only [append_def, append, size, List.length_append]
  omega

/-- A predicate of a kind makes one test of that kind. -/
theorem sorts_ofPredicate {p : Predicate} (plain : Condition.isPlain p = true) :
    (ofPredicate p).Sorts [p] ∧ (ofPredicate p).size = 1 := by
  cases p with
  | raw => cases plain
  | inQuery => cases plain
  | _ => exact ⟨⟨rfl, rfl, rfl, rfl, rfl, rfl⟩, rfl⟩

theorem ofConditions_append (cs ds : List Condition) :
    ofConditions (cs ++ ds) = ofConditions cs ++ ofConditions ds := by
  induction cs with
  | nil => rw [List.nil_append, ofConditions, empty_append]
  | cons c cs ih => rw [List.cons_append, ofConditions, ofConditions, ih, append_assoc]

mutual

/-- Opening up nested conjunctions does not change what is sorted. -/
theorem ofConditions_conjuncts : (c : Condition) → ofConditions c.conjuncts = ofCondition c
  | .and parts => by rw [Condition.conjuncts, ofCondition, ofConditions_allConjuncts parts]
  | .or parts => by rw [Condition.conjuncts, ofConditions, ofConditions, append_empty]
  | .not part => by rw [Condition.conjuncts, ofConditions, ofConditions, append_empty]
  | .leaf predicate => by rw [Condition.conjuncts, ofConditions, ofConditions, append_empty]

theorem ofConditions_allConjuncts : (cs : List Condition) → ofConditions (Condition.allConjuncts cs) = ofConditions cs
  | [] => by rw [Condition.allConjuncts]
  | part :: more => by
    rw [Condition.allConjuncts, ofConditions_append, ofConditions_conjuncts part, ofConditions_allConjuncts more,
      ofConditions]

end

/-- A conjunct that amounts to a predicate is sorted as that predicate. -/
theorem ofCondition_of_predicate {c : Condition} {p : Predicate} (found : c.predicate? = some p) :
    ofCondition c = ofPredicate p := by
  match c with
  | .and parts => cases found
  | .or parts => cases found
  | .not part => rw [ofCondition, found]
  | .leaf q =>
    cases found
    rw [ofCondition]

/-- Conjuncts that amount to plain predicates are sorted without a remainder, and each is counted once. -/
theorem sorts_ofConditions {cs : List Condition} {ps : List Predicate}
    (found : cs.mapM Condition.predicate? = some ps) (plain : ps.all Condition.isPlain = true) :
    (ofConditions cs).Sorts ps ∧ (ofConditions cs).size = cs.length := by
  induction cs generalizing ps with
  | nil =>
    cases found
    rw [ofConditions]
    exact ⟨⟨rfl, rfl, rfl, rfl, rfl, rfl⟩, rfl⟩
  | cons c cs ih =>
    obtain ⟨p, first, qs, rest, rfl⟩ : ∃ p, c.predicate? = some p ∧
        ∃ qs, cs.mapM Condition.predicate? = some qs ∧ p :: qs = ps := by
      simpa [List.mapM_cons, Option.bind_eq_some_iff] using found
    rw [List.all_cons, Bool.and_eq_true] at plain
    obtain ⟨sorted, count⟩ := ih rest plain.2
    obtain ⟨single, one⟩ := sorts_ofPredicate plain.1
    rw [ofConditions, ofCondition_of_predicate first]
    refine ⟨single.append sorted, ?_⟩
    rw [size_append, one, count, List.length_cons, Nat.add_comm]

end Tests

namespace Condition

/-- A conjunct and the typed comparison that it makes. -/
inductive Compares : Condition → SimpleTest → Prop where
  | comparison (field : Text) (op : Comparator) (value : Text) :
      Compares (.leaf (.comparison field op value)) ⟨field, op, .ofToken value⟩

theorem compares_of_simpleTest {c : Condition} {test : SimpleTest} (found : c.simpleTest? = some test) :
    Compares c test := by
  unfold simpleTest? at found
  split at found
  · cases found
    exact .comparison ..
  · cases found

/-- Where every conjunct is a comparison, none is dropped. -/
theorem compares_conjuncts {cs : List Condition} (simple : cs.all (fun part => part.simpleTest?.isSome) = true) :
    List.Forall₂ Compares cs (cs.filterMap simpleTest?) := by
  induction cs with
  | nil => exact .nil
  | cons c cs ih =>
    rw [List.all_cons, Bool.and_eq_true] at simple
    obtain ⟨test, found⟩ := Option.isSome_iff_exists.1 simple.1
    rw [List.filterMap_cons_some found]
    exact .cons (compares_of_simpleTest found) (ih simple.2)

/-- Surrounding white space does not count. -/
theorem parse_trim (t : Text) : parse (Text.trim t) = parse t := by rw [parse, parse, Text.trim_trim]

/-- Exactly the blank texts stand for no condition. -/
theorem parse_none_iff {t : Text} {found : Option Condition} (read : parse t = .ok found) :
    found = none ↔ Text.Blank t := by
  rw [← Text.trim_eq_nil]
  unfold parse at read
  by_cases blank : Text.trim t = []
  · simp only [blank, List.isEmpty_nil, if_true, Except.ok.injEq] at read
    exact iff_of_true read.symm blank
  · simp only [List.isEmpty_iff, blank, if_false] at read
    refine iff_of_false ?_ blank
    rintro rfl
    split at read <;> cases read

end Condition

namespace Plan

/-- Which plan is chosen for a text, by the condition that it stands for. -/
inductive Chosen (w : Text) : Option Condition → Plan → Prop where
  | empty (blank : Text.Blank w) : Chosen w none .empty
  | literal {c : Condition} (query : Condition.hasSubquery (Text.trim w) = true) :
      Chosen w (some c) (.literal (Text.trim w))
  | disjunction {c : Condition} (or : c.hasOr = true) : Chosen w (some c) (.disjunction c)
  | raw {c : Condition} (whole : c.isDecomposable = false) : Chosen w (some c) (.raw c)
  | consolidated {c : Condition} (plain : Condition.hasSubquery (Text.trim w) = false) (simple : c.isSimple = true) :
      Chosen w (some c) (.consolidated c.simpleTests)
  | decomposed {c : Condition} {ps : List Predicate} (predicates : c.conjunctPredicates? = some ps)
      (plain : ps.all Condition.isPlain = true) : Chosen w (some c) (.decomposed (Tests.ofCondition c))

theorem ofCondition_chosen {w : Text} (c : Condition) (plain : Condition.hasSubquery (Text.trim w) = false) :
    Chosen w (some c) (ofCondition c) := by
  unfold ofCondition
  split
  · rename_i or
    exact .disjunction or
  split
  · rename_i whole
    exact .raw (by simpa using whole)
  rename_i split
  split
  · rename_i simple
    exact .consolidated plain simple
  · simp only [Condition.isDecomposable, Bool.not_eq_true, Bool.not_eq_false'] at split
    split at split
    · rename_i ps predicates
      exact .decomposed predicates split
    · cases split

/-- A text that can be read has a plan. -/
theorem ofText_chosen {w : Text} {found : Option Condition} (read : Condition.parse w = .ok found) :
    ∃ plan, ofText w = .ok plan ∧ Chosen w found plan := by
  have again := (Condition.parse_trim w).trans read
  have blank := Condition.parse_none_iff read
  rw [← Text.trim_eq_nil] at blank
  unfold ofText
  match found with
  | none => exact ⟨.empty, by simp [blank.1 rfl], .empty (Text.trim_eq_nil.1 (blank.1 rfl))⟩
  | some c =>
    have filled : Text.trim w ≠ [] := fun empty => nomatch blank.2 empty
    cases query : Condition.hasSubquery (Text.trim w) with
    | true => exact ⟨.literal (Text.trim w), by simp [filled, query], .literal query⟩
    | false => exact ⟨ofCondition c, by simp [filled, query, again], ofCondition_chosen c query⟩

/-- What a plan keeps of the condition of a text. -/
structure Keeps (plan : Plan) (w : Text) (c : Condition) : Prop where
  consolidated : ∀ tests, plan = .consolidated tests → List.Forall₂ Condition.Compares c.conjuncts tests
  decomposed : ∀ tests, plan = .decomposed tests →
    ∃ ps, c.conjunctPredicates? = some ps ∧ tests.Sorts ps ∧ tests.size = c.conjuncts.length
  disjunction : ∀ d, plan = .disjunction d → d = c ∧ c.hasOr = true
  raw : ∀ d, plan = .raw d → d = c ∧ c.isDecomposable = false
  literal : ∀ t, plan = .literal t → t = Text.trim w ∧ Condition.hasSubquery t = true

theorem Chosen.keeps {w : Text} {c : Condition} {plan : Plan} (chosen : Chosen w (some c) plan) : plan.Keeps w c := by
  cases chosen with
  | literal query =>
    constructor <;> rintro _ ⟨⟩
    exact ⟨rfl, query⟩
  | disjunction or =>
    constructor <;> rintro _ ⟨⟩
    exact ⟨rfl, or⟩
  | raw whole =>
    constructor <;> rintro _ ⟨⟩
    exact ⟨rfl, whole⟩
  | consolidated plain simple =>
    constructor <;> rintro _ ⟨⟩
    rw [Condition.isSimple, Bool.and_eq_true] at simple
    exact Condition.compares_conjuncts simple.2
  | @decomposed _ ps predicates plain =>
    constructor <;> rintro _ ⟨⟩
    rw [← Tests.ofConditions_conjuncts]
    exact ⟨ps, predicates, Tests.sorts_ofConditions predicates plain⟩

/-- The plan is empty for a blank text alone. -/
theorem Chosen.empty_iff {w : Text} {found : Option Condition} {plan : Plan} (chosen : Chosen w found plan) :
    plan = .empty ↔ found = none := by
  cases chosen <;> simp

/-- The plan has something to test. -/
def HasTest : Plan → Prop
  | .empty => False
  | .consolidated tests => tests ≠ []
  | .decomposed tests => tests.size ≠ 0
  | .literal _ | .disjunction _ | .raw _ => True

/-- A condition with a conjunct is never planned away. -/
theorem Chosen.hasTest {w : Text} {c : Condition} {plan : Plan} (chosen : Chosen w (some c) plan)
    (filled : c.conjuncts ≠ []) : plan.HasTest := by
  have keeps := chosen.keeps
  match plan with
  | .empty => cases chosen.empty_iff.1 rfl
  | .literal _ | .disjunction _ | .raw _ => trivial
  | .consolidated tests =>
    rintro rfl
    have empty := keeps.consolidated [] rfl
    exact filled (List.forall₂_nil_right_iff.1 empty)
  | .decomposed tests =>
    obtain ⟨_, _, _, count⟩ := keeps.decomposed tests rfl
    rw [HasTest, count]
    exact fun empty => filled (List.length_eq_zero_iff.1 empty)

/-- **A text that is not blank leaves something to test.** -/
theorem ofText_hasTest {w : Text} {found : Option Condition} (read : Condition.parse w = .ok found) :
    ∃ plan, ofText w = .ok plan ∧ (plan = .empty ∧ Text.Blank w ∨ plan.HasTest ∧ ¬ Text.Blank w) := by
  obtain ⟨plan, planned, chosen⟩ := ofText_chosen read
  have blank := Condition.parse_none_iff read
  refine ⟨plan, planned, ?_⟩
  match found with
  | none => exact .inl ⟨chosen.empty_iff.2 rfl, blank.1 rfl⟩
  | some c => exact .inr ⟨chosen.hasTest (Condition.parse_conjuncts_ne_nil read), fun all => nomatch blank.2 all⟩

/-- The questions about the text of a clause are answered from the same tree as its plan. -/
theorem Chosen.asked {w : Text} {found : Option Condition} {plan : Plan} (read : Condition.parse w = .ok found)
    (chosen : Chosen w found plan) :
    (∀ tests, plan = .consolidated tests →
      Clause.isSimple (Text.trim w) = .ok true ∧ Clause.simpleTests (Text.trim w) = .ok tests) ∧
    ∀ tests, plan = .decomposed tests → Clause.tests (Text.trim w) = .ok tests := by
  rw [← Condition.parse_trim] at read
  constructor <;> rintro tests rfl
  · cases chosen with
    | consolidated plain simple => simp [Clause.isSimple, Clause.simpleTests, Clause.ask, plain, read, simple]
  · cases chosen with
    | decomposed => simp [Clause.tests, Clause.ask, read]

/-- **Planning keeps the condition.** A text that can be read has a plan, which is empty for the blank texts
alone. Every other plan has the conjuncts of the tree one for one and in order, the tree itself, or the text
without the white space around it, and the functions that read the text once more come to the same tests. -/
theorem ofText_keeps_condition {w : Text} {found : Option Condition} (read : Condition.parse w = .ok found) :
    ∃ plan, ofText w = .ok plan ∧ (plan = .empty ↔ Text.Blank w) ∧ (found = none ↔ Text.Blank w) ∧
      (∀ c, found = some c → plan.Keeps w c) ∧
      (∀ tests, plan = .consolidated tests →
        Clause.isSimple (Text.trim w) = .ok true ∧ Clause.simpleTests (Text.trim w) = .ok tests) ∧
      (∀ tests, plan = .decomposed tests → Clause.tests (Text.trim w) = .ok tests) := by
  obtain ⟨plan, planned, chosen⟩ := ofText_chosen read
  have blank := Condition.parse_none_iff read
  refine ⟨plan, planned, chosen.empty_iff.trans blank, blank, ?_, chosen.asked read⟩
  rintro c rfl
  exact chosen.keeps

/-- Kinds that alternate, a nested conjunction and a negated group with a single predicate. -/
theorem ofText_keeps_condition_mixed :
    let w := " a = 1 AND NOT (b IN (2, 'x')) AND (c BETWEEN 3 AND 4 AND (d IS NULL AND e < 5)) ".toList
    let tree : Condition := .and [
      .leaf (.comparison "a".toList .eq "1".toList),
      .not (.leaf (.inList "b".toList false ["2".toList, "'x'".toList])),
      .and [.leaf (.between "c".toList false "3".toList "4".toList),
        .and [.leaf (.isNull "d".toList false), .leaf (.comparison "e".toList .lt "5".toList)]]]
    Condition.parse w = .ok (some tree) ∧
      ∃ plan, ofText w = .ok plan ∧ (plan = .empty ↔ Text.Blank w) ∧ plan.Keeps w tree := by
  intro w tree
  have read : Condition.parse w = .ok (some tree) := by decide +kernel
  obtain ⟨plan, planned, empty, _, keeps, _⟩ := ofText_keeps_condition read
  exact ⟨read, plan, planned, empty, keeps tree rfl⟩

end Plan
end QueryCode
