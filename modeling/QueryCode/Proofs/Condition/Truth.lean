import Mathlib.Order.Lattice
import QueryCode.Proofs.Condition.Equality
import QueryCode.Proofs.Condition.Tree

/-!
# Conditions in three-valued logic

A test against a missing value is neither true nor false. With three truth values an `AND` is the least of its parts,
an `OR` the greatest, and `NOT` turns the order around and leaves the middle where it is. Planning takes a condition
apart into conjuncts, and these into predicates with a `NOT` carried out in them: `eval_conjuncts` and
`eval_conjunctPredicates` say that neither step changes what the condition comes to, whatever the row.

The second step rests on the negation of a predicate, which turns its truth value around. That holds of every row:
`Row.valuation` gives the predicates their meaning and checks it against the table of opposite operators.
-/

namespace QueryCode
set_option autoImplicit false

/-! ## Truth values -/

/-- What a test comes to. -/
inductive Truth where
  | fails
  | unknown
  | holds
  deriving DecidableEq, Repr

namespace Truth

/-- The place of a truth value in the order. -/
def rank : Truth → Nat
  | .fails => 0
  | .unknown => 1
  | .holds => 2

theorem rank_injective : Function.Injective rank := by
  intro a b same
  cases a <;> cases b <;> first | rfl | cases same

instance : LinearOrder Truth := LinearOrder.lift' rank rank_injective

/-- The truth value of a negation. -/
def not : Truth → Truth
  | .fails => .holds
  | .unknown => .unknown
  | .holds => .fails

/-- The least of the values; if there are none, there is nothing that fails. -/
def all (values : List Truth) : Truth := values.foldr min .holds

/-- The greatest of the values; if there are none, there is nothing that holds. -/
def any (values : List Truth) : Truth := values.foldr max .fails

theorem min_holds (a : Truth) : min a .holds = a := by cases a <;> rfl

theorem holds_min (a : Truth) : min .holds a = a := by cases a <;> rfl

theorem all_cons (a : Truth) (values : List Truth) : all (a :: values) = min a (all values) := rfl

theorem all_singleton (a : Truth) : all [a] = a := min_holds a

theorem all_append (values more : List Truth) : all (values ++ more) = min (all values) (all more) := by
  induction values with
  | nil => exact (holds_min _).symm
  | cons a values ih => rw [List.cons_append, all_cons, all_cons, ih, min_assoc]

/-- The least of several lists is the least of what each list comes to. -/
theorem all_flatMap {α : Type} (f : α → List Truth) (items : List α) :
    all (items.flatMap f) = all (items.map fun item => all (f item)) := by
  induction items with
  | nil => rfl
  | cons item items ih => rw [List.flatMap_cons, all_append, ih, List.map_cons, all_cons]

end Truth

/-! ## Valuations -/

/-- What each predicate comes to, such that the negation of a predicate comes to the opposite. -/
structure Valuation where
  truth : Predicate → Truth
  negation : ∀ {p q : Predicate}, p.negation? = some q → truth q = (truth p).not

namespace Comparator

/-- The comparison holds of two values in this order. -/
def accepts : Comparator → Ordering → Bool
  | .eq, order => order == .eq
  | .ne, order => order != .eq
  | .ge, order => order != .lt
  | .le, order => order != .gt
  | .gt, order => order == .gt
  | .lt, order => order == .lt

/-- The opposite operator accepts exactly what the operator rejects. -/
theorem accepts_negate (op : Comparator) (order : Ordering) : op.negate.accepts order = !op.accepts order := by
  cases op <;> cases order <;> rfl

end Comparator

/-- What the tests of a row depend on. -/
structure Row where
  /-- How a field compares with a value; nothing where one of the two is missing. -/
  order : Text → Text → Option Ordering
  /-- A field has the form of a pattern, with or without regard to case. -/
  fits : Text → Text → Bool → Truth
  /-- A field is in the result of a query. -/
  found : Text → Text → Truth
  /-- A field is missing. -/
  missing : Text → Bool
  /-- What a text that is no known predicate comes to. -/
  kept : Text → Truth

namespace Row

variable (row : Row)

/-- A test that can be told. -/
def told : Bool → Truth
  | true => .holds
  | false => .fails

/-- A test with or without a `NOT` in it. -/
def signed (negated : Bool) (test : Truth) : Truth := if negated then test.not else test

/-- A comparison is unknown where a value is missing. -/
def compare (field : Text) (op : Comparator) (value : Text) : Truth :=
  match row.order field value with
  | some order => told (op.accepts order)
  | none => .unknown

/-- What a predicate comes to: a list is an `OR` of equalities and a range an `AND` of its two bounds. -/
def truth : Predicate → Truth
  | .comparison field op value => row.compare field op value
  | .like field negated pattern anyCase => signed negated (row.fits field pattern anyCase)
  | .inList field negated values => signed negated (Truth.any (values.map (row.compare field .eq)))
  | .inQuery field negated query => signed negated (row.found field query)
  | .between field negated low high => signed negated (min (row.compare field .ge low) (row.compare field .le high))
  | .isNull field negated => signed negated (told (row.missing field))
  | .raw text => row.kept text

theorem compare_negate (field : Text) (op : Comparator) (value : Text) :
    row.compare field op.negate value = (row.compare field op value).not := by
  unfold compare
  cases row.order field value with
  | none => rfl
  | some order =>
    dsimp only
    rw [op.accepts_negate]
    cases op.accepts order <;> rfl

theorem signed_not (negated : Bool) (test : Truth) : signed (!negated) test = (signed negated test).not := by
  cases negated <;> cases test <;> rfl

/-- The predicates of a row come to the opposite when they are negated. -/
def valuation : Valuation where
  truth := row.truth
  negation := by
    intro p q negated
    cases p with
    | raw text => cases negated
    | comparison field op value =>
      cases negated
      exact row.compare_negate field op value
    | _ =>
      cases negated
      exact signed_not _ _

end Row

namespace Condition

mutual

/-- What a condition comes to when the predicates come to `v`. -/
def eval (v : Predicate → Truth) : Condition → Truth
  | .and parts => Truth.all (evals v parts)
  | .or parts => Truth.any (evals v parts)
  | .not part => (eval v part).not
  | .leaf predicate => v predicate

/-- What each of several conditions comes to. -/
def evals (v : Predicate → Truth) : List Condition → List Truth
  | [] => []
  | part :: more => eval v part :: evals v more

end

theorem evals_eq_map (v : Predicate → Truth) (parts : List Condition) : evals v parts = parts.map (eval v) := by
  induction parts with
  | nil => rw [evals, List.map_nil]
  | cons part more ih => rw [evals, ih, List.map_cons]

/-! ## Conjuncts -/

/-- **A condition comes to the least of its conjuncts.** -/
theorem eval_conjuncts (v : Predicate → Truth) (c : Condition) : c.eval v = Truth.all (c.conjuncts.map (eval v)) := by
  induction c using byConjuncts with
  | and parts ih =>
    rw [conjuncts_and, List.map_flatMap, Truth.all_flatMap, eval, evals_eq_map]
    congr 1
    exact List.map_congr_left ih
  | whole c alone => rw [alone, List.map_singleton, Truth.all_singleton]

/-- No `AND` is left among the conjuncts. -/
theorem ne_and_of_mem_conjuncts {c part : Condition} (mem : part ∈ c.conjuncts) (parts : List Condition) :
    part ≠ .and parts := by
  induction c using byConjuncts with
  | and inner ih =>
    rw [conjuncts_and, List.mem_flatMap] at mem
    obtain ⟨origin, listed, mem⟩ := mem
    exact ih origin listed mem
  | whole c alone other =>
    rw [alone, List.mem_singleton] at mem
    rw [mem]
    exact other parts

/-! ## Conjuncts as predicates -/

/-- A conjunct that amounts to no single predicate. -/
inductive Indivisible : Condition → Prop where
  | or (parts : List Condition) : Indivisible (.or parts)
  | group {part : Condition} (several : part.isLeaf = false) : Indivisible (.not part)
  | raw (text : Text) : Indivisible (.not (.leaf (.raw text)))

theorem negation?_eq_none {p : Predicate} : p.negation? = none ↔ ∃ text, p = .raw text := by
  cases p <;> simp [Predicate.negation?]

/-- A condition that is no `AND` amounts to a predicate unless it is indivisible. -/
theorem predicate?_eq_none {c : Condition} (other : ∀ parts, c ≠ .and parts) : c.predicate? = none ↔ Indivisible c := by
  match c with
  | .and parts => exact absurd rfl (other parts)
  | .or parts => exact iff_of_true rfl (.or parts)
  | .leaf p => exact iff_of_false (by simp [predicate?]) (by rintro ⟨⟩)
  | .not (.leaf p) =>
    rw [predicate?, negation?_eq_none]
    constructor
    · rintro ⟨text, rfl⟩
      exact .raw text
    · intro whole
      cases whole with
      | group several => cases several
      | raw text => exact ⟨text, rfl⟩
  | .not (.and parts) => exact iff_of_true rfl (.group rfl)
  | .not (.or parts) => exact iff_of_true rfl (.group rfl)
  | .not (.not part) => exact iff_of_true rfl (.group rfl)

/-- The predicate of a conjunct comes to the same as the conjunct. -/
theorem eval_of_predicate? (v : Valuation) {c : Condition} {p : Predicate} (found : c.predicate? = some p) :
    c.eval v.truth = v.truth p := by
  match c with
  | .leaf q =>
    cases found
    rw [eval]
  | .not (.leaf q) =>
    rw [eval, eval]
    exact (v.negation found).symm
  | .not (.and _) | .not (.or _) | .not (.not _) | .and _ | .or _ => cases found

theorem mapM_eq_none {α β : Type} {f : α → Option β} {items : List α} :
    items.mapM f = none ↔ ∃ item ∈ items, f item = none := by
  induction items with
  | nil => simp
  | cons item items ih =>
    rw [List.mapM_cons, List.exists_mem_cons_iff, ← ih]
    cases f item <;> cases items.mapM f <;> simp

theorem eval_of_mapM (v : Valuation) {cs : List Condition} {ps : List Predicate}
    (found : cs.mapM predicate? = some ps) : cs.map (eval v.truth) = ps.map v.truth := by
  induction cs generalizing ps with
  | nil =>
    cases found
    rfl
  | cons c cs ih =>
    obtain ⟨p, first, qs, rest, rfl⟩ :
        ∃ p, c.predicate? = some p ∧ ∃ qs, cs.mapM predicate? = some qs ∧ p :: qs = ps := by
      simpa [List.mapM_cons, Option.bind_eq_some_iff] using found
    rw [List.map_cons, List.map_cons, eval_of_predicate? v first, ih rest]

/-- Conjuncts that are all predicates come to the least of these. -/
theorem eval_conjunctPredicates (v : Valuation) {c : Condition} {ps : List Predicate}
    (found : c.conjunctPredicates? = some ps) : c.eval v.truth = Truth.all (ps.map v.truth) := by
  rw [eval_conjuncts, eval_of_mapM v found]

/-- The conjuncts are all predicates unless one of them is indivisible. -/
theorem conjunctPredicates?_eq_none {c : Condition} :
    c.conjunctPredicates? = none ↔ ∃ part ∈ c.conjuncts, Indivisible part := by
  rw [conjunctPredicates?, mapM_eq_none]
  constructor
  · rintro ⟨part, mem, missing⟩
    exact ⟨part, mem, (predicate?_eq_none (ne_and_of_mem_conjuncts mem)).1 missing⟩
  · rintro ⟨part, mem, whole⟩
    exact ⟨part, mem, (predicate?_eq_none (ne_and_of_mem_conjuncts mem)).2 whole⟩

/-- **Taking a condition apart keeps its meaning.** In three-valued logic it comes to the least of its conjuncts; these
are no `AND`s and have its predicates in order. Where the conjuncts amount to predicates, with a `NOT` carried out in
the predicate that it covers, the condition comes to the least of them, and they do unless one is an `OR`, a negated
group or negated raw text. -/
theorem conjuncts_keep_truth (v : Valuation) (c : Condition) :
    c.eval v.truth = Truth.all (c.conjuncts.map (eval v.truth)) ∧
      c.conjuncts.flatMap leaves = c.leaves ∧
      (∀ part ∈ c.conjuncts, ∀ parts, part ≠ .and parts) ∧
      (∀ ps, c.conjunctPredicates? = some ps → c.eval v.truth = Truth.all (ps.map v.truth)) ∧
      (c.conjunctPredicates? = none ↔ ∃ part ∈ c.conjuncts, Indivisible part) :=
  ⟨eval_conjuncts v.truth c, leaves_conjuncts c, fun _ mem => ne_and_of_mem_conjuncts mem,
    fun _ found => eval_conjunctPredicates v found, conjunctPredicates?_eq_none⟩

/-- A row without a value for `b`: neither `b < 2` nor its opposite holds, before and after the `NOT` is carried out. -/
theorem conjuncts_keep_truth_missing :
    let row : Row := {
      order := fun field _ => if field = "b".toList then none else some .eq
      fits := fun _ _ _ => .unknown
      found := fun _ _ => .unknown
      missing := fun field => field == "b".toList
      kept := fun _ => .unknown }
    let c : Condition := .and [
      .leaf (.comparison "a".toList .ge "1".toList),
      .and [.not (.leaf (.comparison "b".toList .lt "2".toList)), .not (.leaf (.isNull "c".toList false))]]
    let ps : List Predicate := [
      .comparison "a".toList .ge "1".toList, .comparison "b".toList .ge "2".toList, .isNull "c".toList true]
    c.conjunctPredicates? = some ps ∧ Truth.all (ps.map row.truth) = .unknown ∧ c.eval row.truth = .unknown := by
  intro row c ps
  have found : c.conjunctPredicates? = some ps := by decide
  have least : Truth.all (ps.map row.truth) = .unknown := by decide
  obtain ⟨_, _, _, meaning, _⟩ := conjuncts_keep_truth row.valuation c
  exact ⟨found, least, (meaning ps found).trans least⟩

end Condition
end QueryCode
