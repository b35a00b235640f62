import QueryCode.Proofs.Condition.Subquery
import QueryCode.Proofs.Finder.Filter
import QueryCode.Proofs.Literal

/-!
# Lone predicates

A condition that is one predicate is planned as a list of tests, while the same predicate under an `OR` is written as
a leaf of a tree. The two ways agree but for the value of a comparison: the leaf tells columns and calls from values,
the list takes each token for a value. `filter_leaf_eq_iff` says exactly when the code is the same.
-/

namespace QueryCode
set_option autoImplicit false

/-! ## Values and other operands -/

/-- The text does not start with a capital S, as the name of the library does. -/
theorem Double.head_text_ne (x : Double) : x.text.head? ≠ some 'S' := by
  intro head
  have mem := List.mem_of_head? head
  cases x with
  | infinite negative => cases negative <;> cases head
  | finite negative mantissa exponent =>
    rw [text] at mem
    split at mem
    · revert mem
      decide
    · rcases List.mem_append.1 mem with sign | digits
      · cases negative <;> revert sign <;> decide
      · rcases Decimal.isDigit_of_mem_text digits with digit | point
        · cases digit
        · cases point

namespace Literal

theorem head_code_ne (target : Target) (value : Literal) : (value.code target).text.head? ≠ some 'S' := by
  intro head
  cases value with
  | empty => cases head
  | null => cases target <;> cases head
  | boolean value => cases value <;> cases head
  | integer n =>
    have mem := List.mem_of_head? head
    have digit {n : Nat} (mem : 'S' ∈ Nat.toDigits 10 n) : False :=
      absurd (Nat.isDigit_of_mem_toDigits (by decide) (by decide) mem) (by decide)
    cases n with
    | ofNat n => exact digit mem
    | negSucc n => exact digit (List.mem_of_ne_of_mem (by decide) mem)
  | number x => exact x.head_text_ne head
  | string t => cases head

end Literal

namespace Finder

/-- One test makes an object with one property, in which the text of the value stands between two fixed ones. -/
theorem exists_assemble_text (key : Text) (op : Operator) :
    ∃ before after : Text, ∀ value, (assemble [⟨key, op, value⟩]).text = before ++ value.text ++ after := by
  have lone (value : Code) : assemble [⟨key, op, value⟩] = Code.object [Property.code ⟨key, [(op, value)]⟩] := rfl
  by_cases eq : op = .eq
  · subst eq
    refine ⟨"\x7b " ++ (Naming.key key).text ++ ": ", " \x7d", fun value => ?_⟩
    simp [lone, Property.code, Code.object, Code.text, Code.rowText, Code.itemsText, Bracket.left, Bracket.right]
  · have nested (value : Code) : Property.code ⟨key, [(op, value)]⟩ =
        .row [Naming.key key, ": ", Code.object [opField op.name value]] := by
      cases op with
      | eq => exact absurd rfl eq
      | _ => rfl
    refine ⟨"\x7b " ++ (Naming.key key).text ++ ": \x7b [" ++ op.name.toList ++ "]: ", " \x7d \x7d", fun value => ?_⟩
    simp [lone, nested, opField, Code.array, Code.object, Code.text, Code.rowText, Code.itemsText, Bracket.left,
      Bracket.right]

theorem assemble_text_inj {key : Text} {op : Operator} {v w : Code} :
    (assemble [⟨key, op, v⟩]).text = (assemble [⟨key, op, w⟩]).text ↔ v.text = w.text := by
  obtain ⟨before, after, shape⟩ := exists_assemble_text key op
  rw [shape, shape, List.append_left_inj, List.append_right_inj]

/-- The token stands for a value: it is no column and calls nothing. -/
def isValue (raw : Text) : Bool := !Naming.isColumnRef raw && !raw.contains '('

/-- An operand is written as the value of its token exactly if the token stands for one. -/
theorem operand_text_iff {raw : Text} : (value raw).text = (operand raw).text ↔ isValue raw = true := by
  have other {name : String} (head : name.toList.head? = some 'S') (items : List Code) :
      (value raw).text ≠ (Code.call name items).text := by
    intro same
    refine Literal.head_code_ne .sequelize (.ofToken raw) ((congrArg List.head? same).trans ?_)
    rw [Code.call, Code.text, Code.rowText, Code.text, List.head?_append, head]
    rfl
  unfold operand isValue
  by_cases column : Naming.isColumnRef raw = true
  · simp only [column, if_true, Bool.not_true, Bool.false_and]
    exact iff_of_false (other rfl _) (by decide)
  · by_cases call : raw.contains '(' = true
    · simp only [column, call, if_true, Bool.not_true, Bool.and_false]
      exact iff_of_false (other rfl _) (by decide)
    · rw [Bool.not_eq_true] at column call
      simp only [column, call]
      exact iff_of_true rfl rfl

/-- The values of the predicate are written alike as a list of tests and as a leaf. -/
def hasValue : Predicate → Bool
  | .comparison _ _ raw => isValue raw
  | _ => true

/-- **A lone predicate is written like a leaf exactly if it is no comparison with a column or a call.** The plan for
its text then has the same code as the tree, whether or not the clause is wrapped; in a comparison with a column or a
call, the plan has the text of the operand as a value. -/
theorem filter_leaf_eq_iff {s : Statement} {w : Text} {p : Predicate} (plain : Condition.hasSubquery w = false)
    (read : Condition.parse w = .ok (some (.leaf p))) (kind : Condition.isPlain p = true) (wrapped : Bool) :
    ∃ plan, Plan.ofText w = .ok plan ∧
      ((filter s wrapped plan).text = (tree s (.leaf p)).text ↔ hasValue p = true) := by
  obtain ⟨plan, planned, chosen⟩ := Plan.ofText_chosen read
  refine ⟨plan, planned, ?_⟩
  have compared (field : Text) (op : Comparator) (raw : Text) :
      (assemble [simpleTest s ⟨field, op, .ofToken raw⟩]).text = (leaf s (.comparison field op raw)).text ↔
        isValue raw = true := assemble_text_inj.trans operand_text_iff
  rw [tree]
  cases chosen with
  | literal query =>
    rw [Condition.hasSubquery_trim plain] at query
    cases query
  | disjunction or => cases or
  | raw whole =>
    rw [Condition.isDecomposable] at whole
    simp [Condition.conjunctPredicates?, Condition.conjuncts, Condition.predicate?, kind] at whole
  | consolidated _ simple =>
    cases p with
    | comparison field op raw => exact compared field op raw
    | _ => cases simple
  | decomposed predicates _ =>
    cases p with
    | comparison field op raw => exact compared field op raw
    | raw => cases kind
    | inQuery => cases kind
    | _ => exact iff_of_true rfl rfl

/-- A comparison with a column of another table: alone, the column is taken for a string. -/
theorem filter_leaf_eq_iff_column :
    let s : Statement := { kind := .select, main := some ⟨"users".toList, none⟩ }
    let w := "id = posts.user_id".toList
    let p : Predicate := .comparison "id".toList .eq "posts.user_id".toList
    Condition.hasSubquery w = false ∧ Condition.parse w = .ok (some (.leaf p)) ∧ Condition.isPlain p = true ∧
      (∃ plan, Plan.ofText w = .ok plan ∧ (filter s false plan).text ≠ (tree s (.leaf p)).text) ∧
      (tree s (.leaf p)).text = "\x7b id: Sequelize.col(\"posts.user_id\") \x7d".toList := by
  intro s w p
  have plain : Condition.hasSubquery w = false := by decide +kernel
  have read : Condition.parse w = .ok (some (.leaf p)) := by decide +kernel
  obtain ⟨plan, planned, same⟩ := filter_leaf_eq_iff (s := s) plain read rfl false
  exact ⟨plain, read, rfl, ⟨plan, planned, mt same.1 (by decide +kernel)⟩, by decide +kernel⟩

end Finder
end QueryCode
