import QueryCode.Condition.Basic
import QueryCode.Proofs.Text.Basic

/-!
# Trees of predicates

What is proved of a condition by looking at its parts: induction with one hypothesis for each part, and the functions on
lists of parts as `flatMap`, `map` and `join` of the functions on one. `mapLeaves` changes the predicates of a tree and
leaves its `AND`s, `OR`s and `NOT`s alone, so the texts of two such trees differ in the texts of their predicates only.
-/

namespace QueryCode
set_option autoImplicit false

namespace Condition

/-- Induction on a condition, with a hypothesis for each part of an `AND` or an `OR`. -/
theorem byParts {motive : Condition → Prop}
    (and : ∀ parts, (∀ part ∈ parts, motive part) → motive (.and parts))
    (or : ∀ parts, (∀ part ∈ parts, motive part) → motive (.or parts))
    (not : ∀ part, motive part → motive (.not part)) (leaf : ∀ p, motive (.leaf p)) (c : Condition) : motive c :=
  @Condition.rec motive (fun parts => ∀ part ∈ parts, motive part) and or not leaf
    (fun _ mem => absurd mem List.not_mem_nil) (fun _ _ first rest => List.forall_mem_cons.2 ⟨first, rest⟩) c

theorem allConjuncts_eq_flatMap (parts : List Condition) : allConjuncts parts = parts.flatMap conjuncts := by
  induction parts with
  | nil => rw [allConjuncts, List.flatMap_nil]
  | cons part more ih => rw [allConjuncts, ih, List.flatMap_cons]

theorem allLeaves_eq_flatMap (parts : List Condition) : allLeaves parts = parts.flatMap leaves := by
  induction parts with
  | nil => rw [allLeaves, List.flatMap_nil]
  | cons part more ih => rw [allLeaves, ih, List.flatMap_cons]

theorem conjuncts_and (parts : List Condition) : (and parts).conjuncts = parts.flatMap conjuncts := by
  rw [conjuncts, allConjuncts_eq_flatMap]

theorem leaves_and (parts : List Condition) : (and parts).leaves = parts.flatMap leaves := by
  rw [leaves, allLeaves_eq_flatMap]

theorem leaves_or (parts : List Condition) : (or parts).leaves = parts.flatMap leaves := by
  rw [leaves, allLeaves_eq_flatMap]

/-- An `AND` has the conjuncts of its parts, and every other condition is its own conjunct. -/
theorem byConjuncts {motive : Condition → Prop}
    (and : ∀ parts, (∀ part ∈ parts, motive part) → motive (.and parts))
    (whole : ∀ c : Condition, c.conjuncts = [c] → (∀ parts, c ≠ .and parts) → motive c) (c : Condition) : motive c := by
  induction c using byParts with
  | and parts ih => exact and parts ih
  | or parts => exact whole _ (by rw [conjuncts]) (by simp)
  | not part => exact whole _ (by rw [conjuncts]) (by simp)
  | leaf p => exact whole _ (by rw [conjuncts]) (by simp)

/-- The conjuncts have the predicates of the condition, in the same order. -/
theorem leaves_conjuncts (c : Condition) : c.conjuncts.flatMap leaves = c.leaves := by
  induction c using byConjuncts with
  | and parts ih =>
    rw [conjuncts_and, leaves_and, List.flatMap_assoc]
    exact List.flatMap_congr ih
  | whole c alone => rw [alone, List.flatMap_singleton]

/-! ## Texts -/

/-- The text of a part of an `AND` or an `OR`, given the text that it has on its own. -/
def placed (underAnd : Bool) (part : Condition) (own : Text) : Text := bracket (underAnd && part.isOr) own

theorem partsText_eq_join (underAnd : Bool) (parts : List Condition) :
    partsText underAnd parts = Text.join (joiner underAnd) (parts.map fun part => placed underAnd part part.text) := by
  induction parts with
  | nil => rw [partsText]; rfl
  | cons part more ih =>
    cases more with
    | nil => simp [partsText, placed, Text.join]
    | cons next more =>
      rw [partsText, ih]
      · simp only [List.map_cons, Text.join_cons_cons, placed, List.append_assoc]
      · simp

/-! ## Other predicates in the same tree -/

mutual

/-- The condition with each of its predicates changed. -/
def mapLeaves (f : Predicate → Predicate) : Condition → Condition
  | .and parts => .and (mapParts f parts)
  | .or parts => .or (mapParts f parts)
  | .not part => .not (mapLeaves f part)
  | .leaf predicate => .leaf (f predicate)

/-- The conditions with each of their predicates changed. -/
def mapParts (f : Predicate → Predicate) : List Condition → List Condition
  | [] => []
  | part :: more => mapLeaves f part :: mapParts f more

end

section MapLeaves

variable (f : Predicate → Predicate)

theorem mapParts_eq_map (parts : List Condition) : mapParts f parts = parts.map (mapLeaves f) := by
  induction parts with
  | nil => rw [mapParts, List.map_nil]
  | cons part more ih => rw [mapParts, ih, List.map_cons]

@[simp] theorem isOr_mapLeaves (c : Condition) : (c.mapLeaves f).isOr = c.isOr := by
  cases c <;> rw [mapLeaves] <;> rfl

@[simp] theorem isLeaf_mapLeaves (c : Condition) : (c.mapLeaves f).isLeaf = c.isLeaf := by
  cases c <;> rw [mapLeaves] <;> rfl

theorem partsText_mapParts (underAnd : Bool) (parts : List Condition) :
    partsText underAnd (mapParts f parts) =
      Text.join (joiner underAnd) (parts.map fun part => placed underAnd part (part.mapLeaves f).text) := by
  rw [partsText_eq_join, mapParts_eq_map, List.map_map]
  congr 1
  apply List.map_congr_left
  intro part _
  rw [Function.comp_apply, placed, placed, isOr_mapLeaves]

theorem text_mapLeaves_and (parts : List Condition) : ((and parts).mapLeaves f).text =
    Text.join (joiner true) (parts.map fun part => placed true part (part.mapLeaves f).text) := by
  rw [mapLeaves, text, partsText_mapParts]

theorem text_mapLeaves_or (parts : List Condition) : ((or parts).mapLeaves f).text =
    Text.join (joiner false) (parts.map fun part => placed false part (part.mapLeaves f).text) := by
  rw [mapLeaves, text, partsText_mapParts]

theorem text_mapLeaves_not (part : Condition) :
    ((not part).mapLeaves f).text = "NOT ".toList ++ bracket (!part.isLeaf) (part.mapLeaves f).text := by
  rw [mapLeaves, text, isLeaf_mapLeaves]

theorem text_mapLeaves_leaf (p : Predicate) : ((leaf p).mapLeaves f).text = (f p).text := by
  rw [mapLeaves, text]

end MapLeaves

/-- The text of a tree depends on its predicates through their texts alone. -/
theorem text_mapLeaves_congr {f g : Predicate → Predicate} (same : ∀ p, (f p).text = (g p).text) (c : Condition) :
    (c.mapLeaves f).text = (c.mapLeaves g).text := by
  have parts {underAnd : Bool} {parts : List Condition}
      (ih : ∀ part ∈ parts, (part.mapLeaves f).text = (part.mapLeaves g).text) :
      parts.map (fun part => placed underAnd part (part.mapLeaves f).text) =
        parts.map fun part => placed underAnd part (part.mapLeaves g).text := by
    apply List.map_congr_left
    intro part mem
    rw [ih part mem]
  induction c using byParts with
  | and _ ih => rw [text_mapLeaves_and, text_mapLeaves_and, parts ih]
  | or _ ih => rw [text_mapLeaves_or, text_mapLeaves_or, parts ih]
  | not part ih => rw [text_mapLeaves_not, text_mapLeaves_not, ih]
  | leaf p => rw [text_mapLeaves_leaf, text_mapLeaves_leaf, same]

end Condition
end QueryCode
