import QueryCode.Proofs.Condition.RoundTrip
import QueryCode.Proofs.Condition.Slices

/-!
# Flat conditions

An `AND` right under an `AND` says no more than its parts do, and the same goes for `OR`. `flatten` merges them; the
result is canonical, has the same predicates and the same text, and has the same texts in parentheses there.
-/

namespace QueryCode
set_option autoImplicit false

namespace Condition

namespace Connective

/-- The connective is the `AND` of the printer. -/
def underAnd : Connective → Bool
  | .and => true
  | .or => false

/-- The root of the condition is this connective. -/
def heads : Connective → Condition → Bool
  | .and => isAnd
  | .or => isOr

/-- The parts under the connective that a condition stands for: its own, if its root is the same connective. -/
def unwrap : Connective → Condition → List Condition
  | .and, .and parts => parts
  | .or, .or parts => parts
  | _, c => [c]

end Connective

mutual

/-- The condition with every `AND` right under an `AND`, and every `OR` right under an `OR`, merged into it. -/
def flatten : Condition → Condition
  | .and parts => .and (flattenParts .and parts)
  | .or parts => .or (flattenParts .or parts)
  | .not part => .not (flatten part)
  | .leaf predicate => .leaf predicate

/-- The flat parts of the conditions under a connective. -/
def flattenParts (k : Connective) : List Condition → List Condition
  | [] => []
  | part :: more => k.unwrap (flatten part) ++ flattenParts k more

end

/-- Every `AND` and every `OR` has at least two parts. -/
inductive Formed : Condition → Prop where
  | leaf (p : Predicate) : Formed (.leaf p)
  | not {part : Condition} (inner : Formed part) : Formed (.not part)
  | wrap (k : Connective) {parts : List Condition} (several : 2 ≤ parts.length) (each : ∀ part ∈ parts, Formed part) :
      Formed (k.wrap parts)

/-! ## Parts under a connective -/

section Wrap

variable (k : Connective) (parts : List Condition)

theorem flatten_wrap : (k.wrap parts).flatten = k.wrap (flattenParts k parts) := by
  cases k <;> rw [Connective.wrap, flatten]

theorem text_wrap : (k.wrap parts).text = partsText k.underAnd parts := by
  cases k <;> rw [Connective.wrap, text, Connective.underAnd]

theorem enclosed_wrap : (k.wrap parts).enclosed = partsEnclosed k.underAnd parts := by
  cases k <;> rw [Connective.wrap, enclosed, Connective.underAnd]

end Wrap

theorem isOr_flatten (c : Condition) : c.flatten.isOr = c.isOr := by
  cases c <;> rw [flatten] <;> rfl

theorem isLeaf_flatten (c : Condition) : c.flatten.isLeaf = c.isLeaf := by
  cases c <;> rw [flatten] <;> rfl

theorem canonical_wrap {k : Connective} {parts : List Condition} (several : 2 ≤ parts.length)
    (each : ∀ part ∈ parts, Canonical part) (flat : ∀ part ∈ parts, k.heads part = false) : Canonical (k.wrap parts) := by
  cases k with
  | and => exact .and several each flat
  | or => exact .or several each flat

/-- A condition has another root than the connective, or is made of its parts by it. -/
theorem unwrap_cases (k : Connective) (c : Condition) :
    (k.unwrap c = [c] ∧ k.heads c = false) ∨ ∃ parts, c = k.wrap parts ∧ k.unwrap c = parts := by
  cases k <;> cases c <;> first | exact .inl ⟨rfl, rfl⟩ | exact .inr ⟨_, rfl, rfl⟩

theorem Canonical.of_wrap {k : Connective} {parts : List Condition} (canonical : Canonical (k.wrap parts)) :
    2 ≤ parts.length ∧ (∀ part ∈ parts, Canonical part) ∧ ∀ part ∈ parts, k.heads part = false := by
  cases k with
  | and =>
    cases canonical with
    | and several each flat => exact ⟨several, each, flat⟩
  | or =>
    cases canonical with
    | or several each flat => exact ⟨several, each, flat⟩

/-- The parts that a canonical condition adds to a connective around it. -/
theorem Canonical.unwrap {k : Connective} {c : Condition} (canonical : Canonical c) :
    k.unwrap c ≠ [] ∧ ∀ part ∈ k.unwrap c, Canonical part ∧ k.heads part = false := by
  rcases unwrap_cases k c with ⟨same, other⟩ | ⟨parts, rfl, same⟩
  · rw [same]
    exact ⟨by simp, List.forall_mem_singleton.2 ⟨canonical, other⟩⟩
  · obtain ⟨several, each, flat⟩ := canonical.of_wrap
    rw [same]
    exact ⟨List.ne_nil_of_length_pos (by omega), fun part mem => ⟨each part mem, flat part mem⟩⟩

theorem mem_flattenParts {k : Connective} {c : Condition} {parts : List Condition} :
    c ∈ flattenParts k parts ↔ ∃ part ∈ parts, c ∈ k.unwrap part.flatten := by
  induction parts with
  | nil => simp [flattenParts]
  | cons part more ih => simp [flattenParts, ih]

theorem length_flattenParts {k : Connective} {parts : List Condition} (solid : ∀ part ∈ parts, k.unwrap part.flatten ≠ []) :
    parts.length ≤ (flattenParts k parts).length := by
  induction parts with
  | nil => exact Nat.zero_le _
  | cons part more ih =>
    rw [List.forall_mem_cons] at solid
    have first := List.length_pos_of_ne_nil solid.1
    have rest := ih solid.2
    rw [flattenParts, List.length_append, List.length_cons]
    omega

/-- **Flattening makes a condition canonical.** -/
theorem Formed.canonical_flatten {c : Condition} (formed : Formed c) : Canonical c.flatten := by
  induction formed with
  | leaf p =>
    rw [flatten]
    exact .leaf p
  | not _ ih =>
    rw [flatten]
    exact .not ih
  | wrap k several each ih =>
    rw [flatten_wrap]
    have long := length_flattenParts fun part mem => ((ih part mem).unwrap (k := k)).1
    refine canonical_wrap (by omega) (fun c mem => ?_) fun c mem => ?_
    · obtain ⟨part, listed, inside⟩ := mem_flattenParts.1 mem
      exact ((ih part listed).unwrap.2 c inside).1
    · obtain ⟨part, listed, inside⟩ := mem_flattenParts.1 mem
      exact ((ih part listed).unwrap.2 c inside).2

/-! ## Predicates -/

theorem allLeaves_unwrap (k : Connective) (c : Condition) : allLeaves (k.unwrap c) = c.leaves := by
  rcases unwrap_cases k c with ⟨same, _⟩ | ⟨parts, rfl, same⟩
  · rw [same, allLeaves, allLeaves, List.append_nil]
  · rw [same, leaves_wrap]

/-- Flattening keeps the predicates. -/
theorem Formed.leaves_flatten {c : Condition} (formed : Formed c) : c.flatten.leaves = c.leaves := by
  induction formed with
  | leaf p => rw [flatten]
  | not _ ih => rw [flatten, leaves, leaves, ih]
  | @wrap k parts _ _ ih =>
    have each : allLeaves (flattenParts k parts) = allLeaves parts := by
      clear * - ih
      induction parts with
      | nil => rfl
      | cons part more tail =>
        rw [List.forall_mem_cons] at ih
        rw [flattenParts, allLeaves_append, allLeaves_unwrap, ih.1, tail ih.2, allLeaves]
    rw [flatten_wrap, leaves_wrap, leaves_wrap, each]

/-! ## Texts -/

theorem partsText_append (underAnd : Bool) {cs ds : List Condition} (filled : cs ≠ []) (filled' : ds ≠ []) :
    partsText underAnd (cs ++ ds) = partsText underAnd cs ++ (joiner underAnd ++ partsText underAnd ds) := by
  obtain ⟨d, ds, rfl⟩ := List.exists_cons_of_ne_nil filled'
  induction cs with
  | nil => exact absurd rfl filled
  | cons c cs ih =>
    cases cs with
    | nil => rw [List.singleton_append, partsText_cons, partsText_single]
    | cons c' cs =>
      rw [List.cons_append, List.cons_append, partsText_cons, partsText_cons, ← List.cons_append, ih (by simp)]
      simp

/-- A condition adds its own text to the connective around it. -/
theorem partsText_unwrap (k : Connective) (c : Condition) : partsText k.underAnd (k.unwrap c) = partText k.underAnd c := by
  rcases unwrap_cases k c with ⟨same, _⟩ | ⟨parts, rfl, same⟩
  · rw [same, partsText_single]
  · have absent : (k.underAnd && (k.wrap parts).isOr) = false := by cases k <;> rfl
    rw [same, partText, absent, bracket_false, text_wrap]

theorem partsEnclosed_append (underAnd : Bool) (cs ds : List Condition) :
    partsEnclosed underAnd (cs ++ ds) = partsEnclosed underAnd cs ++ partsEnclosed underAnd ds := by
  induction cs with
  | nil => rfl
  | cons c cs ih => rw [List.cons_append, partsEnclosed, partsEnclosed, ih, List.append_assoc _ _ (partsEnclosed underAnd ds)]

theorem partsEnclosed_unwrap (k : Connective) (c : Condition) :
    partsEnclosed k.underAnd (k.unwrap c) = partsEnclosed k.underAnd [c] := by
  rcases unwrap_cases k c with ⟨same, _⟩ | ⟨parts, rfl, same⟩
  · rw [same]
  · have absent : (k.underAnd && (k.wrap parts).isOr) = false := by cases k <;> rfl
    rw [same, partsEnclosed, partsEnclosed, absent, enclosed_wrap]
    simp

/-- Flattening keeps the text. -/
theorem Formed.text_flatten {c : Condition} (formed : Formed c) : c.flatten.text = c.text := by
  induction formed with
  | leaf p => rw [flatten]
  | not _ ih => rw [flatten, text, text, isLeaf_flatten, ih]
  | @wrap k parts _ each ih =>
    have parts : partsText k.underAnd (flattenParts k parts) = partsText k.underAnd parts := by
      clear * - each ih
      induction parts with
      | nil => rfl
      | cons part more tail =>
        rw [List.forall_mem_cons] at each ih
        have first : partsText k.underAnd (k.unwrap part.flatten) = partText k.underAnd part := by
          rw [partsText_unwrap, partText, isOr_flatten, ih.1, partText]
        cases more with
        | nil => rw [flattenParts, flattenParts, List.append_nil, first, partsText_single]
        | cons next more =>
          have filled := (each.1.canonical_flatten.unwrap (k := k)).1
          have filled' : flattenParts k (next :: more) ≠ [] := by
            simp [flattenParts, ((each.2 next List.mem_cons_self).canonical_flatten.unwrap (k := k)).1]
          rw [flattenParts, partsText_append _ filled filled', first, tail each.2 ih.2, partsText_cons]
    rw [flatten_wrap, text_wrap, text_wrap, parts]

/-- Flattening keeps what stands in parentheses in the text. -/
theorem Formed.enclosed_flatten {c : Condition} (formed : Formed c) : c.flatten.enclosed = c.enclosed := by
  induction formed with
  | leaf p => rw [flatten]
  | not inner ih => rw [flatten, enclosed, enclosed, isLeaf_flatten, inner.text_flatten, ih]
  | @wrap k parts _ each ih =>
    have parts : partsEnclosed k.underAnd (flattenParts k parts) = partsEnclosed k.underAnd parts := by
      clear * - each ih
      induction parts with
      | nil => rfl
      | cons part more tail =>
        rw [List.forall_mem_cons] at each ih
        rw [flattenParts, partsEnclosed_append, partsEnclosed_unwrap, tail each.2 ih.2]
        simp only [partsEnclosed, isOr_flatten, each.1.text_flatten, ih.1, List.append_nil]
    rw [flatten_wrap, enclosed_wrap, enclosed_wrap, parts]

end Condition
end QueryCode
