import QueryCode.Proofs.Condition.Token

/-!
# Derivations of conditions

A derivation follows the readers of the grammar through a text. It has the steps of a spelling and keeps what the
readers saw on the way: the inside of a group is no query, and each predicate comes with what is known of its slice, here
called `Leaf`. `IsRead` says that the predicate was read where no `NOT` stands, or kept because no predicate was found.
-/

namespace QueryCode
set_option autoImplicit false

namespace Condition

/-- The conditions that a phrase stands for, one after the other. -/
def Phrase.conditions : Phrase → List Condition
  | .unary c => [c]
  | .junction _ c => [c]
  | .parts _ cs => cs

theorem Phrase.conditions_part (k : Connective) (c : Condition) : (Phrase.part k c).conditions = [c] := by
  cases k <;> rfl

/-- The slice was read as the predicate where `after` follows it. -/
inductive IsRead : Text → Text → Predicate → Prop where
  | test {slice after : Text} {p : Predicate} (first : startsWith "not" (slice ++ after) = false)
      (read : predicate (slice ++ after) = .ok (some (p, after))) : IsRead slice after p
  | kept {slice after : Text} (operand : IsOperand slice after) : IsRead slice after (.raw slice)

/-- **The steps of the readers**: the slice was taken as the phrase where `after` follows it. -/
inductive Derived (Leaf : Text → Text → Predicate → Prop) : Phrase → Text → Text → Prop where
  | leaf {slice after : Text} {p : Predicate} (read : Leaf slice after p) : Derived Leaf (.unary (.leaf p)) slice after
  | group {g slice g' after : Text} {c : Condition} (closed : IsBody (g ++ slice ++ g') after)
      (list : startsWith "select" (Text.trimStart (g ++ slice ++ g')) = false) (gap : Gap g)
      (inner : Derived Leaf (.junction .or c) slice g') (gap' : Gap g') :
      Derived Leaf (.unary c) ('(' :: (g ++ slice ++ g') ++ [')']) after
  | not {word g slice after : Text} {c : Condition} (keyword : IsKeyword "not" word (g ++ slice ++ after))
      (gap : Gap g) (inner : Derived Leaf (.unary c) slice after) :
      Derived Leaf (.unary (.not c)) (word ++ g ++ slice) after
  | alone {k : Connective} {slice after : Text} {c : Condition} (part : Derived Leaf (Phrase.part k c) slice after) :
      Derived Leaf (.junction k c) slice after
  | several {k : Connective} {slice after : Text} {c d : Condition} {more : List Condition}
      (parts : Derived Leaf (.parts k (c :: d :: more)) slice after) :
      Derived Leaf (.junction k (k.wrap (c :: d :: more))) slice after
  | last {k : Connective} {slice after : Text} {c : Condition} (part : Derived Leaf (Phrase.part k c) slice after) :
      Derived Leaf (.parts k [c]) slice after
  | more {k : Connective} {slice link slice' after : Text} {c : Condition} {cs : List Condition}
      (part : Derived Leaf (Phrase.part k c) slice (link ++ slice' ++ after))
      (linked : LinkSpelling k.word link (slice' ++ after)) (rest : Derived Leaf (.parts k cs) slice' after) :
      Derived Leaf (.parts k (c :: cs)) (slice ++ link ++ slice') after

variable {Leaf : Text → Text → Predicate → Prop} {phrase : Phrase} {slice after : Text}

/-- A derivation whose predicates are spelled by their slices is a spelling. -/
theorem Derived.spelling (derived : Derived Leaf phrase slice after)
    (spelled : ∀ slice after p, Leaf slice after p → PredicateSpelling slice after p) : Spelling phrase slice after := by
  induction derived with
  | leaf read => exact .leaf (spelled _ _ _ read)
  | group closed _ gap _ gap' ih => exact .group closed gap ih gap'
  | not keyword gap _ ih => exact .not keyword gap ih
  | alone _ ih => exact .alone ih
  | several _ ih => exact .several ih
  | last _ ih => exact .last ih
  | more _ linked _ ih ih' => exact .more ih linked ih'

end Condition
end QueryCode
