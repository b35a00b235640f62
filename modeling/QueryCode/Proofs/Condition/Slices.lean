import QueryCode.Proofs.Condition.Equality
import QueryCode.Proofs.Condition.Sound

/-!
# The slices of the leaves

A spelled condition is a row of slices, one for each leaf of the tree and in the order of the leaves, and what
stands between, before and after them is white space, parentheses and connectives. Together with the
grammar this says that reading neither drops nor invents anything.
-/

namespace QueryCode
set_option autoImplicit false

namespace Condition

/-- White space, parentheses and the words `AND`, `OR` and `NOT`. -/
inductive Glue : Text → Prop where
  | nil : Glue []
  | blank {c : Char} {t : Text} (space : Text.isBlank c = true) (rest : Glue t) : Glue (c :: t)
  | paren {c : Char} {t : Text} (bracket : c = '(' ∨ c = ')') (rest : Glue t) : Glue (c :: t)
  | word {kw : String} {slice t : Text} (listed : kw ∈ ["and", "or", "not"])
      (letters : Text.lower slice = kw.toList) (rest : Glue t) : Glue (slice ++ t)

/-- The slice is the predicate's own: it spells it somewhere, or it is raw text as it stands. -/
def Owns (slice : Text) (p : Predicate) : Prop := (∃ after, PredicateSpelling slice after p) ∨ p = .raw slice

/-- A text as the slices of some predicates in order, with glue around each of them. -/
inductive Woven : Text → List Predicate → Prop where
  | done {glue : Text} (last : Glue glue) : Woven glue []
  | next {glue slice rest : Text} {p : Predicate} {ps : List Predicate} (between : Glue glue)
      (owned : Owns slice p) (more : Woven rest ps) : Woven (glue ++ slice ++ rest) (p :: ps)

theorem Glue.append {s t : Text} (left : Glue s) (right : Glue t) : Glue (s ++ t) := by
  induction left with
  | nil => exact right
  | blank space _ ih => exact .blank space ih
  | paren bracket _ ih => exact .paren bracket ih
  | word listed letters _ ih =>
    rw [List.append_assoc]
    exact .word listed letters ih

theorem Glue.of_blank {t : Text} (blank : Text.Blank t) : Glue t := by
  induction t with
  | nil => exact .nil
  | cons c t ih =>
    have parts := List.forall_mem_cons.1 blank
    exact .blank parts.1 (ih parts.2)

theorem Glue.of_gap {t : Text} (gap : Gap t) : Glue t := .of_blank fun c mem => isBlank_of_isGap (gap c mem)

theorem Glue.of_word {kw : String} {slice : Text} (listed : kw ∈ ["and", "or", "not"])
    (letters : Text.lower slice = kw.toList) : Glue slice := by
  have glue := Glue.word listed letters .nil
  rwa [List.append_nil] at glue

theorem Glue.of_link {k : Connective} {link after : Text} (linked : LinkSpelling k.word link after) : Glue link := by
  cases linked with
  | link gap keyword gap' =>
    have listed : k.word ∈ ["and", "or", "not"] := by cases k <;> decide
    exact ((Glue.of_gap gap).append (.of_word listed keyword.letters)).append (.of_gap gap')

theorem Woven.glue_append {g t : Text} {ps : List Predicate} (glue : Glue g) (woven : Woven t ps) :
    Woven (g ++ t) ps := by
  cases woven with
  | done last => exact .done (glue.append last)
  | next between owned more =>
    have joined := Woven.next (glue.append between) owned more
    simpa using joined

theorem Woven.append {s t : Text} {ps qs : List Predicate} (left : Woven s ps) (right : Woven t qs) :
    Woven (s ++ t) (ps ++ qs) := by
  induction left with
  | done last => exact right.glue_append last
  | next between owned _ ih =>
    have joined := Woven.next between owned ih
    simpa using joined

theorem Woven.append_glue {t g : Text} {ps : List Predicate} (woven : Woven t ps) (glue : Glue g) :
    Woven (t ++ g) ps := by
  have joined := woven.append (.done glue)
  rwa [List.append_nil] at joined

theorem Woven.single {slice : Text} {p : Predicate} (owned : Owns slice p) : Woven slice [p] := by
  have joined := Woven.next .nil owned (.done .nil)
  simpa using joined

theorem Woven.raw (t : Text) : Woven t [.raw t] := .single (.inr rfl)

/-- The leaves of what a phrase stands for. -/
def Phrase.leaves : Phrase → List Predicate
  | .unary c => c.leaves
  | .junction _ c => c.leaves
  | .parts _ cs => allLeaves cs

theorem Phrase.leaves_part (k : Connective) (c : Condition) : (Phrase.part k c).leaves = c.leaves := by
  cases k <;> rfl

theorem leaves_wrap (k : Connective) (cs : List Condition) : (k.wrap cs).leaves = allLeaves cs := by
  cases k <;> rw [Connective.wrap, leaves]

/-- **A spelling is woven from the slices of its leaves.** -/
theorem Spelling.woven {phrase : Phrase} {slice after : Text} (spelled : Spelling phrase slice after) :
    Woven slice phrase.leaves := by
  induction spelled with
  | leaf spelled =>
    rw [Phrase.leaves, leaves]
    exact .single (.inl ⟨_, spelled⟩)
  | group _ gap _ gap' ih =>
    have inside := (ih.glue_append (.of_gap gap)).append_glue (.of_gap gap')
    have opened := inside.glue_append (.paren (.inl rfl) .nil)
    exact opened.append_glue (.paren (.inr rfl) .nil)
  | not keyword gap _ ih =>
    rw [Phrase.leaves, leaves, List.append_assoc]
    have word := Glue.of_word (by decide) keyword.letters
    exact (ih.glue_append (.of_gap gap)).glue_append word
  | alone _ ih =>
    rw [Phrase.leaves_part] at ih
    exact ih
  | several _ ih =>
    rw [Phrase.leaves, leaves_wrap]
    exact ih
  | last _ ih =>
    rw [Phrase.leaves_part] at ih
    simpa [Phrase.leaves, allLeaves] using ih
  | more _ linked _ ih ihRest =>
    rw [Phrase.leaves_part] at ih
    rw [Phrase.leaves, allLeaves]
    exact (ih.append_glue (.of_link linked)).append ihRest

theorem allLeaves_append (cs ds : List Condition) : allLeaves (cs ++ ds) = allLeaves cs ++ allLeaves ds := by
  induction cs with
  | nil => rfl
  | cons c cs ih => rw [List.cons_append, allLeaves, allLeaves, ih, List.append_assoc]

/-- The last conjunct comes after all the leaves before it. -/
theorem leaves_addConjunct (c : Condition) (rest : Text) :
    (addConjunct c (Condition.raw rest)).leaves = c.leaves ++ [.raw rest] := by
  unfold addConjunct
  split
  · rw [leaves, leaves, allLeaves_append]
    rfl
  · rw [leaves]
    rfl

theorem Reading.woven {w : Text} {c : Condition} (reading : Reading w c) : Woven w c.leaves := by
  cases reading with
  | whole before spelled after after' =>
    have opened := spelled.woven.glue_append (.of_blank before)
    exact (opened.append_glue (.of_blank after)).append_glue (.of_blank after')
  | @remainder _ _ _ rest _ _ _ before spelled apart _ _ after after' =>
    rw [leaves_addConjunct]
    have opened := spelled.woven.glue_append (.of_blank before)
    have last := (Woven.raw rest).glue_append (.of_blank apart)
    exact (opened.append (last.append_glue (.of_blank after))).append_glue (.of_blank after')
  | @unread _ rest _ before _ after =>
    have opened := (Woven.raw (')' :: rest)).glue_append (.of_blank before)
    exact opened.append_glue (.of_blank after)

/-- **Reading accounts for the whole text.** The text spells the tree by the grammar, but for a remainder that is
kept as one last conjunct, and it is the slices of the leaves in order with nothing but white space,
parentheses and connectives around them. -/
theorem parse_accounts_for_text {w : Text} {tree : Condition} (read : parse w = .ok (some tree)) :
    Reading w tree ∧ Woven w tree.leaves :=
  ⟨parse_reading read, (parse_reading read).woven⟩

/-- Nested connectives, every kind of field and literal, and a remainder after a parenthesis too many. -/
theorem parse_accounts_for_text_nested :
    let w := "NOT \x60a\x60.b <> 1 aND (c NOT like 'it''s' Or d iN (1, 'x,y') )) tail ".toList
    let tree : Condition := .and [
      .not (.leaf (.comparison "a.b".toList .ne "1".toList)),
      .or [.leaf (.like "c".toList true "it's".toList false),
        .leaf (.inList "d".toList false ["1".toList, "'x,y'".toList])],
      Condition.raw ") tail".toList]
    parse w = .ok (some tree) ∧ Reading w tree ∧ Woven w tree.leaves := by
  intro w tree
  have read : parse w = .ok (some tree) := by decide +kernel
  exact ⟨read, parse_accounts_for_text read⟩

end Condition
end QueryCode
