import QueryCode.Proofs.Condition.Flatten
import QueryCode.Proofs.Condition.Taken

/-!
# Derivations without raw text

The derivation of a condition that has no raw text in it is made of predicates only. `Derived.leaves_induct` is the
induction for what concerns the predicates in order and the slices they come from. The first use of it is where a slice
ends: `Settles` says that only the last operand can leave a literal or a parenthesis open, and only with nothing after it.
-/

namespace QueryCode
set_option autoImplicit false

namespace Condition

open Text (Blank isClosed isBalanced)

/-- The slice was read as a predicate, where no `NOT` stands. -/
structure IsTest (slice after : Text) (p : Predicate) : Prop where
  first : startsWith "not" (slice ++ after) = false
  read : predicate (slice ++ after) = .ok (some (p, after))
  known : ∀ s, p ≠ .raw s

theorem IsTest.isRead {slice after : Text} {p : Predicate} (test : IsTest slice after p) : IsRead slice after p :=
  .test test.first test.read

section Derivations

variable {Leaf Leaf' : Text → Text → Predicate → Prop} {phrase : Phrase} {slice after : Text}

/-- What is known of the slices of the predicates in a derivation can be changed. -/
theorem Derived.mono (derived : Derived Leaf phrase slice after)
    (weaker : ∀ slice after, ∀ p ∈ phrase.leaves, Leaf slice after p → Leaf' slice after p) :
    Derived Leaf' phrase slice after := by
  induction derived with
  | leaf read => exact .leaf (weaker _ _ _ (by simp [Phrase.leaves, leaves]) read)
  | group closed list gap _ gap' ih => exact .group closed list gap (ih weaker) gap'
  | not keyword gap _ ih =>
    rw [Phrase.leaves, leaves] at weaker
    exact .not keyword gap (ih weaker)
  | alone _ ih =>
    rw [Phrase.leaves_part] at ih
    exact .alone (ih weaker)
  | several _ ih =>
    rw [Phrase.leaves, leaves_wrap] at weaker
    exact .several (ih weaker)
  | last _ ih =>
    rw [Phrase.leaves_part] at ih
    rw [Phrase.leaves, allLeaves, allLeaves, List.append_nil] at weaker
    exact .last (ih weaker)
  | more _ linked _ ih ihRest =>
    rw [Phrase.leaves_part] at ih
    rw [Phrase.leaves, allLeaves] at weaker
    exact .more (ih fun s a p mem => weaker s a p (List.mem_append_left _ mem)) linked
      (ihRest fun s a p mem => weaker s a p (List.mem_append_right _ mem))

/-- The induction for what concerns the predicates of a phrase and the slice they come from. -/
theorem Derived.leaves_induct {P : List Predicate → Text → Text → Prop} (derived : Derived Leaf phrase slice after)
    (leaf : ∀ slice after p, Leaf slice after p → P [p] slice after)
    (group : ∀ ps g slice g' after, Gap g → Gap g' → isBalanced (g ++ slice ++ g') = true → P ps slice g' →
      P ps ('(' :: (g ++ slice ++ g') ++ [')']) after)
    (not : ∀ ps words slice after, Wordy words → P ps slice after → P ps (words ++ slice) after)
    (more : ∀ ps qs slice link slice' after, Wordy link → ¬ Blank link → P ps slice (link ++ slice' ++ after) →
      P qs slice' after → P (ps ++ qs) (slice ++ link ++ slice') after) : P phrase.leaves slice after := by
  induction derived with
  | leaf read =>
    rw [Phrase.leaves, leaves]
    exact leaf _ _ _ read
  | group closed _ gap _ gap' ih => exact group _ _ _ _ _ gap gap' (Text.isBalanced_of_parenBody closed) ih
  | not keyword gap _ ih =>
    rw [Phrase.leaves, leaves]
    have word := wordy_of_lower (by decide : Text.isLowerWord "not".toList = true) keyword.letters
    exact not _ _ _ _ (wordy_append.2 ⟨word, wordy_of_gap gap⟩) ih
  | alone _ ih =>
    rw [Phrase.leaves_part] at ih
    exact ih
  | several _ ih =>
    rw [Phrase.leaves, leaves_wrap]
    exact ih
  | last _ ih =>
    rw [Phrase.leaves_part] at ih
    rw [Phrase.leaves, allLeaves, allLeaves, List.append_nil]
    exact ih
  | more _ linked _ ih ihRest =>
    rw [Phrase.leaves_part] at ih
    rw [Phrase.leaves, allLeaves]
    exact more _ _ _ _ _ _ linked.wordy linked.not_blank ih ihRest

/-- Each predicate of a derivation comes from a slice. -/
theorem Derived.exists_leaf (derived : Derived Leaf phrase slice after) : ∀ p ∈ phrase.leaves, ∃ s a, Leaf s a p :=
  derived.leaves_induct (P := fun ps _ _ => ∀ p ∈ ps, ∃ s a, Leaf s a p)
    (fun slice after _ read => List.forall_mem_singleton.2 ⟨slice, after, read⟩)
    (fun _ _ _ _ _ _ _ _ inner => inner) (fun _ _ _ _ _ inner => inner)
    (fun _ _ _ _ _ _ _ _ first rest => List.forall_mem_append.2 ⟨first, rest⟩)

theorem Derived.leaves_ne_nil (derived : Derived Leaf phrase slice after) : phrase.leaves ≠ [] :=
  derived.leaves_induct (P := fun ps _ _ => ps ≠ []) (fun _ _ _ _ => by simp) (fun _ _ _ _ _ _ _ _ inner => inner)
    (fun _ _ _ _ _ inner => inner) (fun _ _ _ _ _ _ _ _ _ rest => List.append_ne_nil_of_right_ne_nil _ rest)

/-- Every `AND` and every `OR` of a derivation has at least two parts. -/
theorem Derived.formed (derived : Derived Leaf phrase slice after) : ∀ c ∈ phrase.conditions, Formed c := by
  induction derived with
  | leaf => exact List.forall_mem_singleton.2 (.leaf _)
  | group _ _ _ _ _ ih => exact ih
  | not _ _ _ ih => exact List.forall_mem_singleton.2 (.not (ih _ List.mem_cons_self))
  | alone _ ih =>
    rw [Phrase.conditions_part] at ih
    exact ih
  | several _ ih => exact List.forall_mem_singleton.2 (.wrap _ (by simp) ih)
  | last _ ih =>
    rw [Phrase.conditions_part] at ih
    exact ih
  | more _ _ _ ih ihRest =>
    rw [Phrase.conditions_part] at ih
    exact List.forall_mem_cons.2 ⟨ih _ List.mem_cons_self, ihRest⟩

/-- Without raw text every predicate of a derivation was read as one. -/
theorem Derived.tests (derived : Derived IsRead phrase slice after) (known : ∀ s, .raw s ∉ phrase.leaves) :
    Derived IsTest phrase slice after := by
  refine derived.mono fun slice after p mem read => ?_
  cases read with
  | test first read => exact ⟨first, read, fun s same => known s (same ▸ mem)⟩
  | kept => exact absurd mem (known _)

end Derivations

/-! ## Open ends -/

/-- Where a slice ends inside a literal or parentheses, the last operand of its predicates does, and nothing follows. -/
structure Settles (ps : List Predicate) (slice after : Text) : Prop where
  followed : ¬ Blank after → isClosed slice = true
  closed : isClosed slice = true → ∀ p ∈ ps, isClosed p.lastOperand = true
  front : ∀ p ∈ ps.dropLast, isClosed p.lastOperand = true
  final : ∀ p ∈ ps.getLast?, isClosed p.lastOperand = false → p.lastOperand <:+ slice

section Settles

variable {ps qs : List Predicate} {slice slice' after : Text}

/-- A slice that is closed leaves nothing open. -/
theorem settles_of_closed (all : ∀ p ∈ ps, isClosed p.lastOperand = true) (closed : isClosed slice = true) :
    Settles ps slice after where
  followed := fun _ => closed
  closed := fun _ => all
  front := fun p mem => all p (List.dropLast_subset _ mem)
  final := fun p last unclosed => by
    rw [all p (List.mem_of_getLast? last)] at unclosed
    cases unclosed

theorem Settles.prepend {words : Text} (settles : Settles ps slice after) (wordy : Wordy words) :
    Settles ps (words ++ slice) after where
  followed := fun more => by
    rw [isClosed_plain_append wordy.plain]
    exact settles.followed more
  closed := by
    rw [isClosed_plain_append wordy.plain]
    exact settles.closed
  front := settles.front
  final := fun p last unclosed => (settles.final p last unclosed).trans (List.suffix_append _ _)

theorem Settles.append {link : Text} (first : Settles ps slice (link ++ slice' ++ after)) (rest : Settles qs slice' after)
    (filled : qs ≠ []) (wordy : Wordy link) (solid : ¬ Blank link) : Settles (ps ++ qs) (slice ++ link ++ slice') after := by
  have front : isClosed slice = true := first.followed fun blank => solid (Text.blank_append.1 (Text.blank_append.1 blank).1).1
  have same : isClosed (slice ++ link ++ slice') = isClosed slice' := by
    rw [List.append_assoc, wordy.isClosed_between solid front]
  refine ⟨?_, ?_, ?_, ?_⟩
  · rw [same]
    exact rest.followed
  · rw [same]
    exact fun closed => List.forall_mem_append.2 ⟨first.closed front, rest.closed closed⟩
  · rw [List.dropLast_append_of_ne_nil filled]
    exact List.forall_mem_append.2 ⟨first.closed front, rest.front⟩
  · rw [List.getLast?_append_of_ne_nil _ filled]
    exact fun p last unclosed => (rest.final p last unclosed).trans (List.suffix_append _ _)

theorem IsTest.settles {p : Predicate} (test : IsTest slice after p) : Settles [p] slice after := by
  obtain ⟨same, followed, final⟩ := isClosed_slice test.isRead.spelling test.known
  refine ⟨fun more => same.trans (followed more), fun closed => ?_, by simp, ?_⟩
  · exact List.forall_mem_singleton.2 (same.symm.trans closed)
  · rintro q last _
    cases last
    exact final

/-- **Only the last operand of a text can leave a literal or a parenthesis open.** -/
theorem Derived.settles {phrase : Phrase} (derived : Derived IsTest phrase slice after) :
    Settles phrase.leaves slice after := by
  refine (derived.leaves_induct (P := fun ps slice after => ps ≠ [] ∧ Settles ps slice after) ?_ ?_ ?_ ?_).2
  · exact fun _ _ _ test => ⟨by simp, test.settles⟩
  · rintro ps g slice g' after gap gap' balanced ⟨filled, inner⟩
    have front := Text.isClosed_of_append_plain (Text.isClosed_of_isBalanced balanced) (wordy_of_gap gap').plain
    rw [isClosed_plain_append (wordy_of_gap gap).plain] at front
    exact ⟨filled, settles_of_closed (inner.closed front) (Text.isClosed_of_isBalanced (Text.isBalanced_parens balanced))⟩
  · rintro ps words slice after wordy ⟨filled, inner⟩
    exact ⟨filled, inner.prepend wordy⟩
  · rintro ps qs slice link slice' after wordy solid ⟨_, first⟩ ⟨filled, rest⟩
    exact ⟨List.append_ne_nil_of_right_ne_nil _ filled, first.append rest filled wordy solid⟩

end Settles

/-! ## Conditions without raw text -/

/-- A condition without raw text was read from end to end. -/
theorem parse_derived {w : Text} {c : Condition} (read : parse w = .ok (some c)) (known : ∀ s, .raw s ∉ c.leaves) :
    ∃ slice trail, Text.trim w = slice ++ trail ∧ Blank trail ∧ Derived IsTest (.junction .or c) slice trail := by
  rcases parse_cases read with ⟨slice, trail, whole, blank, derived⟩ | ⟨d, slice, rest, _, _, rfl, _⟩ | ⟨rest, _, rfl⟩
  · exact ⟨slice, trail, whole, blank, derived.tests known⟩
  · exact absurd (by simp [leaves_addConjunct]) (known (Text.trim rest))
  · exact absurd (by simp [raw, leaves]) (known (')' :: rest))

end Condition
end QueryCode
