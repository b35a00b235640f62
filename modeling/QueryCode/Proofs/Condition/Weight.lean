import QueryCode.Proofs.Condition.Settled

/-!
# The quotes of a condition

Reading can drop the backticks around a name, and printing can add single quotes to a literal, but neither does the
reverse. So the backticks of a text less its single quotes, its `weight`, never grow from a text that was read to the text
of the condition. Where they stay the same, every name in the text was bare and every pattern was quoted as the printer
quotes it.
-/

namespace QueryCode
set_option autoImplicit false

namespace Condition

open Predicate (doubleQuotes)

/-- The backticks of a text less its single quotes. -/
def weight (t : Text) : Int := t.count '\x60' - t.count '\''

theorem weight_append (s t : Text) : weight (s ++ t) = weight s + weight t := by
  simp only [weight, List.count_append]
  omega

theorem weight_of_wordy {t : Text} (wordy : Wordy t) : weight t = 0 := by
  have ticks : '\x60' ∉ t := fun mem => absurd (wordy _ mem) (by decide)
  have quotes : '\'' ∉ t := fun mem => absurd (wordy _ mem) (by decide)
  rw [weight, List.count_eq_zero_of_not_mem ticks, List.count_eq_zero_of_not_mem quotes]
  rfl

/-- Words between two texts weigh nothing. -/
theorem weight_around {s words t : Text} (wordy : Wordy words) : weight (s ++ (words ++ t)) = weight s + weight t := by
  rw [weight_append, weight_append, weight_of_wordy wordy, Int.zero_add]

theorem weight_parens (t : Text) : weight ('(' :: t ++ [')']) = weight t := by
  have split : '(' :: t ++ [')'] = ['('] ++ t ++ [')'] := rfl
  rw [split, weight_append, weight_append]
  exact (Int.add_zero _).trans (Int.zero_add _)

theorem weight_bracket (brackets : Bool) (t : Text) : weight (bracket brackets t) = weight t := by
  cases brackets with
  | true => rw [bracket_true, weight_parens]
  | false => rw [bracket_false]

theorem weight_trim (t : Text) : weight (Text.trim t) = weight t := by
  rw [weight, Text.count_trim (by decide +kernel), Text.count_trim (by decide +kernel), weight]

/-! ## Names -/

theorem weight_of_name {slice name : Text} (named : NameSpelling slice name) :
    (slice = name ∧ isName name = true) ∨ weight slice = weight name + 2 := by
  cases named with
  | bare start tail => exact .inl ⟨rfl, by rw [isName, start, Bool.true_and, List.all_eq_true]; exact tail⟩
  | ticked =>
    have split : '\x60' :: name ++ ['\x60'] = ['\x60'] ++ name ++ ['\x60'] := rfl
    refine .inr ?_
    rw [split, weight_append, weight_append, Int.add_comm (weight ['\x60']), Int.add_assoc]
    rfl

/-- A field weighs no more than its spelling, and as much only where it is bare. -/
theorem weight_of_field {slice field : Text} (named : FieldSpelling slice field) :
    weight field ≤ weight slice ∧ (weight slice ≤ weight field → slice = field ∧ ∃ head, BareField head field) := by
  cases named with
  | plain named =>
    rcases weight_of_name named with ⟨rfl, bare⟩ | heavy
    · exact ⟨Int.le_refl _, fun _ => ⟨rfl, _, .plain bare⟩⟩
    · exact ⟨by omega, fun light => by omega⟩
  | @qualified slice name slice' name' table column =>
    have point : Wordy ['.'] := by decide
    have split (s t : Text) : weight (s ++ '.' :: t) = weight s + weight t := weight_around point
    rw [split, split]
    rcases weight_of_name table with ⟨rfl, bare⟩ | heavy <;> rcases weight_of_name column with ⟨rfl, bare'⟩ | heavy'
    · exact ⟨Int.le_refl _, fun _ => ⟨rfl, _, .qualified bare bare'⟩⟩
    all_goals exact ⟨by omega, fun light => by omega⟩

/-! ## Literals -/

theorem count_doubleQuotes_other {c : Char} (other : c ≠ '\'') (t : Text) : (doubleQuotes t).count c = t.count c := by
  induction t with
  | nil => rfl
  | cons d t ih =>
    by_cases quote : d = '\''
    · subst quote
      rw [doubleQuotes_quote, List.count_cons_of_ne (Ne.symm other), List.count_cons_of_ne (Ne.symm other),
        List.count_cons_of_ne (Ne.symm other), ih]
    · rw [doubleQuotes_other quote, List.count_cons, List.count_cons, ih]

theorem count_doubleQuotes (t : Text) : (doubleQuotes t).count '\'' = 2 * t.count '\'' := by
  induction t with
  | nil => rfl
  | cons d t ih =>
    by_cases quote : d = '\''
    · subst quote
      rw [doubleQuotes_quote, List.count_cons_self, List.count_cons_self, List.count_cons_self, ih]
      omega
    · rw [doubleQuotes_other quote, List.count_cons_of_ne quote, List.count_cons_of_ne quote, ih]

theorem weight_quoted (pattern : Text) : weight (quoted pattern) = pattern.count '\x60' - 2 * pattern.count '\'' - 2 := by
  simp only [weight, quoted, List.cons_append, List.count_cons, List.count_append, count_doubleQuotes,
    count_doubleQuotes_other (show '\x60' ≠ '\'' by decide)]
  simp
  omega

theorem count_undouble_other {quote c : Char} (other : c ≠ quote) (t : Text) :
    (Literal.undouble quote t).count c = t.count c := by
  fun_induction Literal.undouble quote t with
  | case1 => rfl
  | case2 => rfl
  | case3 d e rest both ih =>
    simp only [Bool.and_eq_true, beq_iff_eq] at both
    rw [both.1, both.2, List.count_cons_of_ne (Ne.symm other), List.count_cons_of_ne (Ne.symm other),
      List.count_cons_of_ne (Ne.symm other), ih]
  | case4 d e rest _ ih => rw [List.count_cons, ih, ← List.count_cons]

/-- Doubled quotes count once, so at least half of them are left, and half of them only where all were doubled. -/
theorem count_undouble (t : Text) : t.count '\'' ≤ 2 * (Literal.undouble '\'' t).count '\'' ∧
    (2 * (Literal.undouble '\'' t).count '\'' ≤ t.count '\'' → doubleQuotes (Literal.undouble '\'' t) = t) := by
  fun_induction Literal.undouble '\'' t with
  | case1 => exact ⟨Nat.le_refl _, fun _ => rfl⟩
  | case2 c =>
    by_cases quote : c = '\''
    · subst quote
      exact ⟨by decide, fun few => absurd few (by decide)⟩
    · exact ⟨by omega, fun _ => doubleQuotes_other quote []⟩
  | case3 d e rest both ih =>
    simp only [Bool.and_eq_true, beq_iff_eq] at both
    obtain ⟨rfl, rfl⟩ := both
    simp only [List.count_cons_self]
    refine ⟨by omega, fun few => ?_⟩
    rw [doubleQuotes_quote, ih.2 (by omega)]
  | case4 d e rest _ ih =>
    by_cases quote : d = '\''
    · subst quote
      simp only [List.count_cons_self]
      exact ⟨by omega, fun few => by omega⟩
    · rw [List.count_cons_of_ne quote, List.count_cons_of_ne quote]
      refine ⟨ih.1, fun few => ?_⟩
      rw [doubleQuotes_other quote, ih.2 few]

/-- A pattern in the printer's quotes weighs no more than the literal it was read from, and as much only where the
printer's quotes were used. -/
theorem weight_of_literal {literal pattern : Text} (spelled : LiteralSpelling literal pattern) :
    weight (quoted pattern) ≤ weight literal ∧
      (weight literal ≤ weight (quoted pattern) → Quoted '\'' (doubleQuotes pattern)) := by
  cases spelled with
  | @quoted quote body opening inside =>
    have split : quote :: body ++ [quote] = [quote] ++ body ++ [quote] := rfl
    have ticks : (Literal.undouble quote body).count '\x60' = body.count '\x60' :=
      count_undouble_other (by rintro rfl; cases opening) body
    rw [weight_quoted, ticks, split, weight_append, weight_append]
    simp only [Text.isQuote, Bool.or_eq_true, beq_iff_eq] at opening
    rcases opening with rfl | rfl
    · have few := count_undouble body
      have single : weight ['\''] = -1 := by decide
      rw [single, weight]
      refine ⟨by omega, fun light => ?_⟩
      rw [few.2 (by omega)]
      exact inside
    · have same := count_undouble_other (show '\'' ≠ '"' by decide) body
      have double : weight ['"'] = 0 := by decide
      rw [double, weight, same]
      exact ⟨by omega, fun light => by omega⟩

/-! ## Predicates -/

theorem count_join {c : Char} (comma : c ≠ ',') (space : c ≠ ' ') (values : List Text) :
    (Text.join ", " values).count c = values.flatten.count c := by
  have empty : ", ".toList.count c = 0 := List.count_eq_zero_of_not_mem (by simp [comma, space])
  induction values with
  | nil => rfl
  | cons v more ih =>
    cases more with
    | nil => rw [Text.join_singleton, List.flatten_singleton]
    | cons w more =>
      rw [Text.join_cons_cons, List.count_append, List.count_append, empty, ih, Nat.zero_add, List.flatten_cons (l := v),
        List.count_append]

/-- The values of a list weigh what the list does. -/
theorem weight_join {body : Text} {values : List Text} (balanced : Text.isBalanced body = true)
    (items : Text.splitTop ',' body = .ok values) : weight (Text.join ", " values) = weight body := by
  obtain ⟨pieces, split, rfl⟩ := Text.pieces_of_splitTop balanced items
  rw [weight, count_join (by decide) (by decide), count_join (by decide) (by decide),
    split.count (by decide) (by decide +kernel), split.count (by decide) (by decide +kernel), weight]

/-- The end of a predicate weighs no more than what its field was tested against, and as much only where a pattern stood
in the printer's quotes. -/
theorem TestSpelling.weight_le {after tail : Text} {p : Predicate} (test : TestSpelling after tail p) :
    weight (ending p) ≤ weight tail ∧
      (weight tail ≤ weight (ending p) → ∀ pattern ∈ p.pattern?, Quoted '\'' (doubleQuotes pattern)) := by
  have same {s t : Text} (equal : weight s = weight t) (missing : p.pattern? = none) : weight s ≤ weight t ∧
      (weight t ≤ weight s → ∀ pattern ∈ p.pattern?, Quoted '\'' (doubleQuotes pattern)) :=
    ⟨Int.le_of_eq equal, fun _ => by simp [missing]⟩
  cases test with
  | comparison => exact same rfl rfl
  | like spelled =>
    obtain ⟨light, restated⟩ := weight_of_literal spelled
    refine ⟨light, fun heavy => ?_⟩
    rintro _ ⟨⟩
    exact restated heavy
  | inList balanced _ items =>
    refine same ?_ rfl
    rw [ending, weight_parens, weight_parens, weight_join balanced items]
  | inQuery =>
    refine same ?_ rfl
    rw [ending, weight_parens, weight_parens, weight_trim]
  | between _ linked _ =>
    refine same ?_ rfl
    rw [ending, weight_around (by decide), weight_around linked.wordy]
  | isNull => exact same (weight_of_wordy (by decide : Wordy "NULL".toList)) rfl

/-- The slice was read as the predicate and has its field bare and its pattern in the printer's quotes. -/
structure IsTight (slice after : Text) (p : Predicate) : Prop extends IsTest slice after p where
  bare : ∃ head field, p.field? = some field ∧ BareField head field ∧ field <+: slice
  quoted : ∀ pattern ∈ p.pattern?, Quoted '\'' (doubleQuotes pattern)

section Tests

variable {slice after : Text} {p : Predicate} (test : IsTest slice after p)
include test

/-- **A predicate weighs no more than the slice it was read from.** -/
theorem IsTest.weight_le : weight p.text ≤ weight slice := by
  obtain ⟨f, field, words, tail, cut⟩ := exists_cut test.isRead.spelling test.known
  obtain ⟨words', wordy, text⟩ := exists_words cut.tested
  have spaced : Wordy (' ' :: words') := List.forall_mem_cons.2 ⟨by decide, wordy⟩
  have first := (weight_of_field cut.named).1
  have second := cut.test.weight_le.1
  rw [text, cut.split, weight_around spaced, weight_around cut.wordy]
  omega

/-- Where it weighs as much, nothing but words and white space can differ. -/
theorem IsTest.tight (heavy : weight slice ≤ weight p.text) : IsTight slice after p := by
  obtain ⟨f, field, words, tail, cut⟩ := exists_cut test.isRead.spelling test.known
  obtain ⟨words', wordy, text⟩ := exists_words cut.tested
  have spaced : Wordy (' ' :: words') := List.forall_mem_cons.2 ⟨by decide, wordy⟩
  obtain ⟨light, bare⟩ := weight_of_field cut.named
  obtain ⟨light', quoted⟩ := cut.test.weight_le
  rw [text, cut.split, weight_around spaced, weight_around cut.wordy] at heavy
  obtain ⟨rfl, head, named⟩ := bare (by omega)
  refine ⟨test, ⟨head, f, cut.tested, named, ?_⟩, quoted (by omega)⟩
  rw [cut.split]
  exact List.prefix_append _ _

end Tests

/-! ## Conditions -/

/-- What the texts of some predicates weigh. -/
def totalWeight (ps : List Predicate) : Int := weight (ps.flatMap Predicate.text)

theorem totalWeight_append (ps qs : List Predicate) : totalWeight (ps ++ qs) = totalWeight ps + totalWeight qs := by
  rw [totalWeight, List.flatMap_append, weight_append, totalWeight, totalWeight]

theorem totalWeight_singleton (p : Predicate) : totalWeight [p] = weight p.text := by
  rw [totalWeight, List.flatMap_singleton]

theorem weight_partsText (underAnd : Bool) {parts : List Condition}
    (each : ∀ part ∈ parts, weight part.text = totalWeight part.leaves) :
    weight (partsText underAnd parts) = totalWeight (allLeaves parts) := by
  induction parts with
  | nil => rfl
  | cons part more ih =>
    rw [List.forall_mem_cons] at each
    have first : weight (partText underAnd part) = totalWeight part.leaves := by
      rw [partText, weight_bracket, each.1]
    cases more with
    | nil => rw [partsText_single, first, allLeaves, allLeaves, List.append_nil]
    | cons next more =>
      have wordy : Wordy (joiner underAnd) := by cases underAnd <;> decide
      rw [partsText_cons, weight_around wordy, first, ih each.2, allLeaves.eq_2 part, totalWeight_append]

/-- A condition weighs what its predicates do. -/
theorem Formed.weight_text {c : Condition} (formed : Formed c) : weight c.text = totalWeight c.leaves := by
  induction formed with
  | leaf p => rw [text, leaves, totalWeight_singleton]
  | @not part _ ih =>
    have wordy : Wordy "NOT ".toList := by decide
    rw [text, leaves, weight_append, weight_of_wordy wordy, weight_bracket, Int.zero_add, ih]
  | wrap k _ _ ih => rw [text_wrap, leaves_wrap, weight_partsText _ ih]

variable {phrase : Phrase} {slice after : Text}

/-- **The predicates of a text weigh no more than it does.** -/
theorem Derived.weight_le (derived : Derived IsTest phrase slice after) : totalWeight phrase.leaves ≤ weight slice := by
  refine derived.leaves_induct (P := fun ps slice _ => totalWeight ps ≤ weight slice) ?_ ?_ ?_ ?_
  · intro slice after p test
    rw [totalWeight_singleton]
    exact test.weight_le
  · intro ps g slice g' after gap gap' _ inner
    rw [weight_parens, weight_append, weight_append, weight_of_wordy (wordy_of_gap gap), weight_of_wordy (wordy_of_gap gap')]
    omega
  · intro ps words slice after wordy inner
    rw [weight_append, weight_of_wordy wordy]
    omega
  · intro ps qs slice link slice' after wordy _ first rest
    rw [totalWeight_append, List.append_assoc, weight_around wordy]
    omega

/-- **A text that weighs no more than its predicates has them as the printer writes them.** -/
theorem Derived.tight (derived : Derived IsTest phrase slice after) (heavy : weight slice ≤ totalWeight phrase.leaves) :
    Derived IsTight phrase slice after := by
  induction derived with
  | leaf test =>
    rw [Phrase.leaves, leaves, totalWeight_singleton] at heavy
    exact .leaf (test.tight heavy)
  | group closed list gap inner gap' ih =>
    rw [weight_parens, weight_append, weight_append, weight_of_wordy (wordy_of_gap gap), weight_of_wordy (wordy_of_gap gap'),
      Int.zero_add, Int.add_zero] at heavy
    exact .group closed list gap (ih heavy) gap'
  | not keyword gap inner ih =>
    have word := wordy_of_lower (by decide : Text.isLowerWord "not".toList = true) keyword.letters
    rw [Phrase.leaves, leaves, weight_append, weight_of_wordy (wordy_append.2 ⟨word, wordy_of_gap gap⟩), Int.zero_add] at heavy
    exact .not keyword gap (ih heavy)
  | alone _ ih =>
    rw [Phrase.leaves_part] at ih
    exact .alone (ih heavy)
  | several _ ih =>
    rw [Phrase.leaves, leaves_wrap] at heavy
    exact .several (ih heavy)
  | last _ ih =>
    rw [Phrase.leaves_part] at ih
    rw [Phrase.leaves, allLeaves, allLeaves, List.append_nil] at heavy
    exact .last (ih heavy)
  | more part linked rest ih ihRest =>
    have first := part.weight_le
    have second := rest.weight_le
    rw [Phrase.leaves_part] at ih first
    rw [Phrase.leaves, allLeaves, totalWeight_append, List.append_assoc, weight_around linked.wordy] at heavy
    rw [Phrase.leaves] at ihRest second
    exact .more (ih (by omega)) linked (ihRest (by omega))

end Condition
end QueryCode
