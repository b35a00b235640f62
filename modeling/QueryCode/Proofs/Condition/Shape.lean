import QueryCode.Proofs.Condition.Settled

/-!
# The shape of conditions that were read

Code is written from a condition without looking whether a connective has anything to join or a value has any text. It
need not look, whatever the text was: an `AND` or an `OR` that was read has at least two parts, a field is a name or two
with a point between them, and no value is blank or ends with white space.

A text without an opening parenthesis outside its literals has no groups. Its tree then follows how tightly the words bind:
a `NOT` covers a predicate or another `NOT`, and an `AND` or an `OR` stands under none of its own kind. The literals of the
text are those that the readers skip, since each slice with something after it ends outside them.
-/

namespace QueryCode
set_option autoImplicit false

/-- The text is not blank, and no white space ends it. -/
structure Text.EndsSolid (t : Text) : Prop where
  solid : ¬ Text.Blank t
  last : t.getLast?.any Text.isBlank = false

namespace Predicate

/-- The texts that are kept as they stand: operands, values of a list, a query, raw text. The pattern of a `LIKE` is what
its quotes hold and none of these. -/
def contents : Predicate → List Text
  | .comparison _ _ value => [value]
  | .like .. => []
  | .inList _ _ values => values
  | .inQuery _ _ query => [query]
  | .between _ _ low high => [low, high]
  | .isNull .. => []
  | .raw text => [text]

/-- The field is not empty and has at most one point, and each content is more than white space and ends with none. -/
structure WellFormed (p : Predicate) : Prop where
  field : ∀ field ∈ p.field?, field ≠ [] ∧ field.count '.' ≤ 1
  contents : ∀ v ∈ p.contents, Text.EndsSolid v

end Predicate

namespace Condition

open Text (Blank EndsSolid isClosed)

/-- The root is a `NOT`. -/
def isNot : Condition → Bool
  | .not _ => true
  | _ => false

/-- No `AND` stands right under an `AND` and no `OR` right under an `OR`, and a `NOT` covers a predicate or another `NOT`. -/
inductive Flat : Condition → Prop where
  | leaf (p : Predicate) : Flat (.leaf p)
  | not {part : Condition} (inner : Flat part) (tight : part.isLeaf = true ∨ part.isNot = true) : Flat (.not part)
  | and {parts : List Condition} (each : ∀ part ∈ parts, Flat part) (other : ∀ part ∈ parts, part.isAnd = false) :
      Flat (.and parts)
  | or {parts : List Condition} (each : ∀ part ∈ parts, Flat part) (other : ∀ part ∈ parts, part.isOr = false) :
      Flat (.or parts)

/-! ## Predicates -/

theorem chars_of_name {slice name : Text} (named : NameSpelling slice name) :
    name ≠ [] ∧ ∀ c ∈ name, Text.isNameChar c = true := by
  cases named with
  | bare start tail => exact ⟨by simp, List.forall_mem_cons.2 ⟨isNameChar_of_isNameStart start, tail⟩⟩
  | ticked filled chars => exact ⟨filled, chars⟩

theorem count_point_name {slice name : Text} (named : NameSpelling slice name) : name.count '.' = 0 :=
  List.count_eq_zero_of_not_mem fun mem => absurd ((chars_of_name named).2 '.' mem) (by decide)

/-- A field has a point only between its two names. -/
theorem FieldSpelling.ne_nil_and_count_point {slice field : Text} (named : FieldSpelling slice field) :
    field ≠ [] ∧ field.count '.' ≤ 1 := by
  cases named with
  | plain named => exact ⟨(chars_of_name named).1, by rw [count_point_name named]; exact Nat.zero_le 1⟩
  | qualified table column =>
    refine ⟨by simp, ?_⟩
    rw [List.count_append, List.count_cons_self, count_point_name table, count_point_name column]

theorem endsSolid_of_trimEnd {t : Text} (filled : t ≠ []) (trimmed : Text.trimEnd t = t) : EndsSolid t where
  solid := fun blank => filled (trimmed.symm.trans (Text.trimEnd_eq_nil.2 blank))
  last := Text.trimEnd_eq_self_iff.1 trimmed

theorem endsSolid_of_trim {t : Text} (filled : t ≠ []) (trimmed : Text.trim t = t) : EndsSolid t where
  solid := fun blank => filled (trimmed.symm.trans (Text.trim_eq_nil.2 blank))
  last := Text.last_of_trim trimmed

theorem IsOperand.endsSolid {x after : Text} (operand : IsOperand x after) : EndsSolid x := by
  obtain ⟨filled, trimmed, _⟩ := exists_walkSpan operand
  exact endsSolid_of_trimEnd filled trimmed

theorem IsQuery.endsSolid {q : Text} (query : IsQuery q) : EndsSolid q := by
  refine endsSolid_of_trim ?_ query.trimmed
  rintro rfl
  exact absurd query.query (by decide)

theorem wellFormed_raw {t : Text} (solid : EndsSolid t) : (Predicate.raw t).WellFormed where
  field := fun _ tested => by cases tested
  contents := List.forall_mem_singleton.2 solid

/-- **Whatever spells a predicate spells a well-formed one.** -/
theorem PredicateSpelling.wellFormed {slice after : Text} {p : Predicate} (spelled : PredicateSpelling slice after p) :
    p.WellFormed := by
  have tested {f field : Text} (named : FieldSpelling f field) :
      ∀ name ∈ some field, name ≠ [] ∧ name.count '.' ≤ 1 := by
    rintro _ ⟨⟩
    exact named.ne_nil_and_count_point
  have absent (v : Text) (mem : v ∈ ([] : List Text)) : EndsSolid v := absurd mem List.not_mem_nil
  cases spelled with
  | comparison named _ _ _ operand => exact ⟨tested named, List.forall_mem_singleton.2 operand.endsSolid⟩
  | like named => exact ⟨tested named, absent⟩
  | inList named _ _ _ _ closed list items =>
    refine ⟨tested named, fun v mem => ?_⟩
    have value := isListValue_of_splitTop (Text.isBalanced_of_parenBody closed) list items v mem
    exact endsSolid_of_trim value.item.filled value.item.trimmed
  | inQuery named _ _ _ _ closed query =>
    exact ⟨tested named,
      List.forall_mem_singleton.2 (isQuery_trim (Text.isBalanced_of_parenBody closed) query).endsSolid⟩
  | between named _ _ _ _ _ first _ second =>
    exact ⟨tested named, List.forall_mem_cons.2 ⟨first.endsSolid, List.forall_mem_singleton.2 second.endsSolid⟩⟩
  | isNull named => exact ⟨tested named, absent⟩
  | raw operand => exact wellFormed_raw operand.endsSolid

/-! ## Connectives -/

theorem flat_wrap {k : Connective} {parts : List Condition} (each : ∀ part ∈ parts, Flat part)
    (other : ∀ part ∈ parts, k.heads part = false) : Flat (k.wrap parts) := by
  cases k with
  | and => exact .and each other
  | or => exact .or each other

theorem Formed.addConjunct {c extra : Condition} (formed : Formed c) (added : Formed extra) :
    Formed (c.addConjunct extra) := by
  have pair : Formed (.and [c, extra]) :=
    .wrap .and (by simp) (List.forall_mem_cons.2 ⟨formed, List.forall_mem_singleton.2 added⟩)
  cases formed with
  | leaf => exact pair
  | not => exact pair
  | wrap k several each =>
    cases k with
    | and =>
      refine .wrap .and ?_ (List.forall_mem_append.2 ⟨each, List.forall_mem_singleton.2 added⟩)
      rw [List.length_append]
      omega
    | or => exact pair

theorem Flat.addConjunct {c extra : Condition} (flat : Flat c) (added : Flat extra) (other : extra.isAnd = false) :
    Flat (c.addConjunct extra) := by
  have pair (own : c.isAnd = false) : Flat (.and [c, extra]) :=
    .and (List.forall_mem_cons.2 ⟨flat, List.forall_mem_singleton.2 added⟩)
      (List.forall_mem_cons.2 ⟨own, List.forall_mem_singleton.2 other⟩)
  cases flat with
  | leaf => exact pair rfl
  | not => exact pair rfl
  | and each apart =>
    exact .and (List.forall_mem_append.2 ⟨each, List.forall_mem_singleton.2 added⟩)
      (List.forall_mem_append.2 ⟨apart, List.forall_mem_singleton.2 other⟩)
  | or => exact pair rfl

/-! ## Texts without groups -/

/-- How loosely a root binds what stands under it. -/
def looseness : Condition → Nat
  | .leaf _ => 0
  | .not _ => 0
  | .and _ => 1
  | .or _ => 2

/-- The parts of an `AND` bind tightest, those of an `OR` as tightly as an `AND`. -/
def Connective.partLooseness : Connective → Nat
  | .and => 0
  | .or => 1

/-- How loosely a condition of the phrase binds at most, where no group stands. -/
def Phrase.looseness : Phrase → Nat
  | .unary _ => 0
  | .junction k _ => k.partLooseness + 1
  | .parts k _ => k.partLooseness

theorem Phrase.looseness_part (k : Connective) (c : Condition) : (Phrase.part k c).looseness = k.partLooseness := by
  cases k <;> rfl

theorem looseness_wrap (k : Connective) (cs : List Condition) : (k.wrap cs).looseness = k.partLooseness + 1 := by
  cases k <;> rfl

/-- What binds as tightly as the parts of a connective has another root. -/
theorem heads_of_looseness {k : Connective} {c : Condition} (tight : c.looseness ≤ k.partLooseness) :
    k.heads c = false := by
  rcases unwrap_cases k c with ⟨_, other⟩ | ⟨parts, rfl, _⟩
  · exact other
  · rw [looseness_wrap] at tight
    omega

theorem isLeaf_or_isNot {c : Condition} (tight : c.looseness ≤ 0) : c.isLeaf = true ∨ c.isNot = true := by
  cases c with
  | leaf => exact .inl rfl
  | not => exact .inr rfl
  | and => exact absurd tight (Nat.not_succ_le_zero 0)
  | or => exact absurd tight (Nat.not_succ_le_zero 1)

/-- No opening parenthesis stands outside the literals of the text. -/
def Ungrouped (t : Text) : Prop := '(' ∉ Text.mask .quotes t

theorem not_ungrouped_paren (t : Text) : ¬ Ungrouped ('(' :: t) := by
  intro free
  apply free
  rw [Text.mask, Text.cells, Text.Walk.cells, List.flatMap_cons]
  exact List.mem_append_left _ (by simp [Text.Walk.step, Text.isQuote, Text.Cell.shown, Text.Cell.hidden])

/-- Behind a part of the text that ends outside its literals and parentheses the text is masked as if it stood alone. -/
theorem Ungrouped.of_append {u v : Text} (free : Ungrouped (u ++ v)) (closed : isClosed u = true) (apart : Text.Apart u v) :
    Ungrouped v := by
  rw [Ungrouped, Text.mask_append _ closed apart] at free
  exact fun mem => free (List.mem_append_right _ mem)

theorem Ungrouped.of_words {words t : Text} (free : Ungrouped (words ++ t)) (wordy : Wordy words) : Ungrouped t :=
  free.of_append wordy.plain.isClosed wordy.plain.apart_left

theorem PredicateSpelling.isClosed {slice after : Text} {p : Predicate} (spelled : PredicateSpelling slice after p)
    (more : ¬ Blank after) : isClosed slice = true := by
  by_cases known : ∀ s, p ≠ .raw s
  · obtain ⟨same, followed, _⟩ := isClosed_slice spelled known
    exact same.trans (followed more)
  · push Not at known
    obtain ⟨s, rfl⟩ := known
    cases spelled with
    | raw operand => exact (delimits_of_operand operand more).closed

section Derivations

variable {phrase : Phrase} {slice after : Text} (derived : Derived IsRead phrase slice after)
include derived

/-- **A slice with something after it ends outside its literals and parentheses.** -/
theorem Derived.isClosed (more : ¬ Blank after) : isClosed slice = true := by
  refine derived.leaves_induct (P := fun _ slice after => ¬ Blank after → Text.isClosed slice = true) ?_ ?_ ?_ ?_ more
  · exact fun _ _ _ read => read.spelling.isClosed
  · exact fun _ _ _ _ _ _ _ balanced _ _ => Text.isClosed_of_isBalanced (Text.isBalanced_parens balanced)
  · intro _ words slice after wordy inner more
    rw [isClosed_plain_append wordy.plain]
    exact inner more
  · intro _ _ slice link slice' after wordy solid first rest more
    have front := first fun blank => solid (Text.blank_append.1 (Text.blank_append.1 blank).1).1
    rw [List.append_assoc, wordy.isClosed_between solid front]
    exact rest more

/-- **Without groups the tree is as flat as its words bind.** -/
theorem Derived.flat (free : Ungrouped (slice ++ after)) :
    ∀ c ∈ phrase.conditions, Flat c ∧ c.looseness ≤ phrase.looseness := by
  -- each part stands where the walk of the mask is outside, so the text from there on is free of groups as well
  induction derived with
  | leaf => exact List.forall_mem_singleton.2 ⟨.leaf _, Nat.le_refl 0⟩
  | group => exact absurd free (not_ungrouped_paren _)
  | not keyword gap _ ih =>
    have word := wordy_of_lower (by decide : Text.isLowerWord "not".toList = true) keyword.letters
    rw [List.append_assoc] at free
    obtain ⟨flat, tight⟩ := ih (free.of_words (wordy_append.2 ⟨word, wordy_of_gap gap⟩)) _ List.mem_cons_self
    exact List.forall_mem_singleton.2 ⟨.not flat (isLeaf_or_isNot tight), Nat.le_refl 0⟩
  | alone _ ih =>
    rw [Phrase.conditions_part, Phrase.looseness_part] at ih
    exact fun c mem => ⟨(ih free c mem).1, Nat.le_succ_of_le (ih free c mem).2⟩
  | @several k _ _ _ _ _ _ ih =>
    have flat := flat_wrap (fun c mem => (ih free c mem).1) fun c mem => heads_of_looseness (ih free c mem).2
    exact List.forall_mem_singleton.2 ⟨flat, Nat.le_of_eq (looseness_wrap k _)⟩
  | last _ ih =>
    rw [Phrase.conditions_part, Phrase.looseness_part] at ih
    exact ih free
  | @more k slice link slice' after c cs part linked _ ih ihRest =>
    rw [Phrase.conditions_part, Phrase.looseness_part] at ih
    rw [List.append_assoc, List.append_assoc] at free
    have closed := part.isClosed fun blank => linked.not_blank (Text.blank_append.1 (Text.blank_append.1 blank).1).1
    have behind := (free.of_append closed (linked.wordy.apart linked.not_blank)).of_words linked.wordy
    rw [← List.append_assoc link] at free
    exact List.forall_mem_cons.2 ⟨ih free c List.mem_cons_self, ihRest behind⟩

end Derivations

/-! ## Whole texts -/

section Parse

variable {w : Text} {c : Condition} (read : parse w = .ok (some c))
include read

theorem formed_of_parse : Formed c := by
  rcases parse_cases read with ⟨slice, trail, _, _, derived⟩ | ⟨d, slice, rest, _, _, rfl, derived⟩ | ⟨rest, _, rfl⟩
  · exact derived.formed c List.mem_cons_self
  · exact (derived.formed d List.mem_cons_self).addConjunct (.leaf _)
  · exact .leaf _

theorem wellFormed_of_parse : ∀ p ∈ c.leaves, p.WellFormed := by
  have leaves {d : Condition} {slice after : Text} (derived : Derived IsRead (.junction .or d) slice after) :
      ∀ p ∈ d.leaves, p.WellFormed := by
    intro p mem
    obtain ⟨_, _, read⟩ := derived.exists_leaf p mem
    exact read.spelling.wellFormed
  rcases parse_cases read with ⟨slice, trail, _, _, derived⟩ | ⟨d, slice, rest, _, filled, rfl, derived⟩ | ⟨rest, whole, rfl⟩
  · exact leaves derived
  · rw [leaves_addConjunct]
    have last := wellFormed_raw (endsSolid_of_trim filled (Text.trim_trim rest))
    exact List.forall_mem_append.2 ⟨leaves derived, List.forall_mem_singleton.2 last⟩
  · rw [raw, Condition.leaves]
    refine List.forall_mem_singleton.2 (wellFormed_raw (endsSolid_of_trim (by simp) ?_))
    rw [← whole, Text.trim_trim]

theorem flat_of_parse (free : Ungrouped w) : Flat c := by
  have inside : Ungrouped (Text.trim w) := mt (Text.mem_mask_trim (by decide) w).1 free
  rcases parse_cases read with ⟨slice, trail, whole, _, derived⟩ | ⟨d, slice, rest, whole, _, rfl, derived⟩ | ⟨rest, _, rfl⟩
  · exact (derived.flat (whole ▸ inside) c List.mem_cons_self).1
  · exact (derived.flat (whole ▸ inside) d List.mem_cons_self).1.addConjunct (.leaf _) rfl
  · exact .leaf _

end Parse

/-- **The shape of a condition that was read.** Every `AND` and every `OR` has at least two parts, every predicate is well
formed, and without an opening parenthesis outside the literals of the text the tree is flat. -/
theorem parse_shape {w : Text} {c : Condition} (read : parse w = .ok (some c)) :
    Formed c ∧ (∀ p ∈ c.leaves, p.WellFormed) ∧ ('(' ∉ Text.mask .quotes w → Flat c) :=
  ⟨formed_of_parse read, wellFormed_of_parse read, flat_of_parse read⟩

/-- Parentheses in literals only, doubled `NOT`s and a remainder make a flat tree with an `OR` under an `AND`. A group right
under an `AND` makes one that is not flat. -/
theorem parse_shape_remainder :
    let w := "NOT not a.b = '(x' AND c BETWEEN 1 AND 2 OR d LIKE '(%' ) tail ".toList
    let c : Condition := .and [
      .or [.and [.not (.not (.leaf (.comparison "a.b".toList .eq "'(x'".toList))),
          .leaf (.between "c".toList false "1".toList "2".toList)],
        .leaf (.like "d".toList false "(%".toList false)],
      Condition.raw ") tail".toList]
    let w' := "(a IN ( 1 ,'x' ) AND b IN ( SELECT id FROM t )) AND NOT (c = 1 OR c = 2)".toList
    let c' : Condition := .and [
      .and [.leaf (.inList "a".toList false ["1".toList, "'x'".toList]),
        .leaf (.inQuery "b".toList false "SELECT id FROM t".toList)],
      .not (.or [.leaf (.comparison "c".toList .eq "1".toList), .leaf (.comparison "c".toList .eq "2".toList)])]
    (parse w = .ok (some c) ∧ '(' ∉ Text.mask .quotes w ∧ Formed c ∧ (Predicate.raw ") tail".toList).WellFormed ∧ Flat c) ∧
      parse w' = .ok (some c') ∧ Formed c' ∧
        (Predicate.inQuery "b".toList false "SELECT id FROM t".toList).WellFormed ∧ ¬ Flat c' := by
  intro w c w' c'
  have spelled : w = _ := String.toList_ofList
  have spelled' : w' = _ := String.toList_ofList
  have read : parse w = .ok (some c) := by
    rw [spelled]
    decide +kernel
  have read' : parse w' = .ok (some c') := by
    rw [spelled']
    decide +kernel
  have free : '(' ∉ Text.mask .quotes w := by
    rw [spelled]
    decide +kernel
  obtain ⟨formed, leaves, flat⟩ := parse_shape read
  obtain ⟨formed', leaves', _⟩ := parse_shape read'
  refine ⟨⟨read, free, formed, leaves _ ?_, flat free⟩, read', formed', leaves' _ ?_, ?_⟩
  · simp [c, Condition.leaves, allLeaves, Condition.raw]
  · simp [c', Condition.leaves, allLeaves]
  · intro flat'
    change Flat (.and [.and _, _]) at flat'
    cases flat' with
    | and _ other => exact absurd (other _ List.mem_cons_self) (by decide)

end Condition
end QueryCode
