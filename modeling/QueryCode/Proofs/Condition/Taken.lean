import QueryCode.Proofs.Condition.Printed
import QueryCode.Proofs.Condition.Scanners
import QueryCode.Proofs.Condition.Slices

/-!
# What reading a condition guarantees

The values of a predicate that was read are such that they are read again: an operand is whole without the text after it,
the items of a list are items, and a query is one. What follows decides the rest. Only the last predicate of a text can
end inside a literal or parentheses, since an operand with something after it has closed all of them.
-/

namespace QueryCode
set_option autoImplicit false

namespace Predicate

open Condition (IsBareField IsWhole IsWritten IsListValue IsQuery Quoted)

/-- The pattern that the field is matched against. -/
def pattern? : Predicate → Option Text
  | .like _ _ pattern _ => some pattern
  | _ => none

/-- The field is read from its bare name, and a pattern is quoted by doubling its quotes. -/
structure Restated (p : Predicate) : Prop where
  named : ∃ field ∈ p.field?, IsBareField field
  quoted : ∀ pattern ∈ p.pattern?, Quoted '\'' (doubleQuotes pattern)

/-- The values are such that they are read as they stand. -/
def Taken : Predicate → Prop
  | .comparison _ _ value => IsWhole value
  | .inList _ _ values => ∀ v ∈ values, IsListValue v
  | .inQuery _ _ query => IsQuery query
  | .between _ _ low high => IsWritten low ∧ IsWhole high
  | .like .. => True
  | .isNull .. => True
  | .raw _ => False

theorem Restated.legible {p : Predicate} (restated : p.Restated) (taken : p.Taken) : p.Legible := by
  obtain ⟨⟨field, tested, named⟩, quoted⟩ := restated
  cases p with
  | like =>
    cases tested
    exact ⟨named, quoted _ rfl⟩
  | isNull =>
    cases tested
    exact named
  | raw => exact absurd taken id
  | _ =>
    cases tested
    exact ⟨named, taken⟩

/-- The operands of the predicate. -/
def operands : Predicate → List Text
  | .comparison _ _ value => [value]
  | .between _ _ low high => [low, high]
  | _ => []

end Predicate

namespace Condition

open Reader
open Text (Blank isClosed isBalanced)

/-! ## Operands -/

/-- Where an operand ends, it also ends with more text behind, unless that goes on with the last word. -/
theorem endsOperand_of_append {c : Char} {x rest : Text} (edge : rest.head?.any Text.isNameChar = false)
    (ends : endsOperand (c :: x) = true) : endsOperand (c :: x ++ rest) = true := by
  simp only [endsOperand, List.cons_append, Bool.or_eq_true, Bool.and_eq_true] at ends ⊢
  refine ends.imp id fun both => ⟨both.1, ?_⟩
  have logical := both.2
  have solid : ¬ Blank (c :: x) := by
    intro blank
    rw [Text.trimStart_eq_nil.2 blank] at logical
    exact absurd logical (by decide)
  have start : Text.trimStart (c :: x ++ rest) = Text.trimStart (c :: x) ++ rest := by
    have filled : ((c :: x).dropWhile Text.isBlank).isEmpty = false := by
      rw [List.isEmpty_eq_false_iff]
      exact mt Text.trimStart_eq_nil.1 solid
    rw [Text.trimStart, List.dropWhile_append, filled]
    rfl
  rw [← List.cons_append, start, startsLogical, startsWith_append (by decide) (by decide) edge,
    startsWith_append (by decide) (by decide) edge]
  exact logical

/-- What lies within the span of an operand is spanned without the text after it. -/
theorem walkSpan_within {w : Text.Walk} {x rest : Text} (edge : rest.head?.any Text.isNameChar = false)
    (within : x <+: walkSpan w (x ++ rest)) : walkSpan w x = x := by
  induction x generalizing w with
  | nil => rfl
  | cons c x ih =>
    rw [List.cons_append, walkSpan] at within
    split at within
    · cases List.prefix_nil.1 within
    · rename_i goesOn
      have goesOn' : ¬ ((w == {} && endsOperand (c :: x)) = true) := by
        rw [Bool.and_eq_true] at goesOn ⊢
        exact fun both => goesOn ⟨both.1, endsOperand_of_append edge both.2⟩
      rw [walkSpan, if_neg goesOn']
      cases x with
      | nil => rfl
      | cons d x => exact congrArg (c :: ·) (ih (List.cons_prefix_cons.1 within).2)

theorem EndsOperand.not_isNameChar {t : Text} (ends : EndsOperand t) : t.head?.any Text.isNameChar = false := by
  rcases ends with closing | ⟨blank, -⟩
  · rw [closing]
    decide
  · cases t with
    | nil => rfl
    | cons c t => exact not_isNameChar_of_isBlank blank

namespace IsOperand

variable {x after : Text} (read : IsOperand x after)
include read

/-- An operand is followed by nothing that could go on with its last word. -/
theorem edge : after.head?.any Text.isNameChar = false := by
  obtain ⟨_, _, trail, behind, blank, rfl, _, whole⟩ := exists_walkSpan read
  cases trail with
  | cons c trail => exact not_isNameChar_of_isBlank (blank c List.mem_cons_self)
  | nil =>
    by_cases given : behind = []
    · rw [given]
      rfl
    · exact ((walkSpan_places whole).1 given).2.not_isNameChar

/-- **An operand is read whole without the text after it.** -/
theorem alone : operand? x = some (x, []) := by
  obtain ⟨solid, trimmed, trail, behind, _, _, spanned, _⟩ := exists_walkSpan read
  have within : x <+: walkSpan {} (x ++ after) := by
    rw [spanned]
    exact List.prefix_append x trail
  have filled : x.isEmpty = false := List.isEmpty_eq_false_iff.2 solid
  simp only [operand_eq]
  rw [walkSpan_within read.edge within, trimmed, filled, List.drop_length]
  rfl

theorem isWhole (starts : x.head?.any Text.isGap = false) : IsWhole x := ⟨read.alone, starts⟩

theorem isWritten (starts : x.head?.any Text.isGap = false) (more : ¬ Blank after) : IsWritten x :=
  ⟨read.alone, starts, (delimits_of_operand read more).closed⟩

end IsOperand

/-! ## Values -/

theorem head_dropWhile (p : Char → Bool) (t : Text) : (t.dropWhile p).head?.any p = false := by
  have first := List.head?_dropWhile_not p t
  cases found : (t.dropWhile p).head? with
  | none => rfl
  | some c =>
    rw [found] at first
    exact first

theorem gaps_solid {t rest : Text} (read : gaps t = .ok (some ((), rest))) : rest.head?.any Text.isGap = false := by
  simp only [gaps, Except.ok.injEq, Option.some.injEq, Prod.mk.injEq, true_and] at read
  subst read
  exact head_dropWhile Text.isGap t

theorem gaps1_solid {t rest : Text} (read : gaps1 t = .ok (some ((), rest))) : rest.head?.any Text.isGap = false := by
  unfold gaps1 at read
  split at read
  · exact gaps_solid (t := t) read
  · cases read

theorem head_of_operand {t x rest : Text} (starts : t.head?.any Text.isGap = false) (found : operand? t = some (x, rest)) :
    x.head?.any Text.isGap = false := by
  obtain ⟨split, _⟩ := operand_spelled found
  obtain ⟨c, more, rfl⟩ := List.exists_cons_of_ne_nil (exists_walkSpan found).1
  rw [split] at starts
  exact starts

/-- A predicate that was read tests the field in front, and its operands start with no white space. -/
theorem predicate_parts {t rest : Text} {p : Predicate} (read : predicate t = .ok (some (p, rest))) :
    ∃ field after, fieldRef? t = some (field, after) ∧ p.field? = some field ∧
      ∀ v ∈ p.operands, v.head?.any Text.isGap = false := by
  unfold predicate at read
  obtain ⟨field, after, named, read⟩ := bind_ok.1 read
  refine ⟨field, after, ofOption_ok.1 named, ?_⟩
  obtain ⟨_, _, _, read⟩ := bind_ok.1 read
  obtain like | ⟨_, read⟩ := orElse_ok.1 read
  · obtain ⟨_, _, _, like⟩ := bind_ok.1 like
    obtain ⟨_, _, _, like⟩ := bind_ok.1 like
    obtain ⟨_, _, _, like⟩ := bind_ok.1 like
    obtain ⟨_, _, _, value⟩ := bind_ok.1 like
    obtain ⟨rfl, rfl⟩ := pure_ok.1 value
    exact ⟨rfl, fun _ mem => nomatch mem⟩
  obtain member | ⟨_, read⟩ := orElse_ok.1 read
  · obtain ⟨_, _, _, member⟩ := bind_ok.1 member
    obtain ⟨_, _, _, member⟩ := bind_ok.1 member
    obtain ⟨_, _, _, member⟩ := bind_ok.1 member
    obtain ⟨_, _, _, result⟩ := bind_ok.1 member
    split at result
    · obtain ⟨rfl, rfl⟩ := pure_ok.1 result
      exact ⟨rfl, fun _ mem => nomatch mem⟩
    · obtain ⟨_, _, _, value⟩ := bind_ok.1 result
      obtain ⟨rfl, rfl⟩ := pure_ok.1 value
      exact ⟨rfl, fun _ mem => nomatch mem⟩
  obtain range | ⟨_, read⟩ := orElse_ok.1 read
  · obtain ⟨_, _, _, range⟩ := bind_ok.1 range
    obtain ⟨_, _, _, range⟩ := bind_ok.1 range
    obtain ⟨_, _, gap, range⟩ := bind_ok.1 range
    obtain ⟨low, _, first, range⟩ := bind_ok.1 range
    obtain ⟨_, _, link, range⟩ := bind_ok.1 range
    obtain ⟨high, _, second, value⟩ := bind_ok.1 range
    obtain ⟨rfl, rfl⟩ := pure_ok.1 value
    obtain ⟨_, _, _, link⟩ := bind_ok.1 link
    obtain ⟨_, _, _, gap'⟩ := bind_ok.1 link
    have low := head_of_operand (gaps1_solid gap) (ofOption_ok.1 first)
    have high := head_of_operand (gaps_solid gap') (ofOption_ok.1 second)
    exact ⟨rfl, by simpa [Predicate.operands] using ⟨low, high⟩⟩
  obtain null | ⟨_, compare⟩ := orElse_ok.1 read
  · obtain ⟨_, _, _, null⟩ := bind_ok.1 null
    obtain ⟨_, _, _, null⟩ := bind_ok.1 null
    obtain ⟨_, _, _, null⟩ := bind_ok.1 null
    obtain ⟨_, _, _, value⟩ := bind_ok.1 null
    obtain ⟨rfl, rfl⟩ := pure_ok.1 value
    exact ⟨rfl, fun _ mem => nomatch mem⟩
  · obtain ⟨_, _, _, compare⟩ := bind_ok.1 compare
    obtain ⟨_, _, gap, compare⟩ := bind_ok.1 compare
    obtain ⟨value, _, operand, result⟩ := bind_ok.1 compare
    obtain ⟨rfl, rfl⟩ := pure_ok.1 result
    exact ⟨rfl, List.forall_mem_singleton.2 (head_of_operand (gaps_solid gap) (ofOption_ok.1 operand))⟩

/-- The values of a list are items and no queries. -/
theorem isListValue_of_splitTop {body : Text} {values : List Text} (balanced : isBalanced body = true)
    (list : containsSelect body = false) (items : Text.splitTop ',' body = .ok values) : ∀ v ∈ values, IsListValue v := by
  have lower : Text.isLowerWord "select".toList = true := by decide
  obtain ⟨pieces, split, rfl⟩ := Text.pieces_of_splitTop balanced items
  intro v mem
  rw [List.mem_filter] at mem
  obtain ⟨piece, listed, rfl⟩ := List.mem_map.1 mem.1
  have filled : Text.trim piece ≠ [] := by simpa using mem.2
  obtain ⟨whole, free⟩ := split.of_mem piece listed
  refine ⟨Text.isItem_trim (Text.isClosed_of_isBalanced whole) free filled, Text.isBalanced_trim whole, ?_⟩
  rw [← Bool.not_eq_true, containsSelect, Text.Scan.occurs_word_iff lower] at list ⊢
  intro has
  exact list (split.hasWord piece listed ((Text.hasWord_trim_iff lower (Text.isClosed_of_isBalanced whole) _).1 has))

theorem isQuery_trim {body : Text} (balanced : isBalanced body = true) (query : containsSelect body = true) :
    IsQuery (Text.trim body) where
  trimmed := Text.trim_trim body
  balanced := Text.isBalanced_trim balanced
  query := by
    have lower : Text.isLowerWord "select".toList = true := by decide
    rw [containsSelect, Text.Scan.occurs_word_iff lower] at query ⊢
    exact (Text.hasWord_trim_iff lower (Text.isClosed_of_isBalanced balanced) _).2 query

/-! ## The words of a slice -/

theorem wordy_of_class {p : Char → Bool} (unlisted : ['\'', '"', '(', ')', '\x60'].any p = false) {t : Text}
    (members : ∀ c ∈ t, p c = true) : Wordy t := by
  intro c mem
  by_contra mark
  have member := members c mem
  simp only [Text.isMark, Text.isQuote, Bool.not_eq_false, Bool.or_eq_true, beq_iff_eq] at mark
  simp only [List.any_cons, List.any_nil, Bool.or_false, Bool.or_eq_false_iff] at unlisted
  rcases mark with (((rfl | rfl) | rfl) | rfl) | rfl <;> simp_all

theorem wordy_of_gap {g : Text} (gap : Gap g) : Wordy g := wordy_of_class (by decide) gap

theorem wordy_of_blank {t : Text} (blank : Blank t) : Wordy t := wordy_of_class (by decide +kernel) blank

theorem wordy_of_lower {kw slice : Text} (lower : Text.isLowerWord kw = true) (letters : Text.lower slice = kw) : Wordy slice :=
  wordy_of_class (by decide) (isNameChar_of_lower lower letters)

theorem wordy_of_negation {slice : Text} {negated : Bool} (spelled : NegationSpelling slice negated) : Wordy slice := by
  cases spelled with
  | absent => exact fun _ mem => nomatch mem
  | present letters gap _ =>
    exact wordy_append.2 ⟨wordy_of_lower (by decide : Text.isLowerWord "not".toList = true) letters, wordy_of_gap gap⟩

theorem wordy_of_operator {slice : Text} {op : Comparator} (spelled : OperatorSpelling slice op) : Wordy slice := by
  cases spelled with
  | usual => cases op <;> decide
  | angles => decide

section Links

variable {k : Connective} {link after : Text} (linked : LinkSpelling k.word link after)
include linked

theorem LinkSpelling.wordy : Wordy link := by
  cases linked with
  | link gap keyword gap' =>
    have lower : Text.isLowerWord k.word.toList = true := by cases k <;> decide
    exact wordy_append.2 ⟨wordy_append.2 ⟨wordy_of_gap gap, wordy_of_lower lower keyword.letters⟩, wordy_of_gap gap'⟩

theorem LinkSpelling.not_blank : ¬ Blank link := by
  cases linked with
  | @link before word gap after _ keyword _ =>
    have lower : Text.isLowerWord k.word.toList = true := by cases k <;> decide
    intro blank
    obtain ⟨c, more, rfl⟩ := List.exists_cons_of_ne_nil (ne_nil_of_lower lower keyword.letters)
    have named := isNameChar_of_lower lower keyword.letters c List.mem_cons_self
    have space := blank c (by simp)
    rw [not_isBlank_of_isNameChar named] at space
    cases space

end Links

/-- The end of a predicate's slice: what its field is tested against. -/
inductive TestSpelling (after : Text) : Text → Predicate → Prop where
  | comparison {field value : Text} {op : Comparator} (operand : IsOperand value after) :
      TestSpelling after value (.comparison field op value)
  | like {field literal pattern : Text} {negated anyCase : Bool} (quoted : LiteralSpelling literal pattern) :
      TestSpelling after literal (.like field negated pattern anyCase)
  | inList {field body : Text} {values : List Text} {negated : Bool} (balanced : isBalanced body = true)
      (list : containsSelect body = false) (items : Text.splitTop ',' body = .ok values) :
      TestSpelling after ('(' :: body ++ [')']) (.inList field negated values)
  | inQuery {field body : Text} {negated : Bool} (balanced : isBalanced body = true) (query : containsSelect body = true) :
      TestSpelling after ('(' :: body ++ [')']) (.inQuery field negated (Text.trim body))
  | between {field low link high : Text} {negated : Bool} (first : IsOperand low (link ++ high ++ after))
      (linked : LinkSpelling (Connective.word .and) link (high ++ after)) (second : IsOperand high after) :
      TestSpelling after (low ++ (link ++ high)) (.between field negated low high)
  | isNull {field : Text} {negated : Bool} : TestSpelling after [] (.isNull field negated)

/-- The slice of a predicate is its field, some words and what the field is tested against. -/
structure Cut (slice after : Text) (p : Predicate) (f field words tail : Text) : Prop where
  split : slice = f ++ (words ++ tail)
  tested : p.field? = some field
  named : FieldSpelling f field
  wordy : Wordy words
  test : TestSpelling after tail p

theorem exists_cut {slice after : Text} {p : Predicate} (spelled : PredicateSpelling slice after p)
    (known : ∀ s, p ≠ .raw s) : ∃ f field words tail, Cut slice after p f field words tail := by
  have words {g n word g' : Text} {kw : String} {negated : Bool} (lower : Text.isLowerWord kw.toList = true) (gap : Gap g)
      (negation : NegationSpelling n negated) (letters : Text.lower word = kw.toList) (gap' : Gap g') :
      Wordy (g ++ (n ++ (word ++ g'))) :=
    wordy_append.2 ⟨wordy_of_gap gap, wordy_append.2 ⟨wordy_of_negation negation,
      wordy_append.2 ⟨wordy_of_lower lower letters, wordy_of_gap gap'⟩⟩⟩
  cases spelled with
  | @comparison f g o g' value _ _ _ named gap operator gap' operand =>
    exact ⟨f, _, g ++ (o ++ g'), value, by simp, rfl, named,
      wordy_append.2 ⟨wordy_of_gap gap, wordy_append.2 ⟨wordy_of_operator operator, wordy_of_gap gap'⟩⟩, .comparison operand⟩
  | @like f g n word g' literal _ _ _ _ anyCase named gap negation keyword gap' quoted =>
    have lower : Text.isLowerWord (if anyCase then "ilike" else "like").toList = true := by cases anyCase <;> decide
    exact ⟨f, _, g ++ (n ++ (word ++ g')), literal, by simp, rfl, named, words lower gap negation keyword.letters gap',
      .like quoted⟩
  | @inList f g n word g' body _ _ _ _ named gap negation keyword gap' closed list items =>
    exact ⟨f, _, g ++ (n ++ (word ++ g')), '(' :: body ++ [')'], by simp, rfl, named,
      words (by decide) gap negation keyword.letters gap', .inList (Text.isBalanced_of_parenBody closed) list items⟩
  | @inQuery f g n word g' body _ _ _ named gap negation keyword gap' closed query =>
    exact ⟨f, _, g ++ (n ++ (word ++ g')), '(' :: body ++ [')'], by simp, rfl, named,
      words (by decide) gap negation keyword.letters gap', .inQuery (Text.isBalanced_of_parenBody closed) query⟩
  | @between f g n word g' low link high _ _ _ named gap negation keyword gap' _ first linked second =>
    exact ⟨f, _, g ++ (n ++ (word ++ g')), low ++ (link ++ high), by simp, rfl, named,
      words (by decide) gap negation keyword.letters gap', .between first linked second⟩
  | @isNull f g word g' n word' _ _ _ named gap keyword gap' _ negation null =>
    have first : Wordy word := wordy_of_lower (by decide : Text.isLowerWord "is".toList = true) keyword.letters
    have last : Wordy word' := wordy_of_lower (by decide : Text.isLowerWord "null".toList = true) null.letters
    exact ⟨f, _, g ++ (word ++ (g' ++ (n ++ word'))), [], by simp, rfl, named,
      wordy_append.2 ⟨wordy_of_gap gap, wordy_append.2 ⟨first, wordy_append.2 ⟨wordy_of_gap gap',
        wordy_append.2 ⟨wordy_of_negation negation, last⟩⟩⟩⟩, .isNull⟩
  | raw => exact absurd rfl (known _)

/-- **The values of a predicate that was read are read again.** -/
theorem IsRead.taken {slice after : Text} {p : Predicate} (read : IsRead slice after p) (known : ∀ s, p ≠ .raw s) :
    p.Taken := by
  obtain ⟨f, field, words, tail, cut⟩ := exists_cut read.spelling known
  have starts : ∀ v ∈ p.operands, v.head?.any Text.isGap = false := by
    cases read with
    | test _ read =>
      obtain ⟨_, _, _, _, starts⟩ := predicate_parts read
      exact starts
    | kept => exact absurd rfl (known _)
  cases cut.test with
  | comparison operand => exact operand.isWhole (starts _ (by simp [Predicate.operands]))
  | like => trivial
  | inList balanced list items => exact isListValue_of_splitTop balanced list items
  | inQuery balanced query => exact isQuery_trim balanced query
  | between first linked second =>
    refine ⟨first.isWritten (starts _ (by simp [Predicate.operands])) fun blank => ?_,
      second.isWhole (starts _ (by simp [Predicate.operands]))⟩
    simp only [Text.blank_append] at blank
    exact linked.not_blank blank.1.1
  | isNull => trivial

/-! ## Open ends -/

theorem plain_of_name {slice name : Text} (named : NameSpelling slice name) : Text.Plain slice := by
  cases named with
  | bare start tail =>
    exact Text.plain_of_class (by decide) (List.forall_mem_cons.2 ⟨isNameChar_of_isNameStart start, tail⟩)
  | ticked _ chars =>
    have inside : Text.Plain name := Text.plain_of_class (by decide) chars
    exact Text.plain_append.2 ⟨Text.plain_cons.2 ⟨by decide, inside⟩, by decide⟩

theorem plain_of_field {slice field : Text} (named : FieldSpelling slice field) : Text.Plain slice := by
  cases named with
  | plain named => exact plain_of_name named
  | qualified table column =>
    exact Text.plain_append.2 ⟨plain_of_name table, Text.plain_cons.2 ⟨by decide, plain_of_name column⟩⟩

theorem isClosed_literal {literal pattern : Text} (quoted : LiteralSpelling literal pattern) : isClosed literal = true := by
  cases quoted with
  | @quoted quote body opening inside =>
    have slash : quote ≠ '\\' := by
      rintro rfl
      cases opening
    have start : (Text.Walk.step {} quote (body ++ [quote]).head?).2 = ⟨.quoted quote, 0⟩ := by
      simp [Text.Walk.step, opening]
    rw [Text.isClosed_iff, List.cons_append, Text.Walk.run, start]
    exact (walk_quoted slash inside).1

theorem isClosed_plain_append {u v : Text} (plain : Text.Plain u) : isClosed (u ++ v) = isClosed v :=
  Text.isClosed_append_left plain.isClosed plain.apart_left

section Words

variable {words : Text} (wordy : Wordy words) (solid : ¬ Blank words)
include wordy solid

/-- Words keep the quotes on their two sides apart. -/
theorem Wordy.apart {u v : Text} : Text.Apart u (words ++ v) := by
  obtain ⟨c, more, rfl⟩ := List.exists_cons_of_ne_nil fun empty : words = [] => solid (empty ▸ Text.blank_nil)
  exact Text.apart_of_head (Text.isQuote_of_isMark (wordy.plain c List.mem_cons_self))

/-- Behind a closed text and words, a text leaves open what it leaves open alone. -/
theorem Wordy.isClosed_between {u v : Text} (closed : isClosed u = true) : isClosed (u ++ (words ++ v)) = isClosed v := by
  rw [Text.isClosed_append_left closed (wordy.apart solid), isClosed_plain_append wordy.plain]

end Words

/-- What a test leaves open is what its last operand leaves open, and with more text after it that is nothing. -/
theorem TestSpelling.isClosed {after tail : Text} {p : Predicate} (test : TestSpelling after tail p) :
    Text.isClosed tail = Text.isClosed p.lastOperand ∧ (¬ Blank after → Text.isClosed p.lastOperand = true) ∧
      p.lastOperand <:+ tail := by
  cases test with
  | comparison operand => exact ⟨rfl, fun more => (delimits_of_operand operand more).closed, List.suffix_rfl⟩
  | like quoted => exact ⟨isClosed_literal quoted, fun _ => rfl, List.nil_suffix⟩
  | inList balanced =>
    exact ⟨Text.isClosed_of_isBalanced (Text.isBalanced_parens balanced), fun _ => rfl, List.nil_suffix⟩
  | inQuery balanced =>
    exact ⟨Text.isClosed_of_isBalanced (Text.isBalanced_parens balanced), fun _ => rfl, List.nil_suffix⟩
  | @between _ low link high _ first linked second =>
    have more : ¬ Blank (link ++ high ++ after) := by
      intro blank
      simp only [Text.blank_append] at blank
      exact linked.not_blank blank.1.1
    refine ⟨?_, fun more => (delimits_of_operand second more).closed, ?_⟩
    · exact linked.wordy.isClosed_between linked.not_blank (delimits_of_operand first more).closed
    · rw [← List.append_assoc]
      exact List.suffix_append _ _
  | isNull => exact ⟨rfl, fun _ => rfl, List.suffix_rfl⟩

/-- The same goes for the slice of a predicate. -/
theorem isClosed_slice {slice after : Text} {p : Predicate} (spelled : PredicateSpelling slice after p)
    (known : ∀ s, p ≠ .raw s) :
    isClosed slice = isClosed p.lastOperand ∧ (¬ Blank after → isClosed p.lastOperand = true) ∧ p.lastOperand <:+ slice := by
  obtain ⟨f, field, words, tail, cut⟩ := exists_cut spelled known
  obtain ⟨same, followed, final⟩ := cut.test.isClosed
  refine ⟨?_, followed, ?_⟩
  · rw [cut.split, isClosed_plain_append (plain_of_field cut.named), isClosed_plain_append cut.wordy.plain, same]
  · rw [cut.split, ← List.append_assoc]
    exact final.trans (List.suffix_append _ _)

end Condition
end QueryCode
