import QueryCode.Proofs.Condition.Written
import QueryCode.Proofs.Text.Hidden
import QueryCode.Proofs.Text.Remask

/-!
# Literals, operands and the mask

Three readers look for the end of a quoted literal: the mask of a text, the reader of literals and the reader of
operands. They agree. A literal that is read is what the mask hides between two quotes, and where none is read the mask
hides all the rest. An operand that something follows ends where the walk of the mask stands outside every literal and
parenthesis, at the first such place in front of a closing parenthesis or a connective.
-/

namespace QueryCode
set_option autoImplicit false

namespace Text.Walk

/-- Where no quote is doubled across the place, the walk up to it needs no lookahead. -/
theorem reach_of_apart {w : Walk} (sound : w.Sound) {u v : Text} (apart : Apart u v) : w.reach u v = w.run u := by
  induction u generalizing w with
  | nil => rfl
  | cons c u ih =>
    cases u with
    | nil =>
      have single : ([] ++ v).head? = some c → isQuote c = false := apart c rfl
      rw [reach, reach, run, run, List.head?_nil, step_apart sound single]
    | cons d u => exact ih (sound.step c _) (apart.of_append (u := [c]))

end Text.Walk

namespace Condition

open Text (isQuote size mask Blank)

/-! ## Literals -/

section Literals

variable {q : Char} {t tail rest : Text}

/-- Two characters inside a literal that belong together are hidden. -/
theorem shown_pair {c d : Char} {depth : Nat} (pair : c = '\\' ∨ c = q ∧ d = q) (slash : q ≠ '\\') (t : Text) :
    (Text.Walk.cells ⟨.quoted q, depth⟩ (c :: d :: t)).flatMap (Text.Cell.shown .quotes) =
      List.replicate (c.utf8Size + d.utf8Size) ' ' ++
        (Text.Walk.cells ⟨.quoted q, depth⟩ t).flatMap (Text.Cell.shown .quotes) := by
  rw [List.replicate_add, List.append_assoc]
  rcases pair with rfl | ⟨rfl, rfl⟩
  · simp [Text.Walk.cells, Text.Walk.step, Text.Cell.shown, Text.Cell.hidden]
  · simp [Text.Walk.cells, Text.Walk.step, Text.Cell.shown, Text.Cell.hidden, slash]

/-- A character inside a literal that neither escapes nor closes is hidden. -/
theorem shown_inside {c : Char} {depth : Nat} (slash : c ≠ '\\') (other : c ≠ q) (t : Text) :
    (Text.Walk.cells ⟨.quoted q, depth⟩ (c :: t)).flatMap (Text.Cell.shown .quotes) =
      List.replicate c.utf8Size ' ' ++ (Text.Walk.cells ⟨.quoted q, depth⟩ t).flatMap (Text.Cell.shown .quotes) := by
  simp [Text.Walk.cells, Text.Walk.step, Text.Cell.shown, Text.Cell.hidden, slash, other]

/-- The quote that closes a literal shows, and the text after it is masked on its own. -/
theorem shown_closing {depth : Nat} (slash : q ≠ '\\') (single : t.head? ≠ some q) :
    (Text.Walk.cells ⟨.quoted q, depth⟩ (q :: t)).flatMap (Text.Cell.shown .quotes) =
      q :: (Text.Walk.cells ⟨.plain, depth⟩ t).flatMap (Text.Cell.shown .quotes) := by
  simp [Text.Walk.cells, Text.Walk.step, Text.Cell.shown, Text.Cell.hidden, slash, single]

/-- The mask hides a literal up to its closing quote. -/
theorem shown_literalTail (quote : isQuote q = true) (found : literalTail? q t = some (tail, rest)) :
    ∃ n, size tail = n + 1 ∧
      (Text.Walk.cells ⟨.quoted q, 0⟩ t).flatMap (Text.Cell.shown .quotes) =
        List.replicate n ' ' ++ q :: mask .quotes rest := by
  have slash : q ≠ '\\' := by
    rintro rfl
    cases quote
  have byte : q.utf8Size = 1 := by
    simp only [isQuote, Bool.or_eq_true, beq_iff_eq] at quote
    rcases quote with rfl | rfl <;> rfl
  fun_induction literalTail? q t generalizing tail rest with
  | case1 => cases found
  | case2 c closing =>
    cases found
    simp only [Bool.and_eq_true, beq_iff_eq] at closing
    obtain ⟨-, rfl⟩ := closing
    refine ⟨0, by rw [size, size, byte], ?_⟩
    exact shown_closing slash (by simp)
  | case3 => cases found
  | case4 c d inner escape ih =>
    obtain ⟨⟨tail', rest'⟩, found', same⟩ := Option.map_eq_some_iff.1 found
    cases same
    obtain ⟨n, total, shown⟩ := ih found'
    obtain rfl := beq_iff_eq.1 escape
    refine ⟨'\\'.utf8Size + d.utf8Size + n, by rw [size, size, total]; omega, ?_⟩
    rw [shown_pair (.inl rfl) slash, shown, List.replicate_add _ n, List.append_assoc]
  | case5 c d inner plain closing doubled ih =>
    obtain ⟨⟨tail', rest'⟩, found', same⟩ := Option.map_eq_some_iff.1 found
    cases same
    obtain ⟨n, total, shown⟩ := ih found'
    refine ⟨c.utf8Size + d.utf8Size + n, by rw [size, size, total]; omega, ?_⟩
    rw [shown_pair (.inr ⟨beq_iff_eq.1 closing, beq_iff_eq.1 doubled⟩) slash, shown, List.replicate_add _ n,
      List.append_assoc]
  | case6 c d inner plain closing single =>
    cases found
    obtain rfl := beq_iff_eq.1 closing
    refine ⟨0, by rw [size, size, byte], ?_⟩
    exact shown_closing slash (by simpa using single)
  | case7 c d inner plain other ih =>
    obtain ⟨⟨tail', rest'⟩, found', same⟩ := Option.map_eq_some_iff.1 found
    cases same
    obtain ⟨n, total, shown⟩ := ih found'
    refine ⟨c.utf8Size + n, by rw [size, total]; omega, ?_⟩
    rw [shown_inside (by simpa using plain) (by simpa using other), shown, List.replicate_add, List.append_assoc]

/-- The mask hides a literal without a closing quote up to the end. -/
theorem shown_unclosed (quote : isQuote q = true) (missed : literalTail? q t = none) :
    (Text.Walk.cells ⟨.quoted q, 0⟩ t).flatMap (Text.Cell.shown .quotes) = List.replicate (size t) ' ' := by
  have slash : q ≠ '\\' := by
    rintro rfl
    cases quote
  fun_induction literalTail? q t with
  | case1 => rfl
  | case2 => cases missed
  | case3 c open' =>
    have last : c = '\\' ∨ c ≠ '\\' ∧ c ≠ q := by
      simp only [Bool.and_eq_true, bne_iff_ne, beq_iff_eq, not_and] at open'
      by_cases escape : c = '\\'
      · exact .inl escape
      · exact .inr ⟨escape, open' escape⟩
    rw [size, size, Nat.add_zero]
    rcases last with rfl | ⟨plain, other⟩
    · rfl
    · rw [shown_inside plain other]
      simp [Text.Walk.cells]
  | case4 c d inner escape ih =>
    rw [shown_pair (.inl (beq_iff_eq.1 escape)) slash, ih (Option.map_eq_none_iff.1 missed), size, size, ← Nat.add_assoc,
      List.replicate_add _ (size inner)]
  | case5 c d inner plain closing doubled ih =>
    rw [shown_pair (.inr ⟨beq_iff_eq.1 closing, beq_iff_eq.1 doubled⟩) slash, ih (Option.map_eq_none_iff.1 missed), size, size,
      ← Nat.add_assoc, List.replicate_add _ (size inner)]
  | case6 => cases missed
  | case7 c d inner plain other ih =>
    rw [shown_inside (by simpa using plain) (by simpa using other), ih (Option.map_eq_none_iff.1 missed),
      ← List.replicate_add]
    rfl

theorem mask_quote (quote : isQuote q = true) (t : Text) :
    mask .quotes (q :: t) = q :: (Text.Walk.cells ⟨.quoted q, 0⟩ t).flatMap (Text.Cell.shown .quotes) := by
  rw [mask, Text.cells, Text.Walk.cells, List.flatMap_cons]
  simp [Text.Walk.step, quote, Text.Cell.shown, Text.Cell.hidden]

/-- A literal is what the mask hides between two quotes. -/
theorem mask_of_stringLiteral {literal : Text} (quote : isQuote q = true)
    (found : stringLiteral? (q :: t) = some (literal, rest)) :
    q :: t = literal ++ rest ∧
      mask .quotes (q :: t) = q :: List.replicate (size literal - 2) ' ' ++ q :: mask .quotes rest := by
  refine ⟨(stringLiteral_spelled found).1, ?_⟩
  rw [stringLiteral?, if_pos quote] at found
  obtain ⟨⟨tail, rest'⟩, found', same⟩ := Option.map_eq_some_iff.1 found
  cases same
  obtain ⟨n, total, shown⟩ := shown_literalTail quote found'
  have byte : q.utf8Size = 1 := by
    simp only [isQuote, Bool.or_eq_true, beq_iff_eq] at quote
    rcases quote with rfl | rfl <;> rfl
  have length : size (q :: tail) - 2 = n := by
    rw [size, total, byte]
    omega
  rw [mask_quote quote, shown, length]
  rfl

/-- Where no literal is read, the mask hides everything behind the quote. -/
theorem mask_of_no_literal (quote : isQuote q = true) (missed : stringLiteral? (q :: t) = none) :
    mask .quotes (q :: t) = q :: List.replicate (size t) ' ' := by
  rw [stringLiteral?, if_pos quote] at missed
  rw [mask_quote quote, shown_unclosed quote (Option.map_eq_none_iff.1 missed)]

end Literals

/-! ## Operands -/

/-- The text starts with `AND` or `OR` as a whole word. -/
def StartsLink (t : Text) : Prop := ∃ (k : Connective) (word after : Text), t = word ++ after ∧ IsKeyword k.word word after

theorem startsLogical_iff {t : Text} : startsLogical t = true ↔ StartsLink t := by
  rw [startsLogical, Bool.or_eq_true, startsWith_iff (by decide), startsWith_iff (by decide)]
  constructor
  · rintro (⟨word, after, split, spelled⟩ | ⟨word, after, split, spelled⟩)
    · exact ⟨.and, word, after, split, spelled⟩
    · exact ⟨.or, word, after, split, spelled⟩
  · rintro ⟨k, word, after, split, spelled⟩
    cases k with
    | and => exact .inl ⟨word, after, split, spelled⟩
    | or => exact .inr ⟨word, after, split, spelled⟩

/-- An operand can end in front of this text: a closing parenthesis, or white space and then a connective. -/
def EndsOperand (t : Text) : Prop :=
  t.head? = some ')' ∨ t.head?.any Text.isBlank = true ∧ StartsLink (Text.trimStart t)

theorem endsOperand_iff {t : Text} (filled : t ≠ []) : endsOperand t = true ↔ EndsOperand t := by
  obtain ⟨c, more, rfl⟩ := List.exists_cons_of_ne_nil filled
  simp only [endsOperand, EndsOperand, Bool.or_eq_true, Bool.and_eq_true, beq_iff_eq, startsLogical_iff, List.head?_cons,
    Option.some.injEq, Option.any_some]

/-- **The span of an operand ends at the first place outside where it can.** -/
theorem walkSpan_places {w : Text.Walk} {t rest : Text} (split : t = walkSpan w t ++ rest) :
    (rest ≠ [] → w.reach (walkSpan w t) rest = {} ∧ EndsOperand rest) ∧
      ∀ u c v, walkSpan w t = u ++ c :: v → w.reach u (c :: v ++ rest) = {} → ¬ EndsOperand (c :: v ++ rest) := by
  induction t generalizing w with
  | nil =>
    obtain ⟨-, rfl⟩ := List.append_eq_nil_iff.1 split.symm
    refine ⟨fun filled => absurd rfl filled, fun u c v spanned => ?_⟩
    simp [walkSpan] at spanned
  | cons c t ih =>
    by_cases stops : (w == {} && endsOperand (c :: t)) = true
    · have spanned : walkSpan w (c :: t) = [] := by rw [walkSpan, if_pos stops]
      rw [spanned] at split ⊢
      rw [Bool.and_eq_true, beq_iff_eq] at stops
      refine ⟨fun filled => ⟨stops.1, ?_⟩, fun u d v spanned => ?_⟩
      · rw [← endsOperand_iff filled, ← show c :: t = rest from split]
        exact stops.2
      · simp at spanned
    · have spanned : walkSpan w (c :: t) = c :: walkSpan (w.step c t.head?).2 t := by rw [walkSpan, if_neg stops]
      rw [spanned] at split ⊢
      have inner : t = walkSpan (w.step c t.head?).2 t ++ rest := (List.cons.inj split).2
      obtain ⟨last, earlier⟩ := ih inner
      refine ⟨fun filled => ?_, fun u d v spanned' outside => ?_⟩
      · rw [Text.Walk.reach, ← inner]
        exact last filled
      · cases u with
        | nil =>
          obtain ⟨rfl, tail⟩ := List.cons.inj spanned'
          obtain rfl : w = {} := outside
          rw [← tail, List.cons_append, ← inner, ← endsOperand_iff (by simp)]
          simpa using stops
        | cons e u =>
          obtain ⟨rfl, tail⟩ := List.cons.inj spanned'
          refine earlier u d v tail ?_
          have next : u ++ (d :: v ++ rest) = t := by rw [inner, tail]; simp
          rw [Text.Walk.reach, next] at outside
          exact outside

/-- The text after an operand starts with a closing parenthesis or white space. -/
theorem EndsOperand.apart {rest : Text} (ends : EndsOperand rest) (u : Text) : Text.Apart u rest := by
  rcases ends with closing | ⟨blank, -⟩
  · obtain ⟨more, rfl⟩ := List.head?_eq_some_iff.1 closing
    exact Text.apart_of_head (by decide)
  · cases rest with
    | nil => exact Text.apart_nil u
    | cons c more =>
      have space : Text.isBlank c = true := blank
      exact Text.apart_of_head (Text.isQuote_of_isMark (Text.isMark_of_class (by decide) space))

theorem EndsOperand.trimStart {lead rest : Text} (ends : EndsOperand rest) (blank : Blank lead) :
    (Text.trimStart (lead ++ rest)).head? = some ')' ∨ StartsLink (Text.trimStart (lead ++ rest)) := by
  rw [Text.trimStart_append blank]
  refine ends.imp (fun closing => ?_) And.right
  obtain ⟨more, rfl⟩ := List.head?_eq_some_iff.1 closing
  rfl

/-- An operand is what its span holds but for the white space at the end. -/
theorem exists_walkSpan {t x rest : Text} (found : operand? t = some (x, rest)) :
    x ≠ [] ∧ Text.trimEnd x = x ∧ ∃ trail after, Blank trail ∧ rest = trail ++ after ∧ walkSpan {} t = x ++ trail ∧
      t = walkSpan {} t ++ after := by
  have split := (operand_spelled found).1
  obtain ⟨after, whole⟩ := walkSpan_isPrefix {} t
  obtain ⟨trail, blank, trimmed⟩ := Text.exists_trimEnd (walkSpan {} t)
  have read : Text.trimEnd (walkSpan {} t) = x ∧ x ≠ [] := by
    simp only [operand_eq] at found
    split at found
    · cases found
    · rename_i solid
      cases found
      exact ⟨rfl, by simpa using solid⟩
  have again : Text.trimEnd x = x := by rw [← read.1, Text.trimEnd_trimEnd]
  rw [read.1] at trimmed
  have both : x ++ rest = x ++ (trail ++ after) := by
    rw [← split, ← List.append_assoc, ← trimmed, whole]
  exact ⟨read.2, again, trail, after, blank, List.append_cancel_left both, trimmed, whole.symm⟩

/-- How an operand stands in a text that goes on after it. -/
structure Delimits (t x rest : Text) : Prop where
  split : t = x ++ rest
  filled : x ≠ []
  closed : Text.isClosed x = true
  masks : mask .nested t = mask .nested x ++ mask .nested rest
  stop : (Text.trimStart rest).head? = some ')' ∨ StartsLink (Text.trimStart rest)
  /-- No place before it that lies outside every literal and parenthesis could have ended it. -/
  first : ∀ u c v, x = u ++ c :: v → Text.Walk.reach {} u (c :: v ++ rest) = {} → ¬ EndsOperand (c :: v ++ rest)

theorem delimits_of_operand {t x rest : Text} (found : operand? t = some (x, rest)) (more : ¬ Blank rest) :
    Delimits t x rest := by
  have split := (operand_spelled found).1
  obtain ⟨solid, _, trail, after, blank, behind, trimmed, whole⟩ := exists_walkSpan found
  have filled : after ≠ [] := by
    rintro rfl
    rw [behind, List.append_nil] at more
    exact more blank
  obtain ⟨last, earlier⟩ := walkSpan_places whole
  obtain ⟨outside, ends⟩ := last filled
  have spanClosed : Text.isClosed (walkSpan {} t) = true := by
    rw [Text.isClosed_iff, ← Text.Walk.reach_of_apart (Text.Walk.sound_start 0) (ends.apart _)]
    exact outside
  have closed : Text.isClosed x = true := Text.isClosed_of_append_plain (trimmed ▸ spanClosed) blank.plain
  have apart : Text.Apart x rest := by
    rw [behind]
    cases trail with
    | nil => exact ends.apart x
    | cons c trail => exact Text.apart_of_head (Text.isQuote_of_isMark (blank.plain c (by simp)))
  refine ⟨split, solid, closed, by rw [split, Text.mask_append _ closed apart], ?_, fun u c v at' outside' => ?_⟩
  · rw [behind]
    exact ends.trimStart blank
  · have spanned : walkSpan {} t = u ++ c :: (v ++ trail) := by
      rw [trimmed, at']
      simp
    have text : c :: v ++ rest = c :: (v ++ trail) ++ after := by
      rw [behind]
      simp
    rw [text] at outside' ⊢
    exact earlier u c (v ++ trail) spanned outside'

/-- **The readers of literals and of operands see what the mask sees.** -/
theorem scanners_agree :
    (∀ (q : Char) (t : Text), isQuote q = true →
      (∀ literal rest, stringLiteral? (q :: t) = some (literal, rest) →
        q :: t = literal ++ rest ∧
          mask .quotes (q :: t) = q :: List.replicate (size literal - 2) ' ' ++ q :: mask .quotes rest) ∧
      (stringLiteral? (q :: t) = none → mask .quotes (q :: t) = q :: List.replicate (size t) ' ')) ∧
    (∀ t x rest, operand? t = some (x, rest) → ¬ Blank rest → Delimits t x rest) :=
  ⟨fun _ _ quote => ⟨fun _ _ found => mask_of_stringLiteral quote found, fun missed => mask_of_no_literal quote missed⟩,
    fun _ _ _ found more => delimits_of_operand found more⟩

/-- A literal with a doubled and an escaped quote, one without an end, and an operand with a connective inside. -/
theorem scanners_agree_literals :
    mask .quotes ('\'' :: "it''s \\' ok' AND 'x'".toList) = '\'' :: "           ' AND ' '".toList ∧
      mask .quotes ('"' :: "it''s (".toList) = '"' :: "       ".toList ∧
      Delimits "f('a' AND b) OR c = 1".toList "f('a' AND b)".toList " OR c = 1".toList := by
  have literal : stringLiteral? ('\'' :: "it''s \\' ok' AND 'x'".toList) =
      some ('\'' :: "it''s \\' ok'".toList, " AND 'x'".toList) := by decide +kernel
  have unclosed : stringLiteral? ('"' :: "it''s (".toList) = none := by decide +kernel
  refine ⟨?_, ?_, ?_⟩
  · rw [((scanners_agree.1 _ _ rfl).1 _ _ literal).2]
    decide +kernel
  · rw [(scanners_agree.1 _ _ rfl).2 unclosed]
    decide +kernel
  · exact scanners_agree.2 _ _ _ (by decide +kernel) (by decide +kernel)

end Condition
end QueryCode
