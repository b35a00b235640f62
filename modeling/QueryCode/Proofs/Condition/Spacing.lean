import QueryCode.Proofs.Condition.Flatten
import QueryCode.Proofs.Condition.Slices

/-!
# White space around a connective

A predicate ends before a connective whatever white space comes first, but the connective itself is read with spaces,
tabs and line ends around it only. Two predicates with a connective between them are therefore read as two conditions
exactly if all the white space around the connective is of these kinds. Any other character among it stays in the text:
before the connective it makes a raw conjunct of the connective and all that follows, and after the connective it makes
raw text of the second condition.
-/

namespace QueryCode
set_option autoImplicit false

namespace Condition

open Reader
open Text (Blank)

/-! ## White space that does not separate -/

instance (t : Text) : Decidable (Gap t) := List.decidableBAll (fun c => Text.isGap c = true) t

/-- White space that is not all of the separating kinds has a first character of another kind. -/
theorem exists_stuck {w : Text} (blank : Blank w) (mixed : ¬ Gap w) :
    ∃ c more, w.dropWhile Text.isGap = c :: more ∧ Blank (c :: more) := by
  cases left : w.dropWhile Text.isGap with
  | nil => exact absurd (List.dropWhile_eq_nil_iff.1 left) mixed
  | cons c more =>
    have suffix : c :: more <:+ w := left ▸ List.dropWhile_suffix _
    exact ⟨c, more, rfl, fun d mem => blank d (suffix.subset mem)⟩

theorem gaps_stuck {w more : Text} {c : Char} (stuck : w.dropWhile Text.isGap = c :: more) (t : Text) :
    gaps (w ++ t) = .ok (some ((), c :: (more ++ t))) := by
  rw [gaps, List.dropWhile_append, stuck]
  rfl

/-- No connective is read after white space that does not separate. -/
theorem connective_stuck (k : Connective) {w : Text} (blank : Blank w) (mixed : ¬ Gap w) (t : Text) :
    connective k.word (w ++ t) = .ok none := by
  obtain ⟨c, more, stuck, blank'⟩ := exists_stuck blank mixed
  have edge : (c :: (more ++ t)).head?.any Text.isNameChar = false :=
    not_isNameChar_of_isBlank (blank' c List.mem_cons_self)
  have missed : keyword k.word (c :: (more ++ t)) = .ok none := by
    cases k <;> exact keyword_of_edge (by decide) (by decide) edge
  exact (bind_of_ok (gaps_stuck stuck t)).trans (bind_of_none missed)

/-! ## Raw text after white space -/

/-- The walk over an operand goes through the white space before a text that is no connective. -/
theorem walkSpan_blank {w x : Text} (blank : Blank w) (solid : x.head?.any Text.isBlank = false)
    (free : startsLogical x = false) : walkSpan {} (w ++ x) = w ++ walkSpan {} x := by
  induction w with
  | nil => rfl
  | cons c w ih =>
    obtain ⟨first, blank'⟩ := List.forall_mem_cons.1 blank
    have start : Text.trimStart (c :: w ++ x) = x := by
      rw [Text.trimStart_append blank]
      cases x with
      | nil => rfl
      | cons d x => exact List.dropWhile_cons_of_neg (by simpa using solid)
    have paren : (c == ')') = false := by
      rw [beq_eq_false_iff_ne]
      rintro rfl
      exact absurd first (by decide)
    have goesOn : endsOperand (c :: w ++ x) = false := by
      simp only [endsOperand, List.cons_append] at start ⊢
      rw [start, free, paren, Bool.and_false, Bool.or_false]
    have step : Text.Walk.step {} c (w ++ x).head? = _ := Text.Walk.step_plain (isMark_of_isBlank first) 0 _
    rw [List.cons_append, walkSpan, ← List.cons_append, goesOn, Bool.and_false, if_neg Bool.false_ne_true, step,
      List.cons_append, ← ih blank']

/-- The walk over an operand goes through text without white space and marks. -/
theorem walkSpan_solid {x : Text} (plain : Text.Plain x) (solid : ∀ c ∈ x, Text.isBlank c = false) (t : Text) :
    walkSpan {} (x ++ t) = x ++ walkSpan {} t := by
  induction x with
  | nil => rfl
  | cons c x ih =>
    rw [Text.plain_cons] at plain
    rw [List.forall_mem_cons] at solid
    have paren : (c == ')') = false := by
      rw [beq_eq_false_iff_ne]
      rintro rfl
      exact absurd plain.1 (by decide)
    have goesOn : endsOperand (c :: (x ++ t)) = false := by
      rw [endsOperand, paren, solid.1]
      rfl
    have step : Text.Walk.step {} c (x ++ t).head? = _ := Text.Walk.step_plain plain.1 0 _
    rw [List.cons_append, walkSpan, goesOn, Bool.and_false, if_neg Bool.false_ne_true, step,
      List.cons_append, ← ih plain.2 solid.2]

theorem walkSpan_eq_self {x : Text} (plain : Text.Plain x) (solid : ∀ c ∈ x, Text.isBlank c = false) :
    walkSpan {} x = x := by
  have walked := walkSpan_solid plain solid []
  rwa [List.append_nil, walkSpan, List.append_nil] at walked

theorem operand_of_span {t u v : Text} (split : t = u ++ v) (span : walkSpan {} t = u) (filled : u ≠ [])
    (last : u.getLast?.any Text.isBlank = false) : operand? t = some (u, v) := by
  simp only [operand_eq]
  rw [span, Text.trimEnd_eq_self_iff.2 last, if_neg (by simpa using filled), split, List.drop_left]

/-- A group starts with a parenthesis. -/
theorem group_of_head {t : Text} (paren : t.head? ≠ some '(') (part : Reader Condition) : group part t = .ok none := by
  have inside : Text.parenBody? t = none := by
    unfold Text.parenBody?
    split
    · exact absurd rfl paren
    · rfl
  exact bind_of_none (congrArg Except.ok inside)

/-- Where no keyword, group or predicate is read, an operand is raw text. -/
theorem unary_raw {t found rest : Text} (word : keyword "not" t = .ok none) (paren : t.head? ≠ some '(')
    (leaf : predicate t = .ok none) (taken : operand? t = some (found, rest)) (depth : Nat) :
    unary (depth + 1) t = .ok (some (raw found, rest)) := by
  refine (orElse_of_none (bind_of_none word)).trans ?_
  refine (orElse_of_none (bind_of_none (group_of_head paren _))).trans ?_
  exact (orElse_of_none (bind_of_none (bind_of_none leaf))).trans (bind_of_ok (ofOption_ok.2 taken))

/-- A text that starts with white space and goes on with no connective is read as raw text. -/
theorem unary_blank {w x : Text} {c : Char} (blank : Blank (c :: w)) (phrase : IsPhrase x) (free : startsLogical x = false)
    (depth : Nat) :
    ∃ found rest, unary (depth + 1) (c :: w ++ x) = .ok (some (raw found, rest)) ∧ found <+: c :: w ++ x := by
  have first : Text.isBlank c = true := blank c List.mem_cons_self
  have word : keyword "not" (c :: w ++ x) = .ok none :=
    keyword_of_edge (by decide) (by decide) (not_isNameChar_of_isBlank first)
  have paren : (c :: w ++ x).head? ≠ some '(' := by
    rintro ⟨⟩
    exact absurd first (by decide)
  have leaf : predicate (c :: w ++ x) = .ok none := by
    have field : fieldRef? (c :: w ++ x) = none := by
      have tick : c = '\x60' → False := by
        rintro rfl
        exact absurd first (by decide)
      have start : ¬ Text.isNameStart c = true := by
        intro start
        have named := isNameChar_of_isNameStart start
        rw [not_isNameChar_of_isBlank first] at named
        cases named
      rw [List.cons_append, fieldRef?, identifier?.eq_2 c (w ++ x) tick, if_neg start]
    exact bind_of_none (congrArg Except.ok field)
  have solid : (Text.trimEnd (walkSpan {} (c :: w ++ x))).isEmpty = false := by
    rw [walkSpan_blank blank phrase.not_isBlank free, List.isEmpty_eq_false_iff]
    intro empty
    obtain ⟨d, x, rfl⟩ := List.exists_cons_of_ne_nil phrase.ne_nil
    have solid : Text.isBlank d = false := phrase.not_isBlank
    have goesOn : endsOperand (d :: x) = false := by
      have paren : (d == ')') = false := by
        rw [beq_eq_false_iff_ne]
        rintro rfl
        have starts : (Text.isNameStart ')' || ')' == '(') = true := phrase.starts
        exact absurd starts (by decide)
      rw [endsOperand, paren, solid]
      rfl
    rw [walkSpan, goesOn, Bool.and_false, if_neg Bool.false_ne_true] at empty
    have all := Text.trimEnd_eq_nil.1 empty d (by simp)
    rw [solid] at all
    cases all
  obtain ⟨found, rest, taken⟩ : ∃ found rest, operand? (c :: w ++ x) = some (found, rest) := by
    simp only [operand_eq, solid]
    exact ⟨_, _, rfl⟩
  exact ⟨found, rest, unary_raw word paren leaf taken depth, (operand_spelled taken).1 ▸ List.prefix_append _ _⟩

/-! ## The first leaves of what is read -/

section Junctions

variable {r : Reader Condition} {k : Connective} {t rest : Text} {c : Condition}

/-- The leaves of a junction start with those of its first part. -/
theorem junction_leaves (read : (do
    let first ← r
    let more ← many (do connective k.word; r)
    return combine k.wrap first more : Reader Condition) t = .ok (some (c, rest))) :
    ∃ first mid more, r t = .ok (some (first, mid)) ∧ c.leaves = first.leaves ++ more := by
  obtain ⟨first, mid, head, read⟩ := bind_ok.1 read
  obtain ⟨parts, last, _, value⟩ := bind_ok.1 read
  obtain ⟨rfl, rfl⟩ := pure_ok.1 value
  cases parts with
  | nil => exact ⟨first, mid, [], head, by simp [combine]⟩
  | cons next parts => exact ⟨first, mid, allLeaves (next :: parts), head, leaves_wrap k (first :: next :: parts)⟩

/-- Where a part follows the first one, its leaves are next. -/
theorem junction_leaves_next {first : Condition} {mid : Text} (head : r t = .ok (some (first, mid))) (solid : mid ≠ [])
    (follows : (do connective k.word; r : Reader Condition) mid ≠ .ok none)
    (read : (do
      let first ← r
      let more ← many (do connective k.word; r)
      return combine k.wrap first more : Reader Condition) t = .ok (some (c, rest))) :
    ∃ next mid' more, (do connective k.word; r : Reader Condition) mid = .ok (some (next, mid')) ∧
      c.leaves = first.leaves ++ (next.leaves ++ more) := by
  rw [bind_of_ok head] at read
  obtain ⟨parts, last, others, value⟩ := bind_ok.1 read
  obtain ⟨rfl, rfl⟩ := pure_ok.1 value
  obtain ⟨next, mid', more, found, rfl⟩ := many_first solid follows others
  exact ⟨next, mid', allLeaves more, found, leaves_wrap k (first :: next :: more)⟩

/-- Two parts up to the end of the text are read as a junction of both. -/
theorem junction_pair {a b : Condition} {mid : Text} (head : r t = .ok (some (a, mid))) (solid : mid ≠ [])
    (next : (do connective k.word; r : Reader Condition) mid = .ok (some (b, []))) :
    (do
      let first ← r
      let more ← many (do connective k.word; r)
      return combine k.wrap first more : Reader Condition) t = .ok (some (k.wrap [a, b], [])) := by
  have stop : (do connective k.word; r : Reader Condition) [] = .ok none := by
    cases k <;> exact bind_of_none rfl
  have others := many_of_repeats (.cons next (.nil [])) stop (List.length_pos_of_ne_nil solid)
  exact (bind_of_ok head).trans (bind_of_ok others)

end Junctions

/-! ## Two predicates -/

theorem isPhrase_text {p : Predicate} (printable : p.Printable) : IsPhrase p.text := by
  obtain ⟨field, words, shape⟩ := exists_shape printable.legible
  exact shape.isPhrase

theorem isSolid_text {p : Predicate} (printable : p.Printable) : Text.IsSolid p.text :=
  Text.isSolid_of_trim (isPhrase_text printable).ne_nil (isPhrase_text printable).trimmed

theorem not_startsLogical_text {p : Predicate} (printable : p.Printable) : startsLogical p.text = false := by
  rw [startsLogical, startsWith_of_printable printable (by decide), startsWith_of_printable printable (by decide)]
  rfl

/-- The connective in capital letters between white space, and what follows. -/
def linkBefore (k : Connective) (before after t : Text) : Text := before ++ (linkText k.underAnd ++ (after ++ t))

section Linked

variable (k : Connective) {before after : Text} (apart : before ≠ []) (apart' : after ≠ []) (blank : Blank before)
  (blank' : Blank after)

include apart' blank' in
theorem head_after (t : Text) : (after ++ t).head?.any Text.isNameChar = false := by
  obtain ⟨c, more, rfl⟩ := List.exists_cons_of_ne_nil apart'
  exact not_isNameChar_of_isBlank (blank' c List.mem_cons_self)

include apart' blank' in
/-- The word of the connective is read after white space that separates. -/
theorem connective_linkBefore (gap : Gap before) (t : Text) :
    connective k.word (linkBefore k before after t) = gaps (after ++ t) := by
  have edge := head_after apart' blank' t
  cases k with
  | and => exact connective_word gap "AND".toList rfl rfl (by decide) edge
  | or => exact connective_word gap "OR".toList rfl rfl (by decide) edge

include apart apart' blank blank' in
/-- The first predicate ends before the white space, of whatever kind it is. -/
theorem unary_linkBefore {p : Predicate} (printable : p.Printable) (depth : Nat) (t : Text) :
    unary (depth + 1) (p.text ++ linkBefore k before after t) = .ok (some (.leaf p, linkBefore k before after t)) :=
  unary_leaf printable.legible (.linked k.underAnd blank apart (head_after apart' blank' t))
    (.inr printable.isClosed_lastOperand) depth

variable {p q : Predicate} (first : p.Printable) (second : q.Printable)

include apart apart' blank blank' first in
/-- A predicate before an `OR` has no `AND` after it. -/
theorem conjunction_linkBefore (gap : Gap before) (depth : Nat) (t : Text) :
    conjunction (unary (depth + 1)) (p.text ++ linkBefore .or before after t) =
      .ok (some (.leaf p, linkBefore .or before after t)) := by
  have lead : gaps (linkBefore .or before after t) = .ok (some ((), "OR".toList ++ (after ++ t))) := gaps_append gap rfl
  have missed : connective "and" (linkBefore .or before after t) = .ok none :=
    (bind_of_ok lead).trans (bind_of_none (keyword_of_differs rfl))
  exact junction_alone (bind_of_none missed) (unary_linkBefore .or apart apart' blank blank' first depth t)

include apart apart' blank blank' first second in
/-- With white space that separates on both sides the connective joins the predicates. -/
theorem disjunction_of_gaps (gap : Gap before) (gap' : Gap after) (depth : Nat) :
    disjunction (unary (depth + 1)) (p.text ++ linkBefore k before after q.text) =
      .ok (some (k.wrap [.leaf p, .leaf q], [])) := by
  have front := unary_linkBefore k apart apart' blank blank' first depth q.text
  have back : unary (depth + 1) q.text = .ok (some (.leaf q, [])) := by
    have read := unary_leaf second.legible .nil (.inl rfl) depth
    rwa [List.append_nil] at read
  have link : connective k.word (linkBefore k before after q.text) = .ok (some ((), q.text)) := by
    have starts := (isPhrase_text second).append_not_isGap []
    rw [List.append_nil] at starts
    exact (connective_linkBefore k apart' blank' gap q.text).trans (gaps_append gap' starts)
  have solid : linkBefore k before after q.text ≠ [] := by simp [linkBefore, apart]
  have stop {kw : String} (missed : connective kw [] = .ok none) (r : Reader Condition) :
      (do connective kw; r : Reader Condition) [] = .ok none := bind_of_none missed
  cases k with
  | and =>
    have both := junction_pair (k := .and) front solid ((bind_of_ok link).trans back)
    exact junction_alone (stop rfl _) both
  | or =>
    have alone := conjunction_linkBefore apart apart' blank blank' first gap depth q.text
    exact junction_pair (k := .or) alone solid ((bind_of_ok link).trans (junction_alone (stop rfl _) back))

include apart apart' blank blank' first in
/-- With any other white space before it the connective is not read. -/
theorem disjunction_of_stuck (mixed : ¬ Gap before) (depth : Nat) (t : Text) :
    disjunction (unary (depth + 1)) (p.text ++ linkBefore k before after t) =
      .ok (some (.leaf p, linkBefore k before after t)) := by
  have front := unary_linkBefore k apart apart' blank blank' first depth t
  have missed (k' : Connective) := connective_stuck k' blank mixed (linkText k.underAnd ++ (after ++ t))
  exact junction_alone (bind_of_none (missed .or)) (junction_alone (bind_of_none (missed .and)) front)

include apart apart' blank blank' first second in
/-- With any other white space after the connective the second condition is raw text, from that white space on. -/
theorem disjunction_leaves (gap : Gap before) (mixed : ¬ Gap after) {depth : Nat} {c : Condition} {rest : Text}
    (read : disjunction (unary (depth + 1)) (p.text ++ linkBefore k before after q.text) = .ok (some (c, rest))) :
    ∃ found more, c.leaves = p :: .raw found :: more ∧ found <+: after.dropWhile Text.isGap ++ q.text := by
  obtain ⟨d, more, stuck, blank''⟩ := exists_stuck blank' mixed
  obtain ⟨found, mid, raw', within⟩ :=
    unary_blank blank'' (isPhrase_text second) (not_startsLogical_text second) depth
  have front := unary_linkBefore k apart apart' blank blank' first depth q.text
  have link : connective k.word (linkBefore k before after q.text) = .ok (some ((), d :: more ++ q.text)) :=
    (connective_linkBefore k apart' blank' gap q.text).trans (gaps_stuck stuck q.text)
  have solid : linkBefore k before after q.text ≠ [] := by simp [linkBefore, apart]
  rw [stuck]
  cases k with
  | and =>
    obtain ⟨both, mid', others, conj, split⟩ := junction_leaves (k := .or) read
    have next := (bind_of_ok (f := fun _ => unary (depth + 1)) link).trans raw'
    obtain ⟨_, _, others', found', split'⟩ := junction_leaves_next (k := .and) front solid (by rw [next]; simp) conj
    rw [next] at found'
    cases found'
    exact ⟨found, others' ++ others, by rw [split, split', leaves, Condition.raw, leaves]; simp, within⟩
  | or =>
    have alone := conjunction_linkBefore apart apart' blank blank' first gap depth q.text
    have follows : (do connective Connective.or.word; conjunction (unary (depth + 1)) : Reader Condition)
        (linkBefore .or before after q.text) ≠ .ok none := by
      intro empty
      rw [bind_of_ok link] at empty
      have missed := junction_none (k := .and) empty
      rw [raw'] at missed
      cases missed
    obtain ⟨_, _, others', found', split'⟩ := junction_leaves_next (k := .or) alone solid follows read
    rw [bind_of_ok link] at found'
    obtain ⟨_, _, others, raw'', split⟩ := junction_leaves (k := .and) found'
    rw [raw'] at raw''
    cases raw''
    exact ⟨found, others ++ others', by rw [split', split, leaves, Condition.raw, leaves]; simp, within⟩

include first second in
/-- The text of the two predicates has no white space around it. -/
theorem trim_linkBefore :
    Text.trim (p.text ++ linkBefore k before after q.text) = p.text ++ linkBefore k before after q.text := by
  have whole : p.text ++ linkBefore k before after q.text =
      p.text ++ (before ++ (linkText k.underAnd ++ after) ++ q.text) := by simp [linkBefore]
  rw [whole]
  exact ((isSolid_text first).append (isSolid_text second) _).trim

include blank second in
theorem trim_rest : Text.trim (linkBefore k before after q.text) = linkText k.underAnd ++ (after ++ q.text) := by
  have word : Text.IsSolid (linkText k.underAnd) := by cases k <;> exact ⟨by decide, by decide, by decide⟩
  have start : Text.trim (before ++ (linkText k.underAnd ++ (after ++ q.text)) ++ []) = _ :=
    Text.trim_append blank Text.blank_nil
  rw [List.append_nil] at start
  rw [linkBefore, start]
  exact (word.append (isSolid_text second) _).trim

include first second in
/-- The predicates are read by the grammar, and what is left of the text is a last conjunct. -/
theorem parse_linkBefore {c : Condition} {rest : Text}
    (read : ∀ depth, disjunction (unary (depth + 1)) (p.text ++ linkBefore k before after q.text) = .ok (some (c, rest))) :
    parse (p.text ++ linkBefore k before after q.text) =
      .ok (some (if (Text.trim rest).isEmpty then c else addConjunct c (raw (Text.trim rest)))) := by
  obtain ⟨a, more, eq⟩ := List.exists_cons_of_ne_nil (isPhrase_text first).ne_nil
  have trimmed : Text.trim (p.text ++ linkBefore k before after q.text) = _ := trim_linkBefore k first second
  simp only [parse]
  rw [trimmed, eq, List.cons_append, List.length_cons, ← List.cons_append, ← eq, read _]
  rw [if_neg (by rw [eq]; simp)]

include apart apart' blank blank' first second in
theorem leaves_of_parse (gap : Gap before) (mixed : ¬ Gap after) {c : Condition}
    (read : parse (p.text ++ linkBefore k before after q.text) = .ok (some c)) :
    ∃ found more, c.leaves = p :: .raw found :: more ∧ found <+: after.dropWhile Text.isGap ++ q.text := by
  have phrase := isPhrase_text first
  obtain ⟨a, more, eq⟩ := List.exists_cons_of_ne_nil phrase.ne_nil
  have trimmed : Text.trim (p.text ++ linkBefore k before after q.text) = _ := trim_linkBefore k first second
  simp only [parse] at read
  rw [trimmed, if_neg (by rw [eq]; simp), eq, List.cons_append, List.length_cons, ← List.cons_append, ← eq] at read
  split at read
  · cases read
  · rename_i empty
    rw [eq] at empty phrase
    obtain rfl := disjunction_none phrase.not_isBlank empty
    have starts : (Text.isNameStart ')' || ')' == '(') = true := phrase.starts
    exact absurd starts (by decide)
  · rename_i d rest whole
    obtain ⟨found, others, split, within⟩ := disjunction_leaves k apart apart' blank blank' first second gap mixed whole
    cases read
    refine ⟨found, if (Text.trim rest).isEmpty then others else others ++ [.raw (Text.trim rest)], ?_, within⟩
    cases (Text.trim rest).isEmpty with
    | true => exact split
    | false =>
      simp only [Bool.false_eq_true, if_false]
      rw [leaves_addConjunct, split]
      rfl

end Linked

/-- **White space around a connective.** Two printable predicates with a connective and any white space between them are
read as the two under the connective exactly if the white space is all spaces, tabs and line ends. Otherwise the first is
still read, but what follows is raw text: the connective and all after it, or all from the first other white space after
the connective. -/
theorem parse_spaced (k : Connective) (before after : Text) (apart : before ≠ []) (apart' : after ≠ []) (blank : Blank before)
    (blank' : Blank after) {p q : Predicate} (first : p.Printable) (second : q.Printable) :
    let t := p.text ++ (before ++ (linkText k.underAnd ++ (after ++ q.text)))
    (parse t = .ok (some (k.wrap [.leaf p, .leaf q])) ↔ Gap before ∧ Gap after) ∧
      (¬ Gap before → parse t = .ok (some (.and [.leaf p, raw (linkText k.underAnd ++ (after ++ q.text))]))) ∧
      (Gap before → ¬ Gap after → ∀ c, parse t = .ok (some c) →
        ∃ found more, c.leaves = p :: .raw found :: more ∧ found <+: after.dropWhile Text.isGap ++ q.text) := by
  intro t
  have stuck (mixed : ¬ Gap before) :
      parse t = .ok (some (.and [.leaf p, raw (linkText k.underAnd ++ (after ++ q.text))])) := by
    have read := parse_linkBefore k first second (disjunction_of_stuck k apart apart' blank blank' first mixed · q.text)
    rw [trim_rest k blank second, if_neg (by cases k <;> simp [Connective.underAnd, linkText])] at read
    exact read
  have raws (gap : Gap before) (mixed : ¬ Gap after) (c : Condition) (read : parse t = .ok (some c)) :=
    leaves_of_parse k apart apart' blank blank' first second gap mixed read
  refine ⟨⟨fun read => ?_, fun gaps => ?_⟩, stuck, raws⟩
  · have both : (k.wrap [.leaf p, .leaf q]).leaves = [p, q] := leaves_wrap k _
    have tested {found : Text} (same : q = .raw found) : False := by
      subst same
      exact second
    by_cases gap : Gap before
    · refine ⟨gap, by_contra fun mixed => ?_⟩
      obtain ⟨found, more, split, _⟩ := raws gap mixed _ read
      rw [both] at split
      exact tested (List.cons.inj (List.cons.inj split).2).1
    · rw [stuck gap] at read
      have same := congrArg leaves (Option.some.inj (Except.ok.inj read))
      rw [both] at same
      exact (tested (List.cons.inj (List.cons.inj same).2).1.symm).elim
  · exact parse_linkBefore k first second (disjunction_of_gaps k apart apart' blank blank' first second gaps.1 gaps.2)

/-- Tabs and line ends separate; a no-break space and a vertical tab do not. -/
theorem parse_spaced_noBreak :
    let p : Predicate := .comparison "a".toList .eq "1".toList
    let q : Predicate := .isNull "b".toList true
    p.Printable ∧ q.Printable ∧
      parse "a = 1\t OR\r\nb IS NOT NULL".toList = .ok (some (.or [.leaf p, .leaf q])) ∧
      parse "a = 1\u00a0AND b IS NOT NULL".toList = .ok (some (.and [.leaf p, raw "AND b IS NOT NULL".toList])) ∧
      parse "a = 1 OR\u000bb IS NOT NULL".toList ≠ .ok (some (.or [.leaf p, .leaf q])) := by
  intro p q
  have first : p.Printable := ⟨.plain (by decide) (by decide), by decide, by decide, by decide⟩
  have second : q.Printable := .plain (by decide) (by decide)
  refine ⟨first, second, ?_, ?_, ?_⟩
  · have spaced := parse_spaced .or "\t ".toList "\r\n".toList (by decide) (by decide) (by decide)
      (by decide) first second
    exact spaced.1.2 ⟨by decide, by decide⟩
  · have spaced := parse_spaced .and "\u00a0".toList " ".toList (by decide) (by decide) (by decide)
      (by decide) first second
    exact spaced.2.1 (by decide)
  · have spaced := parse_spaced .or " ".toList "\u000b".toList (by decide) (by decide) (by decide)
      (by decide) first second
    have mixed : ¬ (Gap " ".toList ∧ Gap "\u000b".toList) := by decide
    exact fun read => mixed (spaced.1.1 read)

end Condition
end QueryCode
