import QueryCode.Proofs.Condition.Derived
import QueryCode.Proofs.Condition.Written

/-!
# Reading conditions is sound

Whatever the readers of the grammar return is derived, and so spelled, by the slice that they take: first the tests that
follow a field, then whole predicates, and then, by induction on the depth of nesting, conditions. `parse_reading`
puts these together: the tree that a text is read as accounts for every character of the text.
-/

namespace QueryCode
set_option autoImplicit false

namespace Condition

open Reader

theorem comparator_spelled {t rest : Text} {op : Comparator} (read : comparator t = .ok (some (op, rest))) :
    ∃ slice, t = slice ++ rest ∧ OperatorSpelling slice op := by
  unfold comparator at read
  rw [ofOption_ok] at read
  obtain ⟨⟨spelling, op'⟩, listed, found⟩ := List.exists_of_findSome?_eq_some read
  obtain ⟨rest', split, same⟩ := Option.map_eq_some_iff.1 found
  cases same
  refine ⟨spelling.toList, Text.after_append split, ?_⟩
  simp only [operatorSpellings, List.mem_cons, Prod.mk.injEq, List.not_mem_nil, or_false] at listed
  rcases listed with ⟨rfl, rfl⟩ | ⟨rfl, rfl⟩ | ⟨rfl, rfl⟩ | ⟨rfl, rfl⟩ | ⟨rfl, rfl⟩ | ⟨rfl, rfl⟩ | ⟨rfl, rfl⟩
  · exact .usual .ge
  · exact .usual .le
  · exact .usual .ne
  · exact .angles
  · exact .usual .eq
  · exact .usual .gt
  · exact .usual .lt

/-! ## The tests of a field -/

/-- The slice spells what follows the field in a predicate about it. -/
def TailSpelling (field slice after : Text) (p : Predicate) : Prop :=
  ∀ f g, FieldSpelling f field → Gap g → PredicateSpelling (f ++ g ++ slice) after p

variable {field t rest : Text} {p : Predicate}

theorem likeWord_spelled {anyCase : Bool}
    (read : ((do keyword "ilike"; return true) <|> (do keyword "like"; return false) : Reader Bool) t =
      .ok (some (anyCase, rest))) :
    ∃ slice, t = slice ++ rest ∧ IsKeyword (if anyCase then "ilike" else "like") slice rest := by
  obtain found | ⟨_, found⟩ := orElse_ok.1 read
  all_goals
    obtain ⟨_, mid, word, value⟩ := bind_ok.1 found
    obtain ⟨rfl, rfl⟩ := pure_ok.1 value
    exact keyword_spelled (by decide) word

theorem likeTail_spelled (read : likeTail field t = .ok (some (p, rest))) :
    ∃ slice, t = slice ++ rest ∧ TailSpelling field slice rest p := by
  unfold likeTail at read
  obtain ⟨negated, afterNot, readNegation, read⟩ := bind_ok.1 read
  obtain ⟨anyCase, afterWord, readWord, read⟩ := bind_ok.1 read
  obtain ⟨_, afterGap, readGap, read⟩ := bind_ok.1 read
  obtain ⟨literal, afterLiteral, readQuoted, value⟩ := bind_ok.1 read
  obtain ⟨rfl, rfl⟩ := pure_ok.1 value
  obtain ⟨n, rfl, negation⟩ := negation_spelled readNegation
  obtain ⟨w, rfl, word⟩ := likeWord_spelled readWord
  obtain ⟨g', rfl, gap'⟩ := gaps_spelled readGap
  obtain ⟨rfl, quoted⟩ := stringLiteral_spelled (ofOption_ok.1 readQuoted)
  refine ⟨n ++ w ++ g' ++ literal, by simp, ?_⟩
  intro f g named gap
  have spelled := PredicateSpelling.like named gap negation (by simpa using word) gap' quoted
  simpa using spelled

/-- Both kinds of membership have a parenthesised body; the word `SELECT` in it tells them apart. -/
theorem inTail_spelled (read : inTail field t = .ok (some (p, rest))) :
    ∃ slice, t = slice ++ rest ∧ TailSpelling field slice rest p := by
  unfold inTail at read
  obtain ⟨negated, afterNot, readNegation, read⟩ := bind_ok.1 read
  obtain ⟨_, afterWord, readWord, read⟩ := bind_ok.1 read
  obtain ⟨_, afterGap, readGap, read⟩ := bind_ok.1 read
  obtain ⟨body, afterBody, readClosed, result⟩ := bind_ok.1 read
  obtain ⟨n, rfl, negation⟩ := negation_spelled readNegation
  obtain ⟨w, rfl, word⟩ := keyword_spelled (by decide) readWord
  obtain ⟨g', rfl, gap'⟩ := gaps_spelled readGap
  have found := ofOption_ok.1 readClosed
  have split := Text.parenBody_append found
  rw [split] at found
  subst split
  split at result
  · rename_i query
    obtain ⟨rfl, rfl⟩ := pure_ok.1 result
    refine ⟨n ++ w ++ g' ++ ('(' :: body ++ [')']), by simp, ?_⟩
    intro f g named gap
    have spelled := PredicateSpelling.inQuery named gap negation (by simpa using word) gap' found query
    simpa using spelled
  · rename_i list
    obtain ⟨values, mid, readItems, value⟩ := bind_ok.1 result
    obtain ⟨items, rfl⟩ := ofExcept_ok.1 readItems
    obtain ⟨rfl, rfl⟩ := pure_ok.1 value
    refine ⟨n ++ w ++ g' ++ ('(' :: body ++ [')']), by simp, ?_⟩
    intro f g named gap
    have spelled := PredicateSpelling.inList named gap negation (by simpa using word) gap' found
      (by simpa using list) items
    simpa using spelled

theorem betweenTail_spelled (read : betweenTail field t = .ok (some (p, rest))) :
    ∃ slice, t = slice ++ rest ∧ TailSpelling field slice rest p := by
  unfold betweenTail at read
  obtain ⟨negated, afterNot, readNegation, read⟩ := bind_ok.1 read
  obtain ⟨_, afterWord, readWord, read⟩ := bind_ok.1 read
  obtain ⟨_, afterGap, readGap, read⟩ := bind_ok.1 read
  obtain ⟨low, afterLow, readFirst, read⟩ := bind_ok.1 read
  obtain ⟨_, afterLink, readLink, read⟩ := bind_ok.1 read
  obtain ⟨high, afterHigh, readSecond, value⟩ := bind_ok.1 read
  obtain ⟨rfl, rfl⟩ := pure_ok.1 value
  obtain ⟨n, rfl, negation⟩ := negation_spelled readNegation
  obtain ⟨w, rfl, word⟩ := keyword_spelled (by decide) readWord
  obtain ⟨g', rfl, gap', apart⟩ := gaps1_spelled readGap
  obtain ⟨rfl, first⟩ := operand_spelled (ofOption_ok.1 readFirst)
  obtain ⟨l, rfl, link⟩ := connective_spelled (by decide) readLink
  obtain ⟨rfl, second⟩ := operand_spelled (ofOption_ok.1 readSecond)
  refine ⟨n ++ w ++ g' ++ low ++ l ++ high, by simp, ?_⟩
  intro f g named gap
  have spelled := PredicateSpelling.between named gap negation (by simpa using word) gap' apart
    (by simpa using first) link second
  simpa using spelled

theorem nullTail_spelled (read : nullTail field t = .ok (some (p, rest))) :
    ∃ slice, t = slice ++ rest ∧ TailSpelling field slice rest p := by
  unfold nullTail at read
  obtain ⟨_, afterWord, readWord, read⟩ := bind_ok.1 read
  obtain ⟨_, afterGap, readGap, read⟩ := bind_ok.1 read
  obtain ⟨negated, afterNot, readNegation, read⟩ := bind_ok.1 read
  obtain ⟨_, afterNull, readNull, value⟩ := bind_ok.1 read
  obtain ⟨rfl, rfl⟩ := pure_ok.1 value
  obtain ⟨w, rfl, word⟩ := keyword_spelled (by decide) readWord
  obtain ⟨g', rfl, gap', apart⟩ := gaps1_spelled readGap
  obtain ⟨n, rfl, negation⟩ := negation_spelled readNegation
  obtain ⟨w', rfl, null⟩ := keyword_spelled (by decide) readNull
  refine ⟨w ++ g' ++ n ++ w', by simp, ?_⟩
  intro f g named gap
  have spelled := PredicateSpelling.isNull named gap (by simpa using word) gap' apart negation null
  simpa using spelled

theorem compareTail_spelled (read : compareTail field t = .ok (some (p, rest))) :
    ∃ slice, t = slice ++ rest ∧ TailSpelling field slice rest p := by
  unfold compareTail at read
  obtain ⟨op, afterOp, readOperator, read⟩ := bind_ok.1 read
  obtain ⟨_, afterGap, readGap, read⟩ := bind_ok.1 read
  obtain ⟨value, afterValue, readOperand, result⟩ := bind_ok.1 read
  obtain ⟨rfl, rfl⟩ := pure_ok.1 result
  obtain ⟨o, rfl, operator⟩ := comparator_spelled readOperator
  obtain ⟨g', rfl, gap'⟩ := gaps_spelled readGap
  obtain ⟨rfl, operand⟩ := operand_spelled (ofOption_ok.1 readOperand)
  refine ⟨o ++ g' ++ value, by simp, ?_⟩
  intro f g named gap
  simpa using PredicateSpelling.comparison named gap operator gap' operand

/-- **A predicate is read from a slice that spells it.** -/
theorem predicate_spelled (read : predicate t = .ok (some (p, rest))) :
    ∃ slice, t = slice ++ rest ∧ PredicateSpelling slice rest p := by
  unfold predicate at read
  obtain ⟨field, afterField, readFound, read⟩ := bind_ok.1 read
  obtain ⟨_, afterGap, readGap, readTail⟩ := bind_ok.1 read
  obtain ⟨f, rfl, named⟩ := fieldRef_spelled (ofOption_ok.1 readFound)
  obtain ⟨g, rfl, gap⟩ := gaps_spelled readGap
  have tail : ∃ slice, afterGap = slice ++ rest ∧ TailSpelling field slice rest p := by
    obtain like | ⟨_, readTail⟩ := orElse_ok.1 readTail
    · exact likeTail_spelled like
    obtain member | ⟨_, readTail⟩ := orElse_ok.1 readTail
    · exact inTail_spelled member
    obtain range | ⟨_, readTail⟩ := orElse_ok.1 readTail
    · exact betweenTail_spelled range
    obtain null | ⟨_, compare⟩ := orElse_ok.1 readTail
    · exact nullTail_spelled null
    · exact compareTail_spelled compare
  obtain ⟨slice, rfl, spelled⟩ := tail
  exact ⟨f ++ g ++ slice, by simp, spelled f g named gap⟩

/-! ## The start of a predicate -/

/-- The text starts with a character that an operand can start with. -/
def StartsSolid (t : Text) : Prop := ∃ c more, t = c :: more ∧ Text.isBlank c = false ∧ c ≠ ')'

theorem startsSolid_of_chars {u : Text} (filled : u ≠ []) (chars : ∀ c ∈ u, Text.isNameChar c = true) (v : Text) :
    StartsSolid (u ++ v) := by
  obtain ⟨c, more, rfl⟩ := List.exists_cons_of_ne_nil filled
  have named := chars c List.mem_cons_self
  refine ⟨c, more ++ v, rfl, not_isBlank_of_isNameChar named, ?_⟩
  rintro rfl
  exact absurd named (by decide)

theorem startsSolid_of_spelling {kw : String} {slice rest : Text} (lower : Text.isLowerWord kw.toList = true)
    (letters : Text.lower slice = kw.toList) : StartsSolid (slice ++ rest) :=
  startsSolid_of_chars (ne_nil_of_lower lower letters) (isNameChar_of_lower lower letters) rest

theorem startsSolid_of_negation {t rest : Text} {negated : Bool} (read : negation t = .ok (some (negated, rest)))
    (solid : StartsSolid rest) : StartsSolid t := by
  obtain ⟨slice, rfl, spelled⟩ := negation_spelled read
  cases spelled with
  | absent => exact solid
  | @present word gap letters _ _ =>
    rw [List.append_assoc]
    exact startsSolid_of_spelling (by decide : Text.isLowerWord "not".toList = true) letters

/-- Every test of a field starts with a word or an operator. -/
theorem startsSolid_of_tests
    (read : (likeTail field <|> inTail field <|> betweenTail field <|> nullTail field <|> compareTail field) t =
      .ok (some (p, rest))) : StartsSolid t := by
  have word {kw : String} {t rest : Text} (steady : isSteady kw.toList = true) (lower : Text.isLowerWord kw.toList = true)
      (read : keyword kw t = .ok (some ((), rest))) : StartsSolid t := by
    obtain ⟨slice, rfl, spelled⟩ := keyword_spelled steady read
    exact startsSolid_of_spelling lower spelled.letters
  obtain like | ⟨_, read⟩ := orElse_ok.1 read
  · obtain ⟨_, _, negation, like⟩ := bind_ok.1 like
    obtain ⟨anyCase, _, found, _⟩ := bind_ok.1 like
    obtain ⟨slice, rfl, spelled⟩ := likeWord_spelled found
    refine startsSolid_of_negation negation (startsSolid_of_spelling ?_ spelled.letters)
    cases anyCase <;> decide
  obtain member | ⟨_, read⟩ := orElse_ok.1 read
  · obtain ⟨_, _, negation, member⟩ := bind_ok.1 member
    obtain ⟨_, _, found, _⟩ := bind_ok.1 member
    exact startsSolid_of_negation negation (word (by decide) (by decide) found)
  obtain range | ⟨_, read⟩ := orElse_ok.1 read
  · obtain ⟨_, _, negation, range⟩ := bind_ok.1 range
    obtain ⟨_, _, found, _⟩ := bind_ok.1 range
    exact startsSolid_of_negation negation (word (by decide) (by decide) found)
  obtain null | ⟨_, compare⟩ := orElse_ok.1 read
  · obtain ⟨_, _, found, _⟩ := bind_ok.1 null
    exact word (by decide) (by decide) found
  · obtain ⟨op, after, found, _⟩ := bind_ok.1 compare
    obtain ⟨slice, rfl, spelled⟩ := comparator_spelled found
    cases spelled with
    | usual op => cases op <;> exact ⟨_, _, rfl, by decide, by decide⟩
    | angles => exact ⟨_, _, rfl, by decide, by decide⟩

/-- Where a predicate about a field named `NOT` is read, a condition could stand after that word. -/
theorem startsSolid_after_not {mid : Text} (read : predicate t = .ok (some (p, rest)))
    (word : keyword "not" t = .ok (some ((), mid))) : ∃ behind, gaps mid = .ok (some ((), behind)) ∧ StartsSolid behind := by
  obtain ⟨w, rfl, spelled⟩ := keyword_spelled (by decide) word
  have named : isName w = true := isName_of_lower (by decide) spelled.letters
  unfold predicate at read
  obtain ⟨field, afterField, readField, read⟩ := bind_ok.1 read
  obtain ⟨_, afterGap, readGap, readTail⟩ := bind_ok.1 read
  by_cases point : mid.head? = some '.'
  · obtain ⟨more, rfl⟩ := List.head?_eq_some_iff.1 point
    exact ⟨'.' :: more, rfl, '.', more, rfl, by decide, by decide⟩
  · have found := ofOption_ok.1 readField
    rw [fieldRef_append (.plain named) spelled.ends point] at found
    cases found
    exact ⟨afterGap, readGap, startsSolid_of_tests readTail⟩

/-! ## Conditions -/

/-- Whatever the reader returns for a text of bounded length is derived, as this kind of phrase, from the slice that it
takes. -/
def Derives (n : Nat) (r : Reader Condition) (phrase : Condition → Phrase) : Prop :=
  ∀ t c rest, t.length ≤ n → r t = .ok (some (c, rest)) → ∃ slice, t = slice ++ rest ∧ Derived IsRead (phrase c) slice rest

variable {r u : Reader Condition} {k : Connective} {c : Condition} {n : Nat}

/-- One part and those after it, each behind the connective. -/
theorem parts_derived (part : Derives n r (Phrase.part k)) {mid : Text} {cs : List Condition} (short : t.length ≤ n)
    (head : r t = .ok (some (c, mid))) (tail : Repeats (do connective k.word; r) mid cs rest) :
    ∃ slice, t = slice ++ rest ∧ Derived IsRead (.parts k (c :: cs)) slice rest := by
  -- the induction is on the further parts; each of them is the first of what is left
  induction tail generalizing t c with
  | nil mid =>
    obtain ⟨slice, split, derived⟩ := part t c mid short head
    exact ⟨slice, split, .last derived⟩
  | cons next _ ih =>
    obtain ⟨_, afterLink, readLink, readPart⟩ := bind_ok.1 next
    obtain ⟨slice, rfl, derived⟩ := part _ c _ short head
    obtain ⟨link, rfl, linked⟩ := connective_spelled (by cases k <;> decide) readLink
    simp only [List.length_append] at short
    obtain ⟨slice', rfl, rest'⟩ := ih (by omega) readPart
    exact ⟨slice ++ link ++ slice', by simp, .more (by simpa using derived) linked rest'⟩

theorem junction_derived (part : Derives n r (Phrase.part k)) :
    Derives n (do let first ← r; let more ← many (do connective k.word; r); return combine k.wrap first more)
      (.junction k) := by
  intro t c rest short read
  obtain ⟨first, mid, readFirst, readMore⟩ := bind_ok.1 read
  obtain ⟨more, last, readParts, value⟩ := bind_ok.1 readMore
  obtain ⟨rfl, rfl⟩ := pure_ok.1 value
  obtain ⟨slice, split, derived⟩ := parts_derived part short readFirst (many_repeats readParts)
  refine ⟨slice, split, ?_⟩
  match more with
  | [] =>
    cases derived with
    | last part => exact .alone part
    | more part linked empty => cases empty
  | d :: more => exact .several derived

theorem conjunction_derived (part : Derives n u .unary) : Derives n (conjunction u) (.junction .and) :=
  junction_derived (k := .and) part

theorem disjunction_derived (part : Derives n u .unary) : Derives n (disjunction u) (.junction .or) :=
  junction_derived (k := .or) (conjunction_derived part)

/-- The inside of a group is a condition with white space around it. -/
theorem wholeBody_derived (part : Derives n u .unary) {body : Text} (short : body.length ≤ n)
    (read : wholeBody u body = .ok (some c)) :
    ∃ g slice g', body = g ++ slice ++ g' ∧ Gap g ∧ Derived IsRead (.junction .or c) slice g' ∧ Gap g' := by
  unfold wholeBody at read
  split at read
  · cases read
  · rename_i found inside
    cases read
    obtain ⟨_, afterGap, readGap, inside⟩ := bind_ok.1 inside
    obtain ⟨found, afterCondition, readCondition, inside⟩ := bind_ok.1 inside
    obtain ⟨_, last, readGap', value⟩ := bind_ok.1 inside
    obtain ⟨rfl, rfl⟩ := pure_ok.1 value
    obtain ⟨g, rfl, gap⟩ := gaps_spelled readGap
    rw [List.length_append] at short
    obtain ⟨slice, rfl, derived⟩ := disjunction_derived part _ _ _ (by omega) readCondition
    obtain ⟨g', rfl, gap'⟩ := gaps_spelled readGap'
    rw [List.append_nil] at derived ⊢
    exact ⟨g, slice, g', by simp, gap, derived, gap'⟩
  · cases read

theorem group_derived (part : Derives n u .unary) : Derives (n + 1) (group u) .unary := by
  intro t c rest short read
  unfold group at read
  obtain ⟨body, afterBody, readBody, result⟩ := bind_ok.1 read
  have found := ofOption_ok.1 readBody
  have split := Text.parenBody_append found
  rw [split] at found
  split at result
  · exact absurd result fail_ok
  · rename_i solid
    rw [Bool.not_eq_true, Bool.or_eq_false_iff] at solid
    obtain ⟨inside, afterInside, readInside, value⟩ := bind_ok.1 result
    obtain ⟨whole, rfl⟩ := ofExcept_ok.1 readInside
    have fits : body.length ≤ n := by
      rw [split, List.length_append, List.length_cons] at short
      omega
    match inside with
    | none => exact absurd value fail_ok
    | some d =>
      obtain ⟨rfl, rfl⟩ := pure_ok.1 value
      obtain ⟨g, slice, g', rfl, gap, derived, gap'⟩ := wholeBody_derived part fits whole
      exact ⟨'(' :: (g ++ slice ++ g') ++ [')'], by simp [split], .group found solid.2 gap derived gap'⟩

/-- Only a closing parenthesis is no operand at the start of a text. -/
theorem operand_none {c : Char} (solid : Text.isBlank c = false) (missed : operand? (c :: t) = none) : c = ')' := by
  simp only [operand_eq] at missed
  split at missed
  · rename_i empty
    rw [List.isEmpty_iff, Text.trimEnd_eq_nil, walkSpan] at empty
    split at empty
    · rename_i ends
      simpa [endsOperand, solid] using ends
    · have blank := empty c List.mem_cons_self
      rw [solid] at blank
      cases blank
  · cases missed

/-- Where no condition is found, the text starts with a closing parenthesis. -/
theorem unary_none {depth : Nat} {first : Char} (solid : Text.isBlank first = false)
    (missed : unary (depth + 1) (first :: t) = .ok none) : first = ')' := by
  have noPrimary := (orElse_none.1 missed).2
  have noRaw := (orElse_none.1 (orElse_none.1 noPrimary).2).2
  obtain missed | ⟨_, _, _, missed⟩ := bind_none noRaw
  · exact operand_none solid (by simpa [ofOption] using missed)
  · cases missed

/-- Where a predicate is read because a `NOT` led to nothing, there was none. -/
theorem not_startsWith_of_missed {depth : Nat} (short : t.length ≤ depth + 1) (read : predicate t = .ok (some (p, rest)))
    (missed : (do keyword "not"; gaps; return .not (← unary depth) : Reader Condition) t = .ok none) :
    startsWith "not" t = false := by
  rw [← Bool.not_eq_true]
  intro starts
  obtain ⟨word, after, rfl, spelled⟩ := (startsWith_iff (by decide)).1 starts
  have found := keyword_of_isKeyword spelled
  obtain ⟨_, readGap, c, more, rfl, solid, other⟩ := startsSolid_after_not read found
  obtain ⟨gap, rfl, _⟩ := gaps_spelled readGap
  rw [bind_of_ok found, bind_of_ok readGap] at missed
  obtain missed | ⟨_, _, _, missed⟩ := bind_none missed
  · have letters := ne_nil_of_lower (by decide) spelled.letters
    have long := List.length_pos_of_ne_nil letters
    simp only [List.length_append, List.length_cons] at short
    obtain ⟨depth, rfl⟩ : ∃ d, depth = d + 1 := ⟨depth - 1, by omega⟩
    exact other (unary_none solid missed)
  · cases missed

/-- **Conditions of any depth are derived from the slices that are taken for them.** Each nested condition is shorter than
the one around it, so a depth as great as the length of the text is enough. -/
theorem unary_derived (depth : Nat) : Derives depth (unary depth) .unary := by
  induction depth with
  | zero => intro t c rest _ read; exact absurd read fail_ok
  | succ depth ih =>
    intro t c rest short read
    obtain negated | ⟨missed, plain⟩ := orElse_ok.1 read
    · obtain ⟨_, afterWord, readWord, negated⟩ := bind_ok.1 negated
      obtain ⟨_, afterGap, readGap, negated⟩ := bind_ok.1 negated
      obtain ⟨inner, last, readInner, value⟩ := bind_ok.1 negated
      obtain ⟨rfl, rfl⟩ := pure_ok.1 value
      obtain ⟨w, rfl, word⟩ := keyword_spelled (by decide) readWord
      obtain ⟨g, rfl, gap⟩ := gaps_spelled readGap
      have letters : 0 < w.length := by
        have three := congrArg List.length word.letters
        rw [Text.lower, List.length_map] at three
        exact three ▸ (by decide)
      simp only [List.length_append] at short
      obtain ⟨slice, rfl, derived⟩ := ih _ _ _ (by omega) readInner
      exact ⟨w ++ g ++ slice, by simp, .not (by simpa using word) gap derived⟩
    obtain grouped | ⟨_, read⟩ := orElse_ok.1 plain
    · exact group_derived ih t c rest short (before_ok.1 grouped).1
    obtain leaf | ⟨_, kept⟩ := orElse_ok.1 read
    · obtain ⟨p, mid, readLeaf, value⟩ := bind_ok.1 leaf
      obtain ⟨rfl, rfl⟩ := pure_ok.1 value
      have read := (before_ok.1 readLeaf).1
      obtain ⟨slice, rfl, _⟩ := predicate_spelled read
      exact ⟨slice, rfl, .leaf (.test (not_startsWith_of_missed short read missed) read)⟩
    · obtain ⟨text, mid, readText, value⟩ := bind_ok.1 kept
      obtain ⟨rfl, rfl⟩ := pure_ok.1 value
      obtain ⟨split, operand⟩ := operand_spelled (ofOption_ok.1 readText)
      exact ⟨text, split, .leaf (.kept operand)⟩

theorem IsRead.spelling {slice after : Text} {p : Predicate} (read : IsRead slice after p) :
    PredicateSpelling slice after p := by
  cases read with
  | test _ read =>
    obtain ⟨slice', split, spelled⟩ := predicate_spelled read
    rwa [List.append_cancel_right split]
  | kept operand => exact .raw operand

/-! ## Whole texts -/

/-- Without a first part there are no parts. -/
theorem junction_none (missed : (do
    let first ← r
    let more ← many (do connective k.word; r)
    return combine k.wrap first more : Reader Condition) t =
      .ok none) : r t = .ok none := by
  obtain missed | ⟨first, mid, _, missed⟩ := bind_none missed
  · exact missed
  obtain missed | ⟨more, last, _, missed⟩ := bind_none missed
  · exact absurd missed many_ne_none
  · cases missed

/-- Where no condition is found, the text starts with a closing parenthesis. -/
theorem disjunction_none {depth : Nat} {first : Char} (solid : Text.isBlank first = false)
    (missed : disjunction (unary (depth + 1)) (first :: t) = .ok none) : first = ')' := by
  exact unary_none solid (junction_none (k := .and) (junction_none (k := .or) missed))

/-- The three ways in which a text is read as a condition: as one from end to end, as one with a rest behind it, or not
at all because it starts with a closing parenthesis. -/
theorem parse_cases {w : Text} (read : parse w = .ok (some c)) :
    (∃ slice trail, Text.trim w = slice ++ trail ∧ Text.Blank trail ∧ Derived IsRead (.junction .or c) slice trail) ∨
      (∃ d slice rest, Text.trim w = slice ++ rest ∧ Text.trim rest ≠ [] ∧ c = addConjunct d (raw (Text.trim rest)) ∧
        Derived IsRead (.junction .or d) slice rest) ∨
      ∃ rest, Text.trim w = ')' :: rest ∧ c = raw (')' :: rest) := by
  simp only [parse] at read
  match trimmed : Text.trim w with
  | [] => simp [trimmed] at read
  | first :: t =>
    rw [trimmed, if_neg (by simp), List.length_cons] at read
    match found : disjunction (unary (t.length + 1)) (first :: t) with
    | .error _ =>
      rw [found] at read
      cases read
    | .ok none =>
      rw [found] at read
      cases read
      obtain rfl := disjunction_none (Text.head_trim trimmed) found
      exact .inr (.inr ⟨t, rfl, rfl⟩)
    | .ok (some (d, rest)) =>
      rw [found] at read
      obtain ⟨slice, whole, derived⟩ := disjunction_derived (unary_derived (t.length + 1)) _ _ _ (by simp) found
      by_cases empty : Text.trim rest = []
      · simp only [empty, List.isEmpty_nil, if_true, Except.ok.injEq, Option.some.injEq] at read
        subst read
        exact .inl ⟨slice, rest, whole, Text.trim_eq_nil.1 empty, derived⟩
      · simp only [List.isEmpty_iff, empty, if_false, Except.ok.injEq, Option.some.injEq] at read
        exact .inr (.inl ⟨d, slice, rest, whole, empty, read.symm, derived⟩)

/-- **Every condition that is read accounts for the whole of its text.** -/
theorem parse_reading {w : Text} (read : parse w = .ok (some c)) : Reading w c := by
  obtain ⟨lead, trail, before, after, split⟩ := Text.exists_trim w
  rcases parse_cases read with ⟨slice, rest, whole, blank, derived⟩ | ⟨d, slice, rest, whole, filled, rfl, derived⟩ |
    ⟨rest, whole, rfl⟩
  · have reading := Reading.whole before (derived.spelling fun _ _ _ read => read.spelling) blank after
    rw [split, whole]
    simpa using reading
  · obtain ⟨gap, trail', apart, after', around⟩ := Text.exists_trim rest
    have text : w = lead ++ slice ++ (gap ++ Text.trim rest ++ trail') ++ trail := by
      rw [← around, split, whole]
      simp
    have spelled := derived.spelling fun _ _ _ read => read.spelling
    rw [around] at spelled
    rw [text]
    exact .remainder before spelled apart filled (Text.trim_trim rest) after' after
  · have again : Text.trim (')' :: rest) = ')' :: rest := by rw [← whole, Text.trim_trim]
    rw [split, whole]
    exact .unread before again after

/-! ## Conjuncts -/

/-- The conjuncts of what a phrase stands for. -/
def Phrase.conjuncts : Phrase → List Condition
  | .unary c => c.conjuncts
  | .junction _ c => c.conjuncts
  | .parts _ cs => allConjuncts cs

theorem Phrase.conjuncts_part (k : Connective) (c : Condition) : (Phrase.part k c).conjuncts = c.conjuncts := by
  cases k <;> rfl

/-- Every spelled condition has a conjunct. -/
theorem Spelling.conjuncts_ne_nil {phrase : Phrase} {slice after : Text} (spelled : Spelling phrase slice after) :
    phrase.conjuncts ≠ [] := by
  induction spelled with
  | leaf => simp [Phrase.conjuncts, conjuncts]
  | group _ _ _ _ ih => exact ih
  | not => simp [Phrase.conjuncts, conjuncts]
  | alone _ ih =>
    rw [Phrase.conjuncts_part] at ih
    exact ih
  | @several k _ _ _ _ _ _ ih =>
    cases k with
    | and => simpa [Phrase.conjuncts, Connective.wrap, conjuncts] using ih
    | or => simp [Phrase.conjuncts, Connective.wrap, conjuncts]
  | last _ ih =>
    rw [Phrase.conjuncts_part] at ih
    simpa [Phrase.conjuncts, allConjuncts] using ih
  | more _ _ _ ih _ =>
    rw [Phrase.conjuncts_part] at ih
    simp [Phrase.conjuncts, allConjuncts, ih]

theorem allConjuncts_append (cs ds : List Condition) :
    allConjuncts (cs ++ ds) = allConjuncts cs ++ allConjuncts ds := by
  induction cs with
  | nil => rfl
  | cons c cs ih => rw [List.cons_append, allConjuncts, allConjuncts, ih, List.append_assoc]

/-- **A condition that is read has a conjunct.** -/
theorem parse_conjuncts_ne_nil {w : Text} (read : parse w = .ok (some c)) : c.conjuncts ≠ [] := by
  cases parse_reading read with
  | whole _ spelled _ _ => exact spelled.conjuncts_ne_nil
  | remainder =>
    unfold addConjunct
    split
    · simp [conjuncts, allConjuncts_append, allConjuncts, Condition.raw]
    · simp [conjuncts, allConjuncts, Condition.raw]
  | unread => simp [Condition.raw, conjuncts]

end Condition
end QueryCode
