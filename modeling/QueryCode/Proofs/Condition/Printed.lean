import QueryCode.Proofs.Condition.Written
import QueryCode.Proofs.Text.Pieces

/-!
# Predicates that were printed are read

What the parts of a predicate must be like so that its text says it: a field that is no other word, operands that
are read whole, list items without a comma or a query of their own, a pattern without backslashes. The text of such a
predicate is read back as it was, up to a connective or the end. Less is enough where no other word can be meant: a
predicate is legible if only `NOT` is no head of its field, its pattern can be quoted, and its last operand, which may
end inside a literal, has nothing after it then.
-/

namespace QueryCode
set_option autoImplicit false

namespace Condition

/-- A value of a list: an item that is no query and has no closing parenthesis without its partner. -/
structure IsListValue (v : Text) : Prop where
  item : Text.IsItem v
  balanced : Text.isBalanced v = true
  list : containsSelect v = false

/-- A query in parentheses: trimmed, without a closing parenthesis that has no partner, and with `SELECT` outside its
literals. -/
structure IsQuery (q : Text) : Prop where
  trimmed : Text.trim q = q
  balanced : Text.isBalanced q = true
  query : containsSelect q = true

end Condition

namespace Predicate

open Condition (IsField IsBareField IsWritten IsWhole IsListValue IsQuery Quoted)

/-- The parts of the predicate are such that its text says it. The values of a list and a query have no stray closing
parenthesis: it would close the parentheses around them. -/
def Printable : Predicate → Prop
  | .comparison field _ value => IsField field ∧ IsWritten value
  | .like field _ pattern _ => IsField field ∧ '\\' ∉ pattern
  | .inList field _ values => IsField field ∧ ∀ v ∈ values, IsListValue v
  | .inQuery field _ query => IsField field ∧ IsQuery query
  | .between field _ low high => IsField field ∧ IsWritten low ∧ IsWritten high
  | .isNull field _ => IsField field
  | .raw _ => False

/-- The parts of the predicate are such that its text says it where it stands at the end. -/
def Legible : Predicate → Prop
  | .comparison field _ value => IsBareField field ∧ IsWhole value
  | .like field _ pattern _ => IsBareField field ∧ Quoted '\'' (doubleQuotes pattern)
  | .inList field _ values => IsBareField field ∧ ∀ v ∈ values, IsListValue v
  | .inQuery field _ query => IsBareField field ∧ IsQuery query
  | .between field _ low high => IsBareField field ∧ IsWritten low ∧ IsWhole high
  | .isNull field _ => IsBareField field
  | .raw _ => False

/-- The operand that the predicate ends with, if it ends with one. -/
def lastOperand : Predicate → Text
  | .comparison _ _ value => value
  | .between _ _ _ high => high
  | _ => []

theorem Printable.legible {p : Predicate} (printable : p.Printable) : p.Legible := by
  cases p with
  | comparison => exact ⟨printable.1.isBareField, printable.2.isWhole⟩
  | like => exact ⟨printable.1.isBareField, Condition.quoted_doubleQuotes printable.2⟩
  | inList => exact ⟨printable.1.isBareField, printable.2⟩
  | inQuery => exact ⟨printable.1.isBareField, printable.2⟩
  | between => exact ⟨printable.1.isBareField, printable.2.1, printable.2.2.isWhole⟩
  | isNull => exact IsField.isBareField printable
  | raw => exact absurd printable id

theorem Printable.isClosed_lastOperand {p : Predicate} (printable : p.Printable) : Text.isClosed p.lastOperand = true := by
  cases p with
  | comparison => exact printable.2.closed
  | between => exact printable.2.2.closed
  | _ => rfl

end Predicate

namespace Condition

open Reader
open Predicate (notWord likeWord doubleQuotes)

/-! ## Lists and literals -/

theorem containsSelect_join {vs : List Text} (values : ∀ v ∈ vs, IsListValue v) :
    containsSelect (Text.join ", " vs) = false := by
  have lower : Text.isLowerWord "select".toList = true := by decide
  rw [← Bool.not_eq_true, containsSelect, Text.Scan.occurs_word_iff lower,
    Text.mask_join (fun v mem => (values v mem).item.closed)]
  intro has
  obtain ⟨shown, mem, found⟩ := Text.hasWord_join lower has
  obtain ⟨v, part, rfl⟩ := List.mem_map.1 mem
  have absent := (values v part).list
  rw [← Bool.not_eq_true, containsSelect, Text.Scan.occurs_word_iff lower] at absent
  exact absent found

/-- The walk over a literal ends behind its closing quote. -/
theorem walk_quoted {quote : Char} {body : Text} (slash : quote ≠ '\\') (inside : Quoted quote body) :
    Text.Walk.run ⟨.quoted quote, 0⟩ (body ++ [quote]) = {} ∧
      Text.Walk.matched ⟨.quoted quote, 0⟩ (body ++ [quote]) = true := by
  induction inside with
  | nil => simp [Text.Walk.run, Text.Walk.matched, Text.Walk.step, slash]
  | plain plain other _ ih =>
    simp only [List.cons_append, Text.Walk.run, Text.Walk.matched, Text.Walk.step, beq_eq_false_iff_ne.2 plain,
      beq_eq_false_iff_ne.2 other]
    exact ih
  | escaped _ ih => exact ih
  | doubled _ ih =>
    simp only [List.cons_append, Text.Walk.run, Text.Walk.matched, Text.Walk.step, beq_eq_false_iff_ne.2 slash,
      beq_self_eq_true, List.head?_cons]
    exact ih

theorem ne_slash_of_isQuote {quote : Char} (opening : Text.isQuote quote = true) : quote ≠ '\\' := by
  rintro rfl
  cases opening

/-- A closed literal is balanced. -/
theorem isBalanced_literal {quote : Char} {body : Text} (opening : Text.isQuote quote = true) (inside : Quoted quote body) :
    Text.isBalanced (quote :: body ++ [quote]) = true := by
  obtain ⟨closed, matched⟩ := walk_quoted (ne_slash_of_isQuote opening) inside
  have entered (next : Option Char) : (Text.Walk.step {} quote next).2 = ⟨.quoted quote, 0⟩ := by
    simp [Text.Walk.step, opening]
  have other : (quote == ')') = false := by
    rw [beq_eq_false_iff_ne]
    rintro rfl
    cases opening
  rw [Text.isBalanced_iff, Text.isClosed_iff, List.cons_append, Text.Walk.run, Text.Walk.matched, entered, other,
    Bool.and_false]
  exact ⟨matched, closed⟩

theorem isBalanced_quoted {pattern : Text} (inside : Quoted '\'' (doubleQuotes pattern)) :
    Text.isBalanced (quoted pattern) = true := isBalanced_literal rfl inside

/-- All characters of a literal but its delimiters are hidden. -/
theorem cells_quoted {quote : Char} {body : Text} (slash : quote ≠ '\\') (inside : Quoted quote body) :
    ∀ cell ∈ Text.Walk.cells ⟨.quoted quote, 0⟩ (body ++ [quote]), cell.quoted = true ∨ cell.char = quote := by
  induction inside with
  | nil => simp [Text.Walk.cells, Text.Walk.step, slash]
  | plain plain other _ ih =>
    simp only [List.cons_append, Text.Walk.cells, Text.Walk.step, beq_eq_false_iff_ne.2 plain,
      beq_eq_false_iff_ne.2 other]
    exact List.forall_mem_cons.2 ⟨.inl rfl, ih⟩
  | escaped _ ih => exact List.forall_mem_cons.2 ⟨.inl rfl, List.forall_mem_cons.2 ⟨.inl rfl, ih⟩⟩
  | doubled _ ih =>
    simp only [List.cons_append, Text.Walk.cells, Text.Walk.step, beq_eq_false_iff_ne.2 slash, beq_self_eq_true,
      List.head?_cons]
    exact List.forall_mem_cons.2 ⟨.inl rfl, List.forall_mem_cons.2 ⟨.inl rfl, ih⟩⟩

/-- A literal is an item of a list, whatever commas it holds. -/
theorem isItem_quoted {pattern : Text} (inside : Quoted '\'' (doubleQuotes pattern)) : Text.IsItem (quoted pattern) where
  filled := List.cons_ne_nil _ _
  trimmed := by
    refine Text.trim_eq_self rfl ?_
    rw [quoted, List.getLast?_concat]
    rfl
  closed := Text.isClosed_of_isBalanced (isBalanced_quoted inside)
  whole := by
    rw [Text.mem_mask_iff (by decide)]
    rintro ⟨cell, mem, shown⟩
    rw [Text.shows, Bool.and_eq_true, Bool.not_eq_true', Text.Cell.hidden, Bool.or_eq_false_iff, beq_iff_eq] at shown
    rw [quoted, List.cons_append, Text.cells, Text.Walk.cells, List.mem_cons] at mem
    rcases mem with rfl | later
    · rw [Text.Walk.step_char] at shown
      exact absurd shown.2 (by decide)
    · rcases cells_quoted (by decide) inside cell later with hidden | delimiter
      · rw [hidden] at shown
        cases shown.1.1
      · rw [delimiter] at shown
        exact absurd shown.2 (by decide)

/-! ## The words of a predicate -/

theorem negation_append {negated : Bool} {t : Text} (differs : agrees "not".toList t = false)
    (starts : t.head?.any Text.isGap = false) : negation (notWord negated ++ t) = .ok (some (negated, t)) := by
  cases negated with
  | true =>
    have word : keyword "not" ("NOT".toList ++ ' ' :: t) = .ok (some ((), ' ' :: t)) :=
      keyword_of_isKeyword ⟨rfl, rfl⟩
    have gap : gaps1 (' ' :: t) = .ok (some ((), t)) := gaps1_append gap_space (by simp) starts
    have found : (do keyword "not"; gaps1 : Reader Unit) ("NOT".toList ++ ' ' :: t) = .ok (some ((), t)) :=
      (bind_of_ok word).trans gap
    exact bind_of_ok (opt_of_ok found)
  | false =>
    have missed : (do keyword "not"; gaps1 : Reader Unit) t = .ok none := bind_of_none (keyword_of_differs differs)
    exact bind_of_ok (opt_of_none missed)

section Tails

variable {field t : Text} {negated : Bool} (differs : agrees "not".toList t = false)
  (starts : t.head?.any Text.isGap = false)
include differs starts

theorem likeTail_of_differs (ilike : agrees "ilike".toList t = false) (like : agrees "like".toList t = false) :
    likeTail field (notWord negated ++ t) = .ok none := by
  have missed : ((do keyword "ilike"; return true) <|> (do keyword "like"; return false) : Reader Bool) t = .ok none :=
    orElse_none.2 ⟨bind_of_none (keyword_of_differs ilike), bind_of_none (keyword_of_differs like)⟩
  exact (bind_of_ok (negation_append differs starts)).trans (bind_of_none missed)

theorem inTail_of_differs (word : agrees "in".toList t = false) : inTail field (notWord negated ++ t) = .ok none :=
  (bind_of_ok (negation_append differs starts)).trans (bind_of_none (keyword_of_differs word))

theorem betweenTail_of_differs (word : agrees "between".toList t = false) :
    betweenTail field (notWord negated ++ t) = .ok none :=
  (bind_of_ok (negation_append differs starts)).trans (bind_of_none (keyword_of_differs word))

end Tails

theorem nullTail_of_differs {field t : Text} (word : agrees "is".toList t = false) : nullTail field t = .ok none :=
  bind_of_none (keyword_of_differs word)

/-! ## One test after another -/

section Tests

variable {field rest : Text} (stops : Stops rest)
include stops

theorem compareTail_append {op : Comparator} {value : Text} (written : IsWhole value)
    (closed : rest = [] ∨ Text.isClosed value = true) :
    compareTail field (op.text ++ ' ' :: (value ++ rest)) = .ok (some (.comparison field op value, rest)) := by
  have operator : comparator (op.text ++ ' ' :: (value ++ rest)) = .ok (some (op, ' ' :: (value ++ rest))) := by
    cases op <;> rfl
  have gap : gaps (' ' :: (value ++ rest)) = .ok (some ((), value ++ rest)) :=
    gaps_append gap_space (written.append_not_isGap rest)
  have operand : ofOption operand? (value ++ rest) = .ok (some (value, rest)) :=
    ofOption_ok.2 (operand_append written stops closed)
  exact (bind_of_ok operator).trans ((bind_of_ok gap).trans (bind_of_ok operand))

theorem likeTail_append {negated anyCase : Bool} {pattern : Text} (inside : Quoted '\'' (doubleQuotes pattern)) :
    likeTail field (notWord negated ++ (likeWord anyCase ++ ' ' :: (quoted pattern ++ rest))) =
      .ok (some (.like field negated pattern anyCase, rest)) := by
  have negation : negation (notWord negated ++ (likeWord anyCase ++ ' ' :: (quoted pattern ++ rest))) =
      .ok (some (negated, likeWord anyCase ++ ' ' :: (quoted pattern ++ rest))) := by
    cases anyCase <;> exact negation_append rfl rfl
  have word : ((do keyword "ilike"; return true) <|> (do keyword "like"; return false) : Reader Bool)
      (likeWord anyCase ++ ' ' :: (quoted pattern ++ rest)) = .ok (some (anyCase, ' ' :: (quoted pattern ++ rest))) := by
    cases anyCase with
    | true =>
      have found : keyword "ilike" ("ILIKE".toList ++ ' ' :: (quoted pattern ++ rest)) =
          .ok (some ((), ' ' :: (quoted pattern ++ rest))) := keyword_of_isKeyword ⟨rfl, rfl⟩
      exact orElse_of_ok (bind_of_ok found)
    | false =>
      have other : keyword "ilike" ("LIKE".toList ++ ' ' :: (quoted pattern ++ rest)) = .ok none :=
        keyword_of_differs rfl
      have found : keyword "like" ("LIKE".toList ++ ' ' :: (quoted pattern ++ rest)) =
          .ok (some ((), ' ' :: (quoted pattern ++ rest))) := keyword_of_isKeyword ⟨rfl, rfl⟩
      exact (orElse_of_none (bind_of_none other)).trans (bind_of_ok found)
  have gap : gaps (' ' :: (quoted pattern ++ rest)) = .ok (some ((), quoted pattern ++ rest)) :=
    gaps_append gap_space rfl
  have ends : rest.head? ≠ some '\'' := by
    rcases stops.head with rfl | ⟨c, more, blank, rfl⟩
    · simp
    · rintro same
      rw [Option.some.inj same] at blank
      exact absurd blank (by decide)
  have literal : ofOption stringLiteral? (quoted pattern ++ rest) = .ok (some (quoted pattern, rest)) :=
    ofOption_ok.2 (stringLiteral_append inside ends)
  refine (bind_of_ok negation).trans ((bind_of_ok word).trans ((bind_of_ok gap).trans ((bind_of_ok literal).trans ?_)))
  rw [unquote_quoted]
  rfl

theorem betweenTail_append {negated : Bool} {low high : Text} (first : IsWritten low) (second : IsWhole high)
    (closed : rest = [] ∨ Text.isClosed high = true) :
    betweenTail field (notWord negated ++ ("BETWEEN".toList ++ ' ' :: (low ++ (joiner true ++ (high ++ rest))))) =
      .ok (some (.between field negated low high, rest)) := by
  have word : keyword "between" ("BETWEEN".toList ++ ' ' :: (low ++ (joiner true ++ (high ++ rest)))) =
      .ok (some ((), ' ' :: (low ++ (joiner true ++ (high ++ rest))))) := keyword_of_isKeyword ⟨rfl, rfl⟩
  have gap : gaps1 (' ' :: (low ++ (joiner true ++ (high ++ rest)))) =
      .ok (some ((), low ++ (joiner true ++ (high ++ rest)))) := gaps1_append gap_space (by simp) (first.isWhole.append_not_isGap _)
  have operand : ofOption operand? (low ++ (joiner true ++ (high ++ rest))) =
      .ok (some (low, joiner true ++ (high ++ rest))) :=
    ofOption_ok.2 (operand_append first.isWhole (.joined true _) (.inr first.closed))
  have link : connective "and" (joiner true ++ (high ++ rest)) = .ok (some ((), high ++ rest)) :=
    connective_append "AND".toList rfl rfl (by decide) (second.append_not_isGap _)
  have operand' : ofOption operand? (high ++ rest) = .ok (some (high, rest)) :=
    ofOption_ok.2 (operand_append second stops closed)
  exact (bind_of_ok (negation_append rfl rfl)).trans ((bind_of_ok word).trans ((bind_of_ok gap).trans
    ((bind_of_ok operand).trans ((bind_of_ok link).trans (bind_of_ok operand')))))

theorem nullTail_append {negated : Bool} :
    nullTail field ("IS".toList ++ ' ' :: (notWord negated ++ ("NULL".toList ++ rest))) =
      .ok (some (.isNull field negated, rest)) := by
  have word : keyword "is" ("IS".toList ++ ' ' :: (notWord negated ++ ("NULL".toList ++ rest))) =
      .ok (some ((), ' ' :: (notWord negated ++ ("NULL".toList ++ rest)))) := keyword_of_isKeyword ⟨rfl, rfl⟩
  have starts : (notWord negated ++ ("NULL".toList ++ rest)).head?.any Text.isGap = false := by
    cases negated <;> rfl
  have gap : gaps1 (' ' :: (notWord negated ++ ("NULL".toList ++ rest))) =
      .ok (some ((), notWord negated ++ ("NULL".toList ++ rest))) := gaps1_append gap_space (by simp) starts
  have negation : negation (notWord negated ++ ("NULL".toList ++ rest)) = .ok (some (negated, "NULL".toList ++ rest)) :=
    negation_append rfl rfl
  have null : keyword "null" ("NULL".toList ++ rest) = .ok (some ((), rest)) :=
    keyword_of_isKeyword ⟨rfl, stops.not_isNameChar⟩
  exact (bind_of_ok word).trans ((bind_of_ok gap).trans ((bind_of_ok negation).trans (bind_of_ok null)))

end Tests

theorem inTail_append {field body rest : Text} {negated : Bool} (balanced : Text.isBalanced body = true) :
    inTail field (notWord negated ++ ("IN".toList ++ ' ' :: ('(' :: body ++ ')' :: rest))) =
      if containsSelect body then .ok (some (.inQuery field negated (Text.trim body), rest))
      else (do let values ← ofExcept (Text.splitTop ',' body); return .inList field negated values : Reader Predicate) rest := by
  have word : keyword "in" ("IN".toList ++ ' ' :: ('(' :: body ++ ')' :: rest)) =
      .ok (some ((), ' ' :: ('(' :: body ++ ')' :: rest))) := keyword_of_isKeyword ⟨rfl, rfl⟩
  have gap : gaps (' ' :: ('(' :: body ++ ')' :: rest)) = .ok (some ((), '(' :: body ++ ')' :: rest)) :=
    gaps_append gap_space rfl
  have inside : ofOption Text.parenBody? ('(' :: body ++ ')' :: rest) = .ok (some (body, rest)) :=
    ofOption_ok.2 (Text.parenBody_of_isBalanced balanced)
  refine (bind_of_ok (negation_append rfl rfl)).trans ((bind_of_ok word).trans ((bind_of_ok gap).trans
    ((bind_of_ok inside).trans ?_)))
  split <;> rfl

/-- A field is read, and what follows it goes to the tests one after another. -/
theorem predicate_field {field t : Text} (written : IsBareField field) (starts : t.head?.any Text.isGap = false) :
    predicate (field ++ ' ' :: t) =
      (likeTail field <|> inTail field <|> betweenTail field <|> nullTail field <|> compareTail field) t := by
  obtain ⟨_, bare, _⟩ := written
  have name : ofOption fieldRef? (field ++ ' ' :: t) = .ok (some (field, ' ' :: t)) :=
    ofOption_ok.2 (fieldRef_append bare rfl (by simp))
  exact (bind_of_ok name).trans (bind_of_ok (gaps_append gap_space starts))

/-- Of the tests of a field, only a comparison starts where no name goes on. -/
theorem tests_of_edge {field t : Text} {c : Char} (edge : Text.isNameChar c = false) (gap : Text.isGap c = false) :
    (likeTail field <|> inTail field <|> betweenTail field <|> nullTail field <|> compareTail field) (c :: t) =
      compareTail field (c :: t) := by
  have differs : agrees "not".toList (c :: t) = false := agrees_of_edge (by decide) (by decide) edge
  have ilike : agrees "ilike".toList (c :: t) = false := agrees_of_edge (by decide) (by decide) edge
  have like : agrees "like".toList (c :: t) = false := agrees_of_edge (by decide) (by decide) edge
  have list : agrees "in".toList (c :: t) = false := agrees_of_edge (by decide) (by decide) edge
  have range : agrees "between".toList (c :: t) = false := agrees_of_edge (by decide) (by decide) edge
  have null : agrees "is".toList (c :: t) = false := agrees_of_edge (by decide) (by decide) edge
  have first : likeTail field (notWord false ++ c :: t) = .ok none := likeTail_of_differs differs gap ilike like
  have second : inTail field (notWord false ++ c :: t) = .ok none := inTail_of_differs differs gap list
  have third : betweenTail field (notWord false ++ c :: t) = .ok none := betweenTail_of_differs differs gap range
  exact (orElse_of_none first).trans ((orElse_of_none second).trans ((orElse_of_none third).trans
    (orElse_of_none (nullTail_of_differs null))))

/-- A comparison starts with an operator. -/
theorem compareTail_of_head {field t : Text} {c : Char} (other : ['>', '<', '!', '='].contains c = false) :
    compareTail field (c :: t) = .ok none := by
  simp only [List.contains_cons, List.contains_nil, Bool.or_eq_false_iff, beq_eq_false_iff_ne] at other
  have missed : comparator (c :: t) = .ok none := by
    simp [comparator, ofOption, operatorSpellings, Text.after?, Ne.symm other.1, Ne.symm other.2.1, Ne.symm other.2.2.1,
      Ne.symm other.2.2.2.1]
  exact bind_of_none missed

/-- No character of a class is an operator if no operator is in the class. -/
theorem not_operator {p : Char → Bool} (unlisted : ['>', '<', '!', '='].any p = false) {c : Char} (member : p c = true) :
    ['>', '<', '!', '='].contains c = false := by
  rw [← Bool.not_eq_true, List.contains_iff_mem]
  intro listed
  rw [List.any_eq_false] at unlisted
  exact unlisted c listed member

/-- No predicate is read where neither a name nor an operator follows the field. -/
theorem predicate_of_head {t field rest more : Text} {c : Char} (found : fieldRef? t = some (field, rest))
    (lead : gaps rest = .ok (some ((), c :: more))) (edge : Text.isNameChar c = false) (gap : Text.isGap c = false)
    (other : ['>', '<', '!', '='].contains c = false) : predicate t = .ok none := by
  refine (bind_of_ok (ofOption_ok.2 found)).trans ((bind_of_ok lead).trans ?_)
  exact (tests_of_edge edge gap).trans (compareTail_of_head other)

theorem head_notWord (negated : Bool) {t : Text} (starts : t.head?.any Text.isGap = false) :
    (notWord negated ++ t).head?.any Text.isGap = false := by
  cases negated with
  | false => exact starts
  | true => rfl

/-- Before an `IN` no other test of the field is read. -/
theorem predicate_of_inTail {p : Predicate} {field t rest : Text} {negated : Bool} (named : IsBareField field)
    (found : inTail field (notWord negated ++ ("IN".toList ++ ' ' :: t)) = .ok (some (p, rest))) :
    predicate (field ++ ' ' :: (notWord negated ++ ("IN".toList ++ ' ' :: t))) = .ok (some (p, rest)) := by
  rw [predicate_field named]
  · exact (orElse_of_none (likeTail_of_differs rfl rfl rfl rfl)).trans (orElse_of_ok found)
  · exact head_notWord negated rfl

/-- **A printed predicate is read back**, up to the connective after it. -/
theorem predicate_append {p : Predicate} {rest : Text} (legible : p.Legible) (stops : Stops rest)
    (closed : rest = [] ∨ Text.isClosed p.lastOperand = true) : predicate (p.text ++ rest) = .ok (some (p, rest)) := by
  cases p with
  | comparison field op value =>
    obtain ⟨named, written⟩ := legible
    have text : (Predicate.comparison field op value).text ++ rest =
        field ++ ' ' :: (op.text ++ ' ' :: (value ++ rest)) := by simp [Predicate.text]
    have like : likeTail field (notWord false ++ (op.text ++ ' ' :: (value ++ rest))) = .ok none := by
      cases op <;> exact likeTail_of_differs rfl rfl rfl rfl
    have list : inTail field (notWord false ++ (op.text ++ ' ' :: (value ++ rest))) = .ok none := by
      cases op <;> exact inTail_of_differs rfl rfl rfl
    have range : betweenTail field (notWord false ++ (op.text ++ ' ' :: (value ++ rest))) = .ok none := by
      cases op <;> exact betweenTail_of_differs rfl rfl rfl
    have null : nullTail field (op.text ++ ' ' :: (value ++ rest)) = .ok none := by
      cases op <;> exact nullTail_of_differs rfl
    have starts : (op.text ++ ' ' :: (value ++ rest)).head?.any Text.isGap = false := by
      cases op <;> rfl
    rw [text, predicate_field named starts]
    exact (orElse_of_none like).trans ((orElse_of_none list).trans ((orElse_of_none range).trans
      ((orElse_of_none null).trans (compareTail_append stops written closed))))
  | like field negated pattern anyCase =>
    obtain ⟨named, inside⟩ := legible
    have text : (Predicate.like field negated pattern anyCase).text ++ rest =
        field ++ ' ' :: (notWord negated ++ (likeWord anyCase ++ ' ' :: (quoted pattern ++ rest))) := by
      simp [Predicate.text, quoted]
    rw [text, predicate_field named]
    · exact orElse_of_ok (likeTail_append stops inside)
    · exact head_notWord negated (by cases anyCase <;> rfl)
  | inList field negated values =>
    obtain ⟨named, items⟩ := legible
    have balanced := Text.isBalanced_join fun v mem => (items v mem).balanced
    have split := Text.splitTop_join Text.blank_nil Text.blank_nil fun v mem => (items v mem).item
    rw [List.nil_append, List.append_nil] at split
    have text : (Predicate.inList field negated values).text ++ rest =
        field ++ ' ' :: (notWord negated ++ ("IN".toList ++ ' ' :: ('(' :: Text.join ", " values ++ ')' :: rest))) := by
      simp [Predicate.text]
    have found : inTail field (notWord negated ++ ("IN".toList ++ ' ' :: ('(' :: Text.join ", " values ++ ')' :: rest))) =
        _ := inTail_append balanced
    rw [containsSelect_join items, split] at found
    rw [text]
    exact predicate_of_inTail named found
  | inQuery field negated query =>
    obtain ⟨named, written⟩ := legible
    have text : (Predicate.inQuery field negated query).text ++ rest =
        field ++ ' ' :: (notWord negated ++ ("IN".toList ++ ' ' :: ('(' :: query ++ ')' :: rest))) := by
      simp [Predicate.text]
    have found : inTail field (notWord negated ++ ("IN".toList ++ ' ' :: ('(' :: query ++ ')' :: rest))) = _ :=
      inTail_append written.balanced
    rw [written.query, written.trimmed] at found
    rw [text]
    exact predicate_of_inTail named found
  | between field negated low high =>
    obtain ⟨named, first, second⟩ := legible
    have text : (Predicate.between field negated low high).text ++ rest =
        field ++ ' ' :: (notWord negated ++ ("BETWEEN".toList ++ ' ' :: (low ++ (joiner true ++ (high ++ rest))))) := by
      simp [Predicate.text, joiner]
    rw [text, predicate_field named]
    · exact (orElse_of_none (likeTail_of_differs rfl rfl rfl rfl)).trans
        ((orElse_of_none (inTail_of_differs rfl rfl rfl)).trans (orElse_of_ok (betweenTail_append stops first second closed)))
    · exact head_notWord negated rfl
  | isNull field negated =>
    have text : (Predicate.isNull field negated).text ++ rest =
        field ++ ' ' :: ("IS".toList ++ ' ' :: (notWord negated ++ ("NULL".toList ++ rest))) := by
      simp [Predicate.text]
    have like : likeTail field (notWord false ++ ("IS".toList ++ ' ' :: (notWord negated ++ ("NULL".toList ++ rest)))) =
        .ok none := likeTail_of_differs rfl rfl rfl rfl
    have list : inTail field (notWord false ++ ("IS".toList ++ ' ' :: (notWord negated ++ ("NULL".toList ++ rest)))) =
        .ok none := inTail_of_differs rfl rfl rfl
    have range : betweenTail field (notWord false ++ ("IS".toList ++ ' ' :: (notWord negated ++ ("NULL".toList ++ rest)))) =
        .ok none := betweenTail_of_differs rfl rfl rfl
    rw [text, predicate_field legible rfl]
    exact (orElse_of_none like).trans ((orElse_of_none list).trans ((orElse_of_none range).trans
      (orElse_of_ok (nullTail_append stops))))
  | raw text => exact absurd legible id

/-! ## What the text of a predicate looks like -/

/-- Text without quotes, parentheses and backticks. -/
def Wordy (t : Text) : Prop := ∀ c ∈ t, (Text.isMark c || c == '\x60') = false

instance (t : Text) : Decidable (Wordy t) := List.decidableBAll (fun c => (Text.isMark c || c == '\x60') = false) t

theorem wordy_append {s t : Text} : Wordy (s ++ t) ↔ Wordy s ∧ Wordy t := List.forall_mem_append

theorem Wordy.plain {t : Text} (wordy : Wordy t) : Text.Plain t := fun c mem => (Bool.or_eq_false_iff.1 (wordy c mem)).1

theorem wordy_notWord (negated : Bool) : Wordy (notWord negated) := by
  cases negated <;> decide

/-- What the text of a predicate ends with, after the field and the words of the test. -/
def ending : Predicate → Text
  | .comparison _ _ value => value
  | .like _ _ pattern _ => quoted pattern
  | .inList _ _ values => '(' :: Text.join ", " values ++ [')']
  | .inQuery _ _ query => '(' :: query ++ [')']
  | .between _ _ low high => low ++ (joiner true ++ high)
  | .isNull .. => "NULL"
  | .raw text => text

theorem exists_words {p : Predicate} {field : Text} (tested : p.field? = some field) :
    ∃ words, Wordy words ∧ p.text = field ++ (' ' :: words ++ ending p) := by
  cases p with
  | comparison _ op value =>
    cases tested
    exact ⟨op.text ++ [' '], by cases op <;> decide, by simp [Predicate.text, ending]⟩
  | like _ negated pattern anyCase =>
    cases tested
    have word : Wordy (likeWord anyCase ++ [' ']) := by cases anyCase <;> decide
    exact ⟨_, wordy_append.2 ⟨wordy_notWord negated, word⟩, by simp [Predicate.text, ending, quoted]⟩
  | inList _ negated values =>
    cases tested
    have word : Wordy "IN ".toList := by decide
    exact ⟨_, wordy_append.2 ⟨wordy_notWord negated, word⟩, by simp [Predicate.text, ending]⟩
  | inQuery _ negated query =>
    cases tested
    have word : Wordy "IN ".toList := by decide
    exact ⟨_, wordy_append.2 ⟨wordy_notWord negated, word⟩, by simp [Predicate.text, ending]⟩
  | between _ negated low high =>
    cases tested
    have word : Wordy "BETWEEN ".toList := by decide
    exact ⟨_, wordy_append.2 ⟨wordy_notWord negated, word⟩, by simp [Predicate.text, ending, joiner]⟩
  | isNull _ negated =>
    cases tested
    have word : Wordy "IS ".toList := by decide
    exact ⟨_, wordy_append.2 ⟨word, wordy_notWord negated⟩, by simp [Predicate.text, ending]⟩
  | raw => cases tested

/-- A text at the end of a predicate: it is not empty, ends with no white space, has an opening parenthesis for each closing
one, and leaves open what the last operand leaves open. -/
structure Tail (t last : Text) : Prop where
  matched : Text.Walk.matched {} t = true
  solid : t ≠ []
  ends : t.getLast?.any Text.isBlank = false
  closed : Text.isClosed t = Text.isClosed last

theorem tail_parens {body : Text} (balanced : Text.isBalanced body = true) : Tail ('(' :: body ++ [')']) [] := by
  obtain ⟨matched, closed⟩ := Text.isBalanced_iff.1 (Text.isBalanced_parens balanced)
  refine ⟨matched, by simp, ?_, closed⟩
  rw [List.getLast?_concat]
  decide

theorem tail_of_legible {p : Predicate} (legible : p.Legible) : Tail (ending p) p.lastOperand := by
  cases p with
  | comparison field op value => exact ⟨legible.2.matched, legible.2.trimmed.1, legible.2.last, rfl⟩
  | like field negated pattern anyCase =>
    obtain ⟨matched, closed⟩ := Text.isBalanced_iff.1 (isBalanced_quoted legible.2)
    refine ⟨matched, by simp [ending, quoted], ?_, closed⟩
    rw [ending, quoted, List.getLast?_concat]
    decide
  | inList field negated values => exact tail_parens (Text.isBalanced_join fun v mem => (legible.2 v mem).balanced)
  | inQuery field negated query => exact tail_parens legible.2.balanced
  | between field negated low high =>
    obtain ⟨_, first, second⟩ := legible
    have front : Text.isBalanced low = true := Text.isBalanced_iff.2 ⟨first.isWhole.matched, first.closed⟩
    have link : Text.Plain (joiner true) := by decide
    have apart : Text.Apart low (joiner true ++ high) := Text.apart_of_head (c := ' ') (by decide)
    refine ⟨?_, by simp [ending, joiner], ?_, ?_⟩
    · rw [ending, Text.matched_append_left front apart, Text.matched_append_left link.isBalanced link.apart_left]
      exact second.matched
    · rw [ending, List.getLast?_append_of_ne_nil _ (by simp [joiner]), List.getLast?_append_of_ne_nil _ second.trimmed.1]
      exact second.last
    · rw [ending, Text.isClosed_append_left first.closed apart, Text.isClosed_append_left link.isClosed link.apart_left]
      rfl
  | isNull field negated =>
    have null : Text.Plain "NULL".toList := by decide
    rw [ending]
    exact ⟨(Text.isBalanced_iff.1 null.isBalanced).1, by decide, by decide, null.isClosed⟩
  | raw text => exact absurd legible id

/-- How the text of a predicate is made: the field, words without quotes and parentheses, and what is tested. -/
structure Shape (p : Predicate) (field words : Text) : Prop extends Tail (ending p) p.lastOperand where
  text : p.text = field ++ (' ' :: words ++ ending p)
  tested : p.field? = some field
  named : IsBareField field
  plain : Text.Plain words

theorem exists_shape {p : Predicate} (legible : p.Legible) : ∃ field words, Shape p field words := by
  obtain ⟨field, tested, named⟩ : ∃ field, p.field? = some field ∧ IsBareField field := by
    cases p with
    | isNull => exact ⟨_, rfl, legible⟩
    | raw => exact absurd legible id
    | _ => exact ⟨_, rfl, legible.1⟩
  obtain ⟨words, wordy, text⟩ := exists_words tested
  exact ⟨field, words, tail_of_legible legible, text, tested, named, wordy.plain⟩

/-- The text of a condition: it starts with a name or a parenthesis, ends with no white space, and each closing
parenthesis in it has an opening one. -/
structure IsPhrase (t : Text) : Prop where
  starts : t.head?.any (fun c => Text.isNameStart c || c == '(') = true
  ends : t.getLast?.any Text.isBlank = false
  matched : Text.Walk.matched {} t = true

namespace IsPhrase

variable {t : Text} (phrase : IsPhrase t)
include phrase

theorem ne_nil : t ≠ [] := by
  rintro rfl
  exact absurd phrase.starts (by decide)

theorem not_isBlank : t.head?.any Text.isBlank = false := by
  obtain ⟨c, more, rfl⟩ := List.exists_cons_of_ne_nil phrase.ne_nil
  have start := phrase.starts
  rw [List.head?_cons, Option.any_some, Bool.or_eq_true, beq_iff_eq] at start
  rw [List.head?_cons, Option.any_some]
  rcases start with name | rfl
  · exact not_isBlank_of_isNameChar (isNameChar_of_isNameStart name)
  · decide

theorem trimmed : Text.trim t = t := Text.trim_eq_self phrase.not_isBlank phrase.ends

theorem trimStart_eq : Text.trimStart t = t := by
  rw [← phrase.trimmed]
  exact Text.trimStart_trim t

theorem append_not_isGap (rest : Text) : (t ++ rest).head?.any Text.isGap = false := by
  obtain ⟨c, more, rfl⟩ := List.exists_cons_of_ne_nil phrase.ne_nil
  have solid := phrase.not_isBlank
  rw [List.head?_cons, Option.any_some] at solid
  rw [List.cons_append, List.head?_cons, Option.any_some, ← Bool.not_eq_true]
  intro gap
  rw [isBlank_of_isGap gap] at solid
  cases solid

end IsPhrase

section Fields

variable {head field : Text} (bare : BareField head field)
include bare

/-- A field and the text after it start with the first character of a name. -/
theorem BareField.exists_start (rest : Text) : ∃ c more, field ++ rest = c :: more ∧ Text.isNameStart c = true := by
  have first {name : Text} (named : isName name = true) (more : Text) :
      ∃ c tail, name ++ more = c :: tail ∧ Text.isNameStart c = true := by
    cases name with
    | nil => cases named
    | cons c name =>
      rw [isName, Bool.and_eq_true] at named
      exact ⟨c, name ++ more, rfl, named.1⟩
  cases bare with
  | plain named => exact first named rest
  | qualified named _ =>
    rw [List.append_assoc]
    exact first named _

theorem BareField.parenBody (rest : Text) : Text.parenBody? (field ++ rest) = none := by
  obtain ⟨c, more, split, start⟩ := bare.exists_start rest
  rw [split]
  unfold Text.parenBody?
  split
  · rename_i same
    cases same
    exact absurd start (by decide)
  · rfl

theorem BareField.isPlain : Text.Plain field := by
  have name {name : Text} (named : isName name = true) : Text.Plain name :=
    Text.plain_of_class (by decide) (chars_of_isName named)
  cases bare with
  | plain named => exact name named
  | qualified named named' => exact Text.plain_append.2 ⟨name named, Text.plain_cons.2 ⟨by decide, name named'⟩⟩

end Fields

section Shapes

variable {p : Predicate} {field words : Text} (shape : Shape p field words)
include shape

theorem Shape.isPlain : Text.Plain (field ++ ' ' :: words) := by
  obtain ⟨_, bare, _⟩ := shape.named
  exact Text.plain_append.2 ⟨bare.isPlain, Text.plain_cons.2 ⟨by decide, shape.plain⟩⟩

theorem Shape.text_eq : p.text = field ++ ' ' :: words ++ ending p := by
  rw [shape.text, List.append_assoc]

theorem Shape.isPhrase : IsPhrase p.text where
  starts := by
    obtain ⟨_, bare, _⟩ := shape.named
    obtain ⟨c, more, split, start⟩ := bare.exists_start (' ' :: words ++ ending p)
    rw [shape.text, split, List.head?_cons, Option.any_some, start]
    rfl
  ends := by
    rw [shape.text_eq, List.getLast?_append_of_ne_nil _ shape.solid]
    exact shape.ends
  matched := by
    rw [shape.text_eq, Text.matched_append_left shape.isPlain.isBalanced shape.isPlain.apart_left]
    exact shape.matched

/-- Only its last operand can leave a predicate inside a literal or parentheses. -/
theorem Shape.isClosed_text : Text.isClosed p.text = Text.isClosed p.lastOperand := by
  rw [shape.text_eq, Text.isClosed_append_left shape.isPlain.isClosed shape.isPlain.apart_left, shape.closed]

end Shapes

/-- The text of a printable predicate starts with none of the words that mean something else there. -/
theorem startsWith_of_printable {p : Predicate} (printable : p.Printable) {kw : String} (listed : kw ∈ headWords) :
    startsWith kw p.text = false := by
  obtain ⟨field, words, shape⟩ := exists_shape printable.legible
  have named : IsField field := by
    have tested := shape.tested
    cases p with
    | isNull => cases tested; exact printable
    | raw => cases tested
    | _ => cases tested; exact printable.1
  obtain ⟨head, bare, other⟩ := named.bare
  have spelled : ∀ kw ∈ headWords, isBare kw.toList = true ∧ Text.isLowerWord kw.toList = true := by decide
  obtain ⟨plain, lower⟩ := spelled kw listed
  rw [shape.text, startsWith, List.cons_append, keyword_of_field bare plain lower (other kw listed) rfl]

end Condition
end QueryCode
