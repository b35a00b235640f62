import QueryCode.Proofs.Condition.Spacing
import QueryCode.Proofs.Statement.Equation

/-!
# Key equations as conditions

A key equation is read as a comparison or kept as raw text, and has the same keys either way, unless a part of a table
name is taken for a keyword. Names of key equations are made of word characters, but a keyword ends before the first
character that is no name character, and marks are none. So a name that goes on with a mark after the letters of `NOT`
negates the condition, and one that goes on so after the letters of `AND` or `OR` cuts raw text in two.
-/

namespace QueryCode
set_option autoImplicit false

namespace Association

open Condition Reader
open Text (isWord isBlank isNameChar Blank)

/-! ## Names in conditions -/

namespace NameText

/-- The name is read whole in a condition. -/
def isReadable (n : NameText) : Bool :=
  n.opened == n.closed && if n.opened then n.name.all isNameChar else isName n.name

/-- The keyword is read at the start of the name. -/
def opensWith (n : NameText) (kw : String) : Bool := !n.opened && startsWith kw n.name

end NameText

/-- A character of a key at which no name of a condition goes on. -/
def isStray (c : Char) : Bool := c == '.' || c == '\x60' || (isWord c && !isNameChar c)

theorem not_isNameChar_of_isStray {c : Char} (stray : isStray c = true) : isNameChar c = false := by
  simp only [isStray, Bool.or_eq_true, beq_iff_eq, Bool.and_eq_true, Bool.not_eq_true'] at stray
  rcases stray with (rfl | rfl) | ⟨_, other⟩
  · rfl
  · rfl
  · exact other

theorem not_isBlank_of_isStray {c : Char} (stray : isStray c = true) : isBlank c = false := by
  simp only [isStray, Bool.or_eq_true, beq_iff_eq, Bool.and_eq_true, Bool.not_eq_true'] at stray
  rcases stray with (rfl | rfl) | ⟨word, _⟩
  · rfl
  · rfl
  · exact Text.not_isBlank_of_isWord word

theorem not_isGap_of_isBlank {c : Char} (solid : isBlank c = false) : Text.isGap c = false := by
  rw [← Bool.not_eq_true]
  intro gap
  rw [isBlank_of_isGap gap] at solid
  cases solid

/-- Word characters that are not all name characters leave a stray one at the front when the name is taken. -/
theorem exists_isStray {t : Text} (word : ∀ c ∈ t, isWord c = true) (mixed : t.all isNameChar = false) (rest : Text) :
    ∃ c more, (t ++ rest).dropWhile isNameChar = c :: more ∧ isStray c = true ∧ c ≠ '.' ∧ c ≠ '\x60' := by
  induction t with
  | nil => cases mixed
  | cons c t ih =>
    rw [List.forall_mem_cons] at word
    by_cases named : isNameChar c = true
    · rw [List.all_cons, named, Bool.true_and] at mixed
      obtain ⟨d, more, left, stray⟩ := ih word.2 mixed
      exact ⟨d, more, by rw [List.cons_append, List.dropWhile_cons_of_pos named, left], stray⟩
    · have left : (c :: t ++ rest).dropWhile isNameChar = c :: (t ++ rest) := List.dropWhile_cons_of_neg named
      refine ⟨c, t ++ rest, left, by simp [isStray, word.1, named], ?_, ?_⟩
      · rintro rfl
        exact absurd word.1 (by decide)
      · rintro rfl
        exact absurd word.1 (by decide)

/-- A name in backticks is read only up to the closing one. -/
theorem identifier_ticked_none {t : Text} (open' : (t.dropWhile isNameChar).head? ≠ some '\x60') :
    identifier? ('\x60' :: t) = none := by
  rw [identifier?]
  split
  · rename_i left
    rw [left] at open'
    exact absurd rfl open'
  · rfl

section Identifiers

variable (n : NameText) {rest : Text} (edge : rest.head?.any isNameChar = false)
include edge

theorem identifier_of_isReadable (readable : n.isReadable = true) : identifier? (n.text ++ rest) = some (n.name, rest) := by
  rw [NameText.isReadable, Bool.and_eq_true, beq_iff_eq] at readable
  obtain ⟨same, named⟩ := readable
  rw [n.text_append, ← same]
  cases opened : n.opened with
  | false =>
    rw [opened, if_neg Bool.false_ne_true] at named
    exact identifier_append named edge
  | true =>
    rw [opened, if_pos rfl, List.all_eq_true] at named
    have tick : ('\x60' :: rest).head?.any isNameChar = false := rfl
    change identifier? ('\x60' :: (n.name ++ '\x60' :: rest)) = _
    obtain ⟨c, more, eq, _⟩ := n.exists_cons
    rw [identifier?, Text.takeWhile_run named tick, Text.dropWhile_run named tick, eq]
    rfl

theorem identifier_of_not_isReadable (unreadable : n.isReadable = false) (tick : rest.head? ≠ some '\x60') :
    identifier? (n.text ++ rest) = none ∨
      ∃ name c more, identifier? (n.text ++ rest) = some (name, c :: more) ∧ isStray c = true ∧ c ≠ '.' := by
  rw [n.text_append]
  cases opened : n.opened with
  | true =>
    left
    apply identifier_ticked_none
    change ((n.name ++ (tickMark n.closed ++ rest)).dropWhile isNameChar).head? ≠ some '\x60'
    by_cases named : n.name.all isNameChar = true
    · have unclosed : n.closed = false := by simpa [NameText.isReadable, opened, named] using unreadable
      rw [unclosed, tickMark_false, List.nil_append, Text.dropWhile_run (List.all_eq_true.1 named) edge]
      exact tick
    · rw [Bool.not_eq_true] at named
      obtain ⟨c, more, left, _, _, other⟩ := exists_isStray n.word named (tickMark n.closed ++ rest)
      rw [left]
      simpa using other
  | false =>
    obtain ⟨c, more, eq, word⟩ := n.exists_cons
    have first : c ≠ '\x60' := by
      rintro rfl
      exact absurd word (by decide)
    change identifier? (n.name ++ (tickMark n.closed ++ rest)) = none ∨
      ∃ name d more, identifier? (n.name ++ (tickMark n.closed ++ rest)) = some (name, d :: more) ∧ _
    rw [eq, List.cons_append, identifier?.eq_2 c _ first]
    by_cases start : Text.isNameStart c = true
    · right
      rw [if_pos start]
      by_cases named : more.all isNameChar = true
      · -- a name that is read is followed by a closing backtick without an opening one
        have closed : n.closed = true := by
          simpa [NameText.isReadable, opened, eq, isName, start, named] using unreadable
        have tick : (tickMark true ++ rest).head?.any isNameChar = false := rfl
        rw [closed, Text.dropWhile_run (List.all_eq_true.1 named) tick]
        exact ⟨_, '\x60', rest, rfl, rfl, by decide⟩
      · rw [Bool.not_eq_true] at named
        have words : ∀ d ∈ more, isWord d = true := fun d mem => n.word d (by rw [eq]; exact List.mem_cons_of_mem c mem)
        obtain ⟨d, rest', left, stray, point, _⟩ := exists_isStray words named (tickMark n.closed ++ rest)
        exact ⟨_, d, rest', by rw [left], stray, point⟩
    · exact .inl (if_neg start)

end Identifiers

/-! ## Keys in conditions -/

namespace KeyText

/-- The key is read whole as a field. -/
def isReadable (k : KeyText) : Bool := k.table.isReadable && k.column.isReadable

/-- A connective is read at the start of the key. -/
def opensLink (k : KeyText) : Bool := k.table.opensWith "and" || k.table.opensWith "or"

/-- The key without backticks. -/
def bare (k : KeyText) : KeyText :=
  ⟨{ k.table with opened := false, closed := false }, { k.column with opened := false, closed := false }⟩

theorem text_bare (k : KeyText) : k.bare.text = k.table.name ++ '.' :: k.column.name := by
  simp [bare, text, NameText.text, tickMark]

theorem text_append (k : KeyText) (t : Text) : k.text ++ t = k.table.text ++ '.' :: (k.column.text ++ t) := by simp [text]

theorem head_not_isGap (k : KeyText) : k.text.head?.any Text.isGap = false := by
  obtain ⟨c, more, eq⟩ := List.exists_cons_of_ne_nil k.text_ne_nil
  rw [eq]
  exact not_isGap_of_isBlank (not_isBlank (by rw [eq]; exact List.mem_cons_self))

theorem plain_text (k : KeyText) : Text.Plain k.text := by
  intro c mem
  rcases mem_text mem with word | rfl | rfl
  · exact Text.isMark_of_class (p := isWord) (by decide) word
  · rfl
  · rfl

end KeyText

section Keys

variable (k : KeyText) {rest : Text}

theorem fieldRef_of_isReadable (edge : rest.head?.any isNameChar = false) (readable : k.isReadable = true) :
    fieldRef? (k.text ++ rest) = some (k.bare.text, rest) := by
  rw [KeyText.isReadable, Bool.and_eq_true] at readable
  rw [k.text_append, fieldRef?, identifier_of_isReadable k.table rfl readable.1, k.text_bare]
  simp only [identifier_of_isReadable k.column edge readable.2]

/-- Of a key that is not read whole, no field is read or one before a stray character. -/
theorem fieldRef_of_not_isReadable (edge : rest.head?.any isNameChar = false) (tick : rest.head? ≠ some '\x60')
    (unreadable : k.isReadable = false) :
    fieldRef? (k.text ++ rest) = none ∨
      ∃ field c more, fieldRef? (k.text ++ rest) = some (field, c :: more) ∧ isStray c = true := by
  rw [k.text_append, fieldRef?]
  cases readable : k.table.isReadable with
  | false =>
    have point : ('.' :: (k.column.text ++ rest)).head? ≠ some '\x60' := by simp
    rcases identifier_of_not_isReadable k.table rfl readable point with missed | ⟨name, c, more, found, stray, point⟩
    · rw [missed]
      exact .inl rfl
    · rw [found]
      refine .inr ⟨name, c, more, ?_, stray⟩
      simp [point]
  | true =>
    have column : k.column.isReadable = false := by simpa [KeyText.isReadable, readable] using unreadable
    rw [identifier_of_isReadable k.table rfl readable]
    right
    rcases identifier_of_not_isReadable k.column edge column tick with missed | ⟨name, c, more, found, stray, _⟩
    · simp only [missed]
      exact ⟨_, '.', _, rfl, rfl⟩
    · simp only [found]
      exact ⟨_, c, more, rfl, stray⟩

/-- A keyword is read at the start of a key exactly if it is read at the start of its table name. -/
theorem startsWith_key {kw : String} (bare : isBare kw.toList = true) (named : Text.isLowerWord kw.toList = true) (t : Text) :
    startsWith kw (k.text ++ t) = k.table.opensWith kw := by
  rw [k.text_append, k.table.text_append, NameText.opensWith]
  cases opened : k.table.opened with
  | true =>
    rw [startsWith, keyword_of_edge bare named rfl]
    rfl
  | false =>
    rw [tickMark_false, List.nil_append]
    apply startsWith_append bare named
    cases k.table.closed <;> rfl

theorem startsLogical_key (t : Text) : startsLogical (k.text ++ t) = k.opensLink := by
  rw [startsLogical, startsWith_key k (by decide) (by decide), startsWith_key k (by decide) (by decide), KeyText.opensLink]

/-- After a keyword at the start of a key comes a stray character, and no name. -/
theorem exists_of_opensWith {kw : String} (bare : isBare kw.toList = true) (opens : k.table.opensWith kw = true) :
    ∃ slice c more, k.text = slice ++ c :: more ∧ Text.lower slice = kw.toList ∧ isStray c = true ∧
      ∀ t, identifier? (c :: more ++ t) = none := by
  rw [NameText.opensWith, Bool.and_eq_true, Bool.not_eq_true', startsWith_iff bare] at opens
  obtain ⟨opened, slice, after, split, spelled⟩ := opens
  have whole : k.text = slice ++ (after ++ (tickMark k.table.closed ++ '.' :: k.column.text)) := by
    simp [KeyText.text, NameText.text, opened, tickMark_false, split]
  rw [whole]
  cases after with
  | cons c more =>
    have word : isWord c = true := k.table.word c (by rw [split]; simp)
    have other : isNameChar c = false := spelled.ends
    refine ⟨slice, c, _, rfl, spelled.letters, by simp [isStray, word, other], fun t => ?_⟩
    have first : c ≠ '\x60' := by
      rintro rfl
      exact absurd word (by decide)
    have start : ¬ Text.isNameStart c = true := by
      intro start
      rw [isNameChar_of_isNameStart start] at other
      cases other
    rw [List.cons_append, identifier?.eq_2 c _ first, if_neg start]
  | nil =>
    cases k.table.closed with
    | false => exact ⟨slice, '.', k.column.text, rfl, spelled.letters, rfl, fun t => rfl⟩
    | true => exact ⟨slice, '\x60', '.' :: k.column.text, rfl, spelled.letters, rfl, fun t => rfl⟩

end Keys

/-! ## Text from a stray character on -/

section Stray

variable {c : Char} (stray : isStray c = true)
include stray

theorem gaps_of_isStray (t : Text) : gaps (c :: t) = .ok (some ((), c :: t)) := by
  have edge : Text.isGap c = false := not_isGap_of_isBlank (not_isBlank_of_isStray stray)
  rw [gaps, List.dropWhile_cons_of_neg (by simp [edge])]

/-- A field before a stray character is not tested. -/
theorem predicate_of_isStray {t field more : Text} (found : fieldRef? t = some (field, c :: more)) :
    predicate t = .ok none :=
  predicate_of_head found (gaps_of_isStray stray more) (not_isNameChar_of_isStray stray)
    (not_isGap_of_isBlank (not_isBlank_of_isStray stray)) (not_operator (p := isStray) (by decide) stray)

/-- Where no name follows, a stray character starts raw text. -/
theorem unary_of_isStray {t found rest : Text} (unnamed : identifier? (c :: t) = none)
    (taken : operand? (c :: t) = some (found, rest)) (depth : Nat) :
    unary (depth + 1) (c :: t) = .ok (some (raw found, rest)) := by
  have word : keyword "not" (c :: t) = .ok none :=
    keyword_of_edge (by decide) (by decide) (not_isNameChar_of_isStray stray)
  have paren : (c :: t).head? ≠ some '(' := by
    rintro ⟨⟩
    exact absurd stray (by decide)
  have leaf : predicate (c :: t) = .ok none := by
    have field : fieldRef? (c :: t) = none := by rw [fieldRef?, unnamed]
    exact bind_of_none (congrArg Except.ok field)
  exact unary_raw word paren leaf taken depth

end Stray

/-! ## Equations in conditions -/

namespace EquationText

variable (e : EquationText)

/-- What follows the first key. -/
def tail : Text := e.before ++ '=' :: (e.after ++ e.right.text)

/-- White space stands before what is read as a connective. -/
def isCut : Bool := e.right.opensLink && !e.after.isEmpty

/-- What raw text takes of the tail. -/
def front : Text := e.before ++ '=' :: (if e.isCut then [] else e.after ++ e.right.text)

/-- What raw text leaves of the tail. -/
def spill : Text := if e.isCut then e.after ++ e.right.text else []

/-- The equation is read as a comparison. -/
def isTest : Bool := e.left.isReadable && e.before.all Text.isGap && (e.after.all Text.isGap || !e.isCut)

/-- The equation is not read as one: its first key is taken for a negation, or its second for a condition of its own. -/
def isMisread : Bool := e.left.table.opensWith "not" || (e.isCut && !e.isTest)

theorem tail_eq : e.tail = e.front ++ e.spill := by
  cases cut : e.isCut <;> simp [tail, front, spill, cut]

theorem tail_edge : e.tail.head?.any isNameChar = false ∧ e.tail.head? ≠ some '\x60' := by
  cases gap : e.before with
  | nil =>
    rw [tail, gap]
    exact ⟨rfl, by simp⟩
  | cons c more =>
    have first : isBlank c = true := e.blank c (by rw [gap]; exact List.mem_cons_self)
    refine ⟨by simpa [tail, gap] using not_isNameChar_of_isBlank first, ?_⟩
    rw [tail, gap]
    rintro ⟨⟩
    exact absurd first (by decide)

theorem walkSpan_right :
    walkSpan {} (e.after ++ e.right.text) = if e.isCut then [] else e.after ++ e.right.text := by
  have right : walkSpan {} e.right.text = e.right.text :=
    walkSpan_eq_self e.right.plain_text fun _ => KeyText.not_isBlank
  have link : startsLogical e.right.text = e.right.opensLink := by
    rw [← startsLogical_key e.right [], List.append_nil]
  have solid := e.right.isSolid_text.first
  cases gap : e.after with
  | nil => simpa [isCut, gap] using right
  | cons c more =>
    have blank : Blank (c :: more) := gap ▸ e.blank'
    cases opens : e.right.opensLink with
    | false =>
      rw [isCut, opens, Bool.false_and, if_neg Bool.false_ne_true, walkSpan_blank blank solid (link.trans opens), right]
    | true =>
      have first : isBlank c = true := blank c List.mem_cons_self
      have start : Text.trimStart (c :: more ++ e.right.text) = e.right.text := by
        have trimmed := Text.trimStart_trim e.right.text
        rwa [e.right.isSolid_text.trim, ← Text.trimStart_append blank] at trimmed
      have ends : endsOperand (c :: (more ++ e.right.text)) = true := by
        rw [endsOperand, first, ← List.cons_append, start, link, opens, Bool.true_and, Bool.or_true]
      have cut : e.isCut = true := by simp [isCut, opens, gap]
      rw [cut, if_pos rfl, List.cons_append, walkSpan, ends]
      rfl

theorem last_front : e.front ≠ [] ∧ e.front.getLast?.any isBlank = false := by
  have whole : e.front = e.before ++ ['='] ++ (if e.isCut then [] else e.after ++ e.right.text) := by simp [front]
  refine ⟨by simp [front], ?_⟩
  rw [whole]
  cases e.isCut with
  | true =>
    rw [if_pos rfl, List.append_nil, List.getLast?_concat]
    rfl
  | false =>
    rw [if_neg Bool.false_ne_true, ← List.append_assoc, List.getLast?_append_of_ne_nil _ e.right.text_ne_nil]
    exact e.right.isSolid_text.last

/-- White space or not before it, the sign and the second key are an operand up to where raw text ends. -/
theorem operand_tail {x : Text} (plain : Text.Plain x) (solid : ∀ c ∈ x, isBlank c = false) :
    operand? (x ++ e.tail) = some (x ++ e.front, e.spill) := by
  have sign : walkSpan {} ('=' :: (e.after ++ e.right.text)) = '=' :: walkSpan {} (e.after ++ e.right.text) :=
    walkSpan_solid (x := ['=']) (List.forall_mem_singleton.2 rfl) (List.forall_mem_singleton.2 rfl) _
  have free : startsLogical ('=' :: (e.after ++ e.right.text)) = false := by
    rw [startsLogical, startsWith, startsWith, keyword_of_edge (by decide) (by decide) rfl,
      keyword_of_edge (by decide) (by decide) rfl]
    rfl
  have span : walkSpan {} (x ++ e.tail) = x ++ e.front := by
    rw [walkSpan_solid plain solid, tail, walkSpan_blank e.blank rfl free, sign, walkSpan_right]
    rfl
  have filled : x ++ e.front ≠ [] := by simp [front]
  have last : (x ++ e.front).getLast?.any isBlank = false := by
    rw [List.getLast?_append_of_ne_nil _ e.last_front.1]
    exact e.last_front.2
  exact operand_of_span (by rw [tail_eq, List.append_assoc]) span filled last

/-- What follows the sign and white space that separates is an operand unless raw text ends there. -/
theorem operand_right :
    operand? (e.after.dropWhile Text.isGap ++ e.right.text) =
      if e.after.all Text.isGap || !e.isCut then some (e.after.dropWhile Text.isGap ++ e.right.text, []) else none := by
  have blank : Blank (e.after.dropWhile Text.isGap) := fun c mem => e.blank' c ((List.dropWhile_sublist _).subset mem)
  -- the same equation without that white space
  let rest : EquationText := { e with after := e.after.dropWhile Text.isGap, blank' := blank }
  have cut : rest.isCut = !(e.after.all Text.isGap || !e.isCut) := by
    have empty : (e.after.dropWhile Text.isGap).isEmpty = e.after.all Text.isGap := by
      rw [Bool.eq_iff_iff, List.isEmpty_iff, List.dropWhile_eq_nil_iff, List.all_eq_true]
    have cut : rest.isCut = (e.right.opensLink && !e.after.all Text.isGap) := by rw [← empty]; rfl
    rw [cut, isCut]
    cases e.after <;> simp [Bool.and_comm]
  have span := rest.walkSpan_right
  rw [cut] at span
  cases read : (e.after.all Text.isGap || !e.isCut) with
  | true =>
    rw [read] at span
    refine operand_of_span (List.append_nil _).symm span (by simp [e.right.text_ne_nil]) ?_
    rw [List.getLast?_append_of_ne_nil _ e.right.text_ne_nil]
    exact e.right.isSolid_text.last
  | false =>
    rw [read] at span
    have empty : walkSpan {} (e.after.dropWhile Text.isGap ++ e.right.text) = [] := span
    simp [operand_eq, empty, Text.trimEnd]

/-! ## One key equation -/

/-- What the first key is compared with. -/
def value : Text := e.after.dropWhile Text.isGap ++ e.right.text

theorem value_eq : (e.after ++ e.right.text).dropWhile Text.isGap = e.value := by
  have kept : e.right.text.dropWhile Text.isGap = e.right.text :=
    Text.dropWhile_run (u := []) (by simp) e.right.head_not_isGap
  rw [List.dropWhile_append, kept, value]
  split
  · rename_i empty
    rw [List.isEmpty_iff.1 empty, List.nil_append]
  · rfl

/-- The equation as a test of its first key. -/
def test : Predicate := .comparison e.left.bare.text .eq e.value

/-- The equation is read as a test, or no predicate is read. -/
theorem predicate_text : predicate e.text = .ok (if e.isTest then some (e.test, []) else none) := by
  obtain ⟨edge, tick⟩ := e.tail_edge
  cases readable : e.left.isReadable with
  | false =>
    rw [isTest, readable, Bool.false_and, Bool.false_and, if_neg Bool.false_ne_true]
    rcases fieldRef_of_not_isReadable e.left edge tick readable with missed | ⟨field, c, more, found, stray⟩
    · exact bind_of_none (congrArg Except.ok missed)
    · exact predicate_of_isStray stray found
  | true =>
    have field : fieldRef? e.text = some (e.left.bare.text, e.tail) := fieldRef_of_isReadable e.left edge readable
    by_cases gap : Gap e.before
    · have lead : gaps e.tail = .ok (some ((), '=' :: (e.after ++ e.right.text))) := gaps_append gap rfl
      have sign : comparator ('=' :: (e.after ++ e.right.text)) = .ok (some (.eq, e.after ++ e.right.text)) := rfl
      have gap' : gaps (e.after ++ e.right.text) = .ok (some ((), e.value)) := by rw [gaps, value_eq]
      have test : e.isTest = (e.after.all Text.isGap || !e.isCut) := by
        rw [isTest, readable, List.all_eq_true.2 gap, Bool.true_and, Bool.true_and]
      have operand : ofOption operand? e.value = .ok (if e.isTest then some (e.value, []) else none) := by
        rw [ofOption, value, operand_right, test]
      refine (bind_of_ok (ofOption_ok.2 field)).trans ((bind_of_ok lead).trans ((tests_of_edge (by decide) (by decide)).trans ?_))
      refine (bind_of_ok sign).trans ((bind_of_ok gap').trans ?_)
      cases isTest : e.isTest with
      | true => exact bind_of_ok (operand.trans (by rw [isTest]; rfl))
      | false => exact bind_of_none (operand.trans (by rw [isTest]; rfl))
    · obtain ⟨c, more, stuck, blank⟩ := exists_stuck e.blank gap
      have first : isBlank c = true := blank c List.mem_cons_self
      have solid : Text.isGap c = false := by
        simpa [stuck] using List.head?_dropWhile_not Text.isGap e.before
      have test : e.isTest = false := by
        rw [isTest, List.all_eq_false.2 (by simpa [Gap] using gap), Bool.and_false, Bool.false_and]
      rw [test]
      exact predicate_of_head field (gaps_stuck stuck _) (not_isNameChar_of_isBlank first) solid
        (not_operator (p := isBlank) (by decide) first)

theorem head_text : e.text.head? ≠ some '(' := by
  obtain ⟨c, more, eq⟩ := List.exists_cons_of_ne_nil e.left.text_ne_nil
  have other : c ≠ '(' :=
    KeyText.ne_of_mem_text (k := e.left) (by rw [eq]; exact List.mem_cons_self) (by decide) (by decide) (by decide)
  rw [text, eq]
  simpa using other

/-- Unless it starts with a `NOT`, the equation is read as a test, or as raw text up to where raw text ends. -/
theorem unary_text (positive : e.left.table.opensWith "not" = false) (depth : Nat) :
    unary (depth + 1) e.text =
      .ok (some (if e.isTest then (.leaf e.test, []) else (raw (e.left.text ++ e.front), e.spill))) := by
  have word : keyword "not" e.text = .ok none :=
    keyword_of_startsWith (by decide) ((startsWith_key e.left (by decide) (by decide) e.tail).trans positive)
  have leaf := e.predicate_text
  cases test : e.isTest with
  | true =>
    rw [test, if_pos rfl] at leaf
    have group := group_of_head e.head_text (unary depth)
    refine (orElse_of_none (bind_of_none word)).trans ((orElse_of_none (bind_of_none group)).trans ?_)
    exact orElse_of_ok (bind_of_ok (before_ok.2 ⟨leaf, rfl⟩))
  | false =>
    rw [test, if_neg Bool.false_ne_true] at leaf
    exact unary_raw word e.head_text leaf (e.operand_tail e.left.plain_text fun _ => KeyText.not_isBlank) depth

/-- Where the first key starts with a `NOT`, the rest of it starts raw text under the negation. -/
theorem unary_negated (negated : e.left.table.opensWith "not" = true) :
    ∃ found, Text.IsSolid found ∧ ∀ depth, unary (depth + 2) e.text = .ok (some (.not (raw found), e.spill)) := by
  obtain ⟨slice, c, more, split, letters, stray, unnamed⟩ := exists_of_opensWith e.left (by decide) negated
  have inside : c :: more ⊆ e.left.text := by
    rw [split]
    exact List.subset_append_right _ _
  have taken := e.operand_tail (x := c :: more) (fun d mem => e.left.plain_text d (inside mem))
    (fun d mem => KeyText.not_isBlank (inside mem))
  have word : keyword "not" e.text = .ok (some ((), c :: more ++ e.tail)) := by
    have whole : e.text = slice ++ (c :: more ++ e.tail) := by
      rw [text, split]
      simp [tail]
    rw [whole]
    exact keyword_of_isKeyword ⟨letters, not_isNameChar_of_isStray stray⟩
  refine ⟨c :: more ++ e.front, ⟨by simp, not_isBlank_of_isStray stray, ?_⟩, fun depth => ?_⟩
  · rw [List.getLast?_append_of_ne_nil _ e.last_front.1]
    exact e.last_front.2
  · have inner := unary_of_isStray stray (unnamed e.tail) taken depth
    have outer : (do keyword "not"; gaps; return .not (← unary (depth + 1)) : Reader Condition) e.text =
        .ok (some (.not (raw (c :: more ++ e.front)), e.spill)) :=
      (bind_of_ok word).trans ((bind_of_ok (gaps_of_isStray stray _)).trans (bind_of_ok inner))
    exact orElse_of_ok outer

/-! ## What is left after raw text -/

/-- Where the second key starts with a keyword, the rest of it is raw text after the keyword. -/
theorem connective_right {kw : String} (bare : isBare kw.toList = true) (named : Text.isLowerWord kw.toList = true)
    (opens : e.right.table.opensWith kw = true) (gap : Gap e.after) :
    ∃ found, found ⊆ e.right.text ∧ connective kw (e.after ++ e.right.text) = .ok (some ((), found)) ∧
      ∀ depth, unary (depth + 1) found = .ok (some (raw found, [])) := by
  obtain ⟨slice, c, more, split, letters, stray, unnamed⟩ := exists_of_opensWith e.right bare opens
  have inside : c :: more ⊆ e.right.text := by
    rw [split]
    exact List.subset_append_right _ _
  refine ⟨c :: more, inside, ?_, fun depth => ?_⟩
  · have filled := ne_nil_of_lower named letters
    have first : slice.head?.any Text.isGap = false := by
      have edge := e.right.head_not_isGap
      obtain ⟨d, rest, rfl⟩ := List.exists_cons_of_ne_nil filled
      rwa [split] at edge
    have ends : (c :: more).head?.any isNameChar = false := not_isNameChar_of_isStray stray
    rw [split, connective_word gap slice letters first filled ends]
    exact gaps_of_isStray stray more
  · have missing := unnamed []
    rw [List.append_nil] at missing
    have solid : ∀ d ∈ c :: more, isBlank d = false := fun d mem => KeyText.not_isBlank (inside mem)
    have span := walkSpan_eq_self (fun d mem => e.right.plain_text d (inside mem)) solid
    have filled : c :: more ≠ [] := List.cons_ne_nil c more
    have taken := operand_of_span (List.append_nil _).symm span filled (Text.isSolid_of_class filled solid).last
    exact unary_of_isStray stray missing taken depth

section Parse

variable {first : Condition}

theorem parse_of_disjunction {c : Condition} {rest : Text}
    (read : ∀ depth, disjunction (unary (depth + 2)) e.text = .ok (some (c, rest))) :
    parse e.text = .ok (some (if (Text.trim rest).isEmpty then c else addConjunct c (raw (Text.trim rest)))) := by
  obtain ⟨depth, length⟩ : ∃ depth, e.text.length = depth + 2 := by
    have left := List.length_pos_of_ne_nil e.left.text_ne_nil
    refine ⟨e.text.length - 2, ?_⟩
    simp only [text, List.length_append, List.length_cons]
    omega
  simp only [parse]
  rw [e.isSolid_text.trim, if_neg (by simpa using e.isSolid_text.filled), length, read]

/-- Where nothing is left, the first condition is all. -/
theorem parse_of_unary (read : ∀ depth, unary (depth + 2) e.text = .ok (some (first, []))) :
    parse e.text = .ok (some first) := by
  have alone (depth : Nat) : disjunction (unary (depth + 2)) e.text = .ok (some (first, [])) :=
    junction_alone (bind_of_none rfl) (junction_alone (bind_of_none rfl) (read depth))
  exact e.parse_of_disjunction alone

/-- Where raw text ends at what is read as a connective, one more condition follows. It is raw text of the second key. -/
theorem parse_of_cut (cut : e.isCut = true) (flat : first.isAnd = false)
    (read : ∀ depth, unary (depth + 2) e.text = .ok (some (first, e.after ++ e.right.text))) :
    ∃ (k : Connective) (found : Text), found ⊆ e.right.text ∧ parse e.text = .ok (some (k.wrap [first, raw found])) := by
  have solid : e.after ++ e.right.text ≠ [] := by simp [e.right.text_ne_nil]
  rw [isCut, KeyText.opensLink, Bool.and_eq_true] at cut
  by_cases gap : Gap e.after
  · cases and' : e.right.table.opensWith "and" with
    | true =>
      obtain ⟨found, inside, link, next⟩ := e.connective_right (by decide) (by decide) and' gap
      have both (depth : Nat) : disjunction (unary (depth + 2)) e.text = .ok (some (.and [first, raw found], [])) :=
        junction_alone (bind_of_none rfl)
          (junction_pair (k := .and) (read depth) solid ((bind_of_ok link).trans (next (depth + 1))))
      exact ⟨.and, found, inside, e.parse_of_disjunction both⟩
    | false =>
      have or' : e.right.table.opensWith "or" = true := by simpa [and'] using cut.1
      obtain ⟨found, inside, link, next⟩ := e.connective_right (by decide) (by decide) or' gap
      have missed : connective "and" (e.after ++ e.right.text) = .ok none := by
        have other : startsWith "and" (e.right.text ++ []) = e.right.table.opensWith "and" :=
          startsWith_key e.right (by decide) (by decide) []
        rw [List.append_nil, and'] at other
        exact (bind_of_ok (gaps_append gap e.right.head_not_isGap)).trans (bind_of_none (keyword_of_startsWith (by decide) other))
      have both (depth : Nat) : disjunction (unary (depth + 2)) e.text = .ok (some (.or [first, raw found], [])) :=
        junction_pair (k := .or) (junction_alone (bind_of_none missed) (read depth)) solid
          ((bind_of_ok link).trans (junction_alone (bind_of_none rfl) (next (depth + 1))))
      exact ⟨.or, found, inside, e.parse_of_disjunction both⟩
  · refine ⟨.and, e.right.text, fun _ mem => mem, ?_⟩
    have missed (k : Connective) := connective_stuck k e.blank' gap e.right.text
    have alone (depth : Nat) : disjunction (unary (depth + 2)) e.text = .ok (some (first, e.after ++ e.right.text)) :=
      junction_alone (bind_of_none (missed .or)) (junction_alone (bind_of_none (missed .and)) (read depth))
    have trimmed : Text.trim (e.after ++ e.right.text) = e.right.text := by
      have start : Text.trim (e.after ++ e.right.text ++ []) = _ := Text.trim_append e.blank' Text.blank_nil
      rwa [List.append_nil, e.right.isSolid_text.trim] at start
    rw [e.parse_of_disjunction alone, trimmed, if_neg (by simpa using e.right.text_ne_nil)]
    cases first with
    | and parts => cases flat
    | or parts => rfl
    | not part => rfl
    | leaf predicate => rfl

end Parse

end EquationText

/-! ## Texts that are no key equations -/

/-- The text is no key equation. -/
def Keyless (t : Text) : Prop := ∀ e : EquationText, e.text ≠ Text.trim t

theorem keyless_of_not_mem {t : Text} (absent : '=' ∉ t) : Keyless t := by
  intro e same
  have mem : '=' ∈ Text.trim t := by
    rw [← same]
    simp [EquationText.text]
  obtain ⟨lead, trail, _, _, split⟩ := Text.exists_trim t
  rw [split] at absent
  exact absent (by simp [mem])

/-- A key stands after the sign. -/
theorem keyless_of_last {t : Text} (solid : Text.IsSolid t) (last : t.getLast? = some '=') : Keyless t := by
  intro e same
  have ends : e.text.getLast? = e.right.text.getLast? := by
    have whole : e.text = e.left.text ++ e.before ++ '=' :: e.after ++ e.right.text := by simp [EquationText.text]
    rw [whole, List.getLast?_append_of_ne_nil _ e.right.text_ne_nil]
  rw [same, solid.trim, last] at ends
  have mem : '=' ∈ e.right.text := List.mem_of_getLast? ends.symm
  exact KeyText.ne_of_mem_text mem (by decide) (by decide) (by decide) rfl

/-- The word `NOT` is no key. -/
theorem keyless_negated {t : Text} (solid : Text.IsSolid t) : Keyless ("NOT ".toList ++ t) := by
  intro e same
  have word : Text.IsSolid "NOT".toList := ⟨by decide, by decide, by decide⟩
  have trimmed : Text.trim ("NOT ".toList ++ t) = "NOT".toList ++ (' ' :: t) := (word.append solid [' ']).trim
  rw [trimmed, EquationText.text] at same
  -- a key goes up to the first character that is white space or the sign
  have chars : ∀ c ∈ e.left.text, (!isBlank c && c != '=') = true := by
    intro c mem
    have other : c ≠ '=' := KeyText.ne_of_mem_text mem (by decide) (by decide) (by decide)
    simp [KeyText.not_isBlank mem, other]
  have ends : (e.before ++ '=' :: (e.after ++ e.right.text)).head?.any (fun c => !isBlank c && c != '=') = false := by
    cases gap : e.before with
    | nil => rfl
    | cons c more =>
      have first : isBlank c = true := e.blank c (by rw [gap]; exact List.mem_cons_self)
      simp [first]
  have key := (Text.eq_of_runs same chars ends (List.all_eq_true.1 (by decide)) rfl).1
  have point : '.' ∈ e.left.text := by simp [KeyText.text]
  rw [key] at point
  exact absurd point (by decide)

namespace EquationText

variable (e : EquationText)

/-- The test of the first key has the text of a key equation with the same keys. -/
theorem exists_text_test :
    ∃ e' : EquationText, e'.text = e.test.text ∧ e'.left.key = e.left.key ∧ e'.right.key = e.right.key := by
  have blank : Blank (' ' :: e.after.dropWhile Text.isGap) :=
    List.forall_mem_cons.2 ⟨rfl, fun c mem => e.blank' c ((List.dropWhile_sublist _).subset mem)⟩
  refine ⟨⟨e.left.bare, [' '], ' ' :: e.after.dropWhile Text.isGap, e.right, by decide, blank⟩, ?_, rfl, rfl⟩
  simp [text, test, Predicate.text, Comparator.text, value]

/-- **An equation that is not misread is one leaf**, whose text is a key equation with the same keys. -/
theorem parse_of_not_isMisread (read : e.isMisread = false) :
    ∃ (p : Predicate) (e' : EquationText), parse e.text = .ok (some (.leaf p)) ∧ e'.text = p.text ∧
      e'.left.key = e.left.key ∧ e'.right.key = e.right.key := by
  rw [isMisread, Bool.or_eq_false_iff] at read
  have first := e.unary_text read.1
  cases test : e.isTest with
  | true =>
    obtain ⟨e', same⟩ := e.exists_text_test
    rw [test] at first
    exact ⟨e.test, e', e.parse_of_unary fun depth => first (depth + 1), same⟩
  | false =>
    have cut : e.isCut = false := by simpa [test] using read.2
    have whole : e.left.text ++ e.front = e.text := by simp [front, cut, text]
    have empty : e.spill = [] := by simp [spill, cut]
    rw [test, whole, empty] at first
    exact ⟨.raw e.text, e, e.parse_of_unary fun depth => first (depth + 1), rfl, rfl, rfl⟩

/-- Raw text of the second key is no key equation. -/
theorem keyless_of_cut {first : Condition} (cut : e.isCut = true) (flat : first.isAnd = false) (keyless : Keyless first.text)
    (read : ∀ depth, unary (depth + 2) e.text = .ok (some (first, e.after ++ e.right.text))) :
    ∃ c, parse e.text = .ok (some c) ∧ (c.hasOr = true ∨ ∀ part ∈ c.conjuncts, Keyless part.text) := by
  obtain ⟨k, found, inside, parsed⟩ := e.parse_of_cut cut flat read
  refine ⟨_, parsed, ?_⟩
  cases k with
  | or => exact .inl rfl
  | and =>
    right
    have sign : '=' ∉ found := fun mem => KeyText.ne_of_mem_text (inside mem) (by decide) (by decide) (by decide) rfl
    have parts : (Connective.and.wrap [first, raw found]).conjuncts = [first, raw found] := by
      cases first with
      | and parts => cases flat
      | or parts => rfl
      | not part => rfl
      | leaf predicate => rfl
    rw [parts, List.forall_mem_cons, List.forall_mem_singleton]
    exact ⟨keyless, keyless_of_not_mem sign⟩

/-- **An equation that is misread is no conjunct of the condition**, if the condition has no `OR`. -/
theorem parse_of_isMisread (misread : e.isMisread = true) :
    ∃ c, parse e.text = .ok (some c) ∧ (c.hasOr = true ∨ ∀ part ∈ c.conjuncts, Keyless part.text) := by
  cases negated : e.left.table.opensWith "not" with
  | true =>
    obtain ⟨found, solid, read⟩ := e.unary_negated negated
    have keyless : Keyless (Condition.not (raw found)).text := keyless_negated solid
    cases cut : e.isCut with
    | true =>
      rw [spill, cut, if_pos rfl] at read
      exact e.keyless_of_cut cut rfl keyless read
    | false =>
      rw [spill, cut, if_neg Bool.false_ne_true] at read
      refine ⟨_, e.parse_of_unary read, .inr ?_⟩
      rw [conjuncts, List.forall_mem_singleton]
      exact keyless
  | false =>
    have both : e.isCut = true ∧ e.isTest = false := by simpa [isMisread, negated] using misread
    have front : e.left.text ++ e.front = e.left.text ++ (e.before ++ ['=']) := by simp [front, both.1]
    have read (depth : Nat) : unary (depth + 2) e.text = _ := e.unary_text negated (depth + 1)
    simp only [both.2, spill, both.1, if_pos, front] at read
    have solid : Text.IsSolid (e.left.text ++ (e.before ++ ['='])) :=
      e.left.isSolid_text.append ⟨by decide, by decide, by decide⟩ e.before
    have last : (e.left.text ++ (e.before ++ ['='])).getLast? = some '=' := by simp
    have keyless : Keyless (raw (e.left.text ++ (e.before ++ ['=']))).text := keyless_of_last solid last
    exact e.keyless_of_cut both.1 rfl keyless read

end EquationText

/-! ## Plain names -/

/-- The words for which a table name can be taken. -/
def reservedWords : List String := ["not", "and", "or"]

/-- The name is made of name characters and is no reserved word. -/
def NameText.isPlain (n : NameText) : Bool :=
  n.name.all isNameChar && reservedWords.all fun kw => Text.lower n.name != kw.toList

theorem NameText.not_opensWith {n : NameText} (plain : n.isPlain = true) {kw : String} (listed : kw ∈ reservedWords) :
    n.opensWith kw = false := by
  rw [isPlain, Bool.and_eq_true, List.all_eq_true, List.all_eq_true] at plain
  have words : reservedWords.all (fun kw => isBare kw.toList && Text.isLowerWord kw.toList) = true := by decide
  obtain ⟨bare, lower⟩ := Bool.and_eq_true_iff.1 (List.all_eq_true.1 words kw listed)
  rw [opensWith, Bool.and_eq_false_iff, ← Bool.not_eq_true (startsWith kw n.name), startsWith_iff bare]
  right
  rintro ⟨slice, after, split, spelled⟩
  have same := eq_of_isKeyword lower plain.1 rfl ((List.append_nil _).trans split) spelled
  exact bne_iff_ne.1 (plain.2 kw listed) same

/-- A key equation of tables with plain names is not misread. -/
theorem EquationText.not_isMisread {e : EquationText} (first : e.left.table.isPlain = true)
    (second : e.right.table.isPlain = true) : e.isMisread = false := by
  rw [isMisread, isCut, KeyText.opensLink, NameText.not_opensWith first (by decide), NameText.not_opensWith second (by decide),
    NameText.not_opensWith second (by decide)]
  rfl

end Association
end QueryCode
