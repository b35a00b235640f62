import QueryCode.Proofs.Condition.Token
import QueryCode.Proofs.Literal.Quotes
import QueryCode.Proofs.Text.Scan

/-!
# Tokens that were written are read

The other direction of the token lemmas: a token with a text after it that cannot be taken for a part of it is read
back, and nothing more. For a keyword, a name or an operand the text after it decides where it ends.
-/

namespace QueryCode
set_option autoImplicit false

namespace Condition

open Reader

/-! ## Keywords -/

theorem size_of_lower {s t : Text} (same : Text.lower s = t) : Text.size s = Text.size t := by
  subst same
  induction s with
  | nil => rfl
  | cons c s ih => rw [Text.lower, List.map_cons, Text.size, Text.size, utf8Size_toLower, ← Text.lower, ih]

theorem agrees_append {kw slice : Text} (letters : Text.lower slice = kw) (after : Text) :
    agrees kw (slice ++ after) = true := by
  subst letters
  induction slice with
  | nil => rfl
  | cons c slice ih =>
    rw [Text.lower, List.map_cons, List.cons_append, agrees, List.zip_cons_cons, List.all_cons]
    simp only [isLetterOf, beq_self_eq_true, Bool.true_or, Bool.true_and]
    exact ih

theorem keyword_of_isKeyword {kw : String} {slice after : Text} (spelled : IsKeyword kw slice after) :
    keyword kw (slice ++ after) = .ok (some ((), after)) := by
  have same : Text.size kw.toList = Text.size slice := (size_of_lower spelled.letters).symm
  have fits : (agrees kw.toList (slice ++ after) && Text.size kw.toList ≤ Text.size (slice ++ after)) = true := by
    rw [agrees_append spelled.letters, Bool.true_and, decide_eq_true_eq, same, Text.size_append]
    exact Nat.le_add_right _ _
  rw [keyword, if_pos fits, same, Text.cut_size]
  dsimp only
  rw [spelled.ends]
  rfl

theorem keyword_of_differs {kw : String} {t : Text} (differs : agrees kw.toList t = false) :
    keyword kw t = .ok none := by
  rw [keyword, differs]
  rfl

/-- Every letter has one byte, and none is a `k`. -/
def isBare (kw : Text) : Bool := kw.all fun k => k.utf8Size == 1 && k != 'k'

/-- Without a `k` in it a keyword is compared byte by byte. -/
theorem exists_of_agrees {kw t : Text} (bare : isBare kw = true) (same : agrees kw t = true)
    (long : Text.size kw ≤ Text.size t) : ∃ slice after, t = slice ++ after ∧ Text.lower slice = kw := by
  induction kw generalizing t with
  | nil => exact ⟨[], t, rfl, rfl⟩
  | cons k kw ih =>
    simp only [isBare, List.all_cons, Bool.and_eq_true, beq_iff_eq, bne_iff_ne] at bare
    obtain ⟨⟨single, other⟩, bare⟩ := bare
    cases t with
    | nil =>
      rw [Text.size, Text.size, single] at long
      omega
    | cons c t =>
      simp only [agrees, List.zip_cons_cons, List.all_cons, Bool.and_eq_true, isLetterOf, Bool.or_eq_true, beq_iff_eq,
        other, false_and, or_false] at same
      have one : c.utf8Size = 1 := by rw [← utf8Size_toLower, same.1, single]
      rw [Text.size, Text.size, single, one] at long
      obtain ⟨slice, after, rfl, letters⟩ := ih (by simpa [isBare] using bare) same.2 (by omega)
      refine ⟨c :: slice, after, rfl, ?_⟩
      rw [Text.lower] at letters ⊢
      rw [List.map_cons, letters, same.1]

/-- A keyword without a `k` is read where it is spelled, and nowhere else. -/
theorem keyword_of_none {kw : String} {t : Text} (bare : isBare kw.toList = true)
    (absent : ∀ slice after, t = slice ++ after → ¬ IsKeyword kw slice after) : keyword kw t = .ok none := by
  by_cases fits : (agrees kw.toList t && Text.size kw.toList ≤ Text.size t) = true
  · rw [Bool.and_eq_true, decide_eq_true_eq] at fits
    obtain ⟨slice, after, rfl, letters⟩ := exists_of_agrees bare fits.1 fits.2
    have goesOn : after.head?.any Text.isNameChar = true := by
      rw [← Bool.not_eq_false]
      exact fun ends => absent slice after rfl ⟨letters, ends⟩
    rw [keyword, ← size_of_lower letters, Text.cut_size]
    simp [goesOn]
  · rw [keyword, if_neg fits]

theorem startsWith_iff {kw : String} {t : Text} (bare : isBare kw.toList = true) :
    startsWith kw t = true ↔ ∃ slice after, t = slice ++ after ∧ IsKeyword kw slice after := by
  constructor
  · intro starts
    by_contra absent
    push Not at absent
    rw [startsWith, keyword_of_none bare absent] at starts
    cases starts
  · rintro ⟨slice, after, rfl, spelled⟩
    rw [startsWith, keyword_of_isKeyword spelled]

theorem isNameChar_of_isNameStart {c : Char} (start : Text.isNameStart c = true) : Text.isNameChar c = true := by
  simp only [Text.isNameStart, Text.isNameChar, Bool.or_eq_true] at start ⊢
  rcases start with letter | underscore
  · exact .inl (.inl (.inl letter))
  · exact .inr underscore

/-- A word in any letter case is made of letters. -/
theorem isNameStart_of_lower {kw slice : Text} (named : Text.isLowerWord kw = true) (letters : Text.lower slice = kw) :
    ∀ c ∈ slice, Text.isNameStart c = true := by
  intro c mem
  have image : c.toLower ∈ kw := by
    rw [← letters]
    exact List.mem_map_of_mem mem
  rw [Text.isLowerWord, Bool.and_eq_true, List.all_eq_true] at named
  have range := named.2 _ image
  simp only [Bool.and_eq_true, decide_eq_true_eq] at range
  have ascii : c.toNat < 128 := by
    obtain same | ⟨small, _⟩ := Text.toLower_cases c
    · rw [same] at range
      omega
    · have bound : c.toNat ≤ 127 := UInt32.le_iff_toNat_le.1 small
      omega
  have checked : (!(97 ≤ c.toLower.toNat && c.toLower.toNat ≤ 122) || Text.isNameStart c) = true :=
    Text.forall_ascii (p := fun c => !(97 ≤ c.toLower.toNat && c.toLower.toNat ≤ 122) || Text.isNameStart c)
      (by decide) ascii
  simpa [range] using checked

theorem isNameChar_of_lower {kw slice : Text} (named : Text.isLowerWord kw = true) (letters : Text.lower slice = kw) :
    ∀ c ∈ slice, Text.isNameChar c = true := fun c mem => isNameChar_of_isNameStart (isNameStart_of_lower named letters c mem)

theorem ne_nil_of_lower {kw slice : Text} (named : Text.isLowerWord kw = true) (letters : Text.lower slice = kw) :
    slice ≠ [] := by
  rintro rfl
  rw [← letters] at named
  exact absurd named (by decide)

/-- A keyword without a `k` is read where a name starts only. -/
theorem keyword_of_edge {kw : String} {t : Text} (bare : isBare kw.toList = true) (named : Text.isLowerWord kw.toList = true)
    (edge : t.head?.any Text.isNameChar = false) : keyword kw t = .ok none := by
  apply keyword_of_none bare
  rintro slice after rfl spelled
  obtain ⟨c, more, rfl⟩ := List.exists_cons_of_ne_nil (ne_nil_of_lower named spelled.letters)
  rw [List.cons_append, List.head?_cons, Option.any_some,
    isNameChar_of_lower named spelled.letters c List.mem_cons_self] at edge
  cases edge

/-- A keyword without a `k` that is not read does not make the reading fault. -/
theorem keyword_of_startsWith {kw : String} {t : Text} (bare : isBare kw.toList = true) (other : startsWith kw t = false) :
    keyword kw t = .ok none := by
  apply keyword_of_none bare
  rintro slice after rfl spelled
  rw [startsWith, keyword_of_isKeyword spelled] at other
  cases other

/-- A text starts with a keyword whether or not a text follows that is no part of a name. -/
theorem startsWith_append {kw : String} {t rest : Text} (bare : isBare kw.toList = true)
    (named : Text.isLowerWord kw.toList = true) (edge : rest.head?.any Text.isNameChar = false) :
    startsWith kw (t ++ rest) = startsWith kw t := by
  rw [Bool.eq_iff_iff, startsWith_iff bare, startsWith_iff bare]
  constructor
  · rintro ⟨slice, after, split, spelled⟩
    have chars := isNameChar_of_lower named spelled.letters
    rcases List.append_eq_append_iff.1 split with ⟨spill, rfl, rest'⟩ | ⟨tail, rfl, rfl⟩
    · -- the keyword would go on into the text that follows
      cases spill with
      | nil => exact ⟨t, [], by simp, by simpa using spelled.letters, rfl⟩
      | cons c spill =>
        rw [rest', List.cons_append, List.head?_cons, Option.any_some, chars c (by simp)] at edge
        cases edge
    · refine ⟨slice, tail, rfl, spelled.letters, ?_⟩
      cases tail with
      | nil => rfl
      | cons c tail => exact spelled.ends
  · rintro ⟨slice, after, rfl, spelled⟩
    refine ⟨slice, after ++ rest, by simp, spelled.letters, ?_⟩
    cases after with
    | nil => exact edge
    | cons c after => exact spelled.ends

/-- Where no name goes on, not even the first letter of a keyword is read. -/
theorem agrees_of_edge {k c : Char} {kw t : Text} (lower : 97 ≤ k.toNat ∧ k.toNat ≤ 122) (other : k ≠ 'k')
    (edge : Text.isNameChar c = false) : agrees (k :: kw) (c :: t) = false := by
  have differs : isLetterOf k c = false := by
    rw [isLetterOf, Bool.or_eq_false_iff, beq_eq_false_iff_ne, Bool.and_eq_false_iff]
    refine ⟨?_, .inl (beq_eq_false_iff_ne.2 other)⟩
    rintro rfl
    have letter : Text.isLowerWord [c.toLower] = true := by simpa [Text.isLowerWord] using lower
    have named : Text.isNameChar c = true := isNameChar_of_lower letter (show Text.lower [c] = _ from rfl) c List.mem_cons_self
    rw [named] at edge
    cases edge
  rw [agrees, List.zip_cons_cons, List.all_cons]
  dsimp only
  rw [differs, Bool.false_and]

/-- A name is no keyword but the one with its letters. -/
theorem eq_of_isKeyword {kw : String} {name rest slice after : Text} (named : Text.isLowerWord kw.toList = true)
    (chars : ∀ c ∈ name, Text.isNameChar c = true) (ends : rest.head?.any Text.isNameChar = false)
    (split : name ++ rest = slice ++ after) (spelled : IsKeyword kw slice after) : Text.lower name = kw.toList := by
  have same := Text.eq_of_runs split chars ends (isNameChar_of_lower named spelled.letters) spelled.ends
  rw [same.1]
  exact spelled.letters

/-! ## White space -/

theorem gaps_append {gap t : Text} (blank : Gap gap) (ends : t.head?.any Text.isGap = false) :
    gaps (gap ++ t) = .ok (some ((), t)) := by
  rw [gaps, Text.dropWhile_run blank ends]

theorem gaps1_append {gap t : Text} (blank : Gap gap) (apart : gap ≠ []) (ends : t.head?.any Text.isGap = false) :
    gaps1 (gap ++ t) = .ok (some ((), t)) := by
  obtain ⟨c, more, rfl⟩ := List.exists_cons_of_ne_nil apart
  have first : Text.isGap c = true := blank c List.mem_cons_self
  rw [gaps1, if_pos (by simpa using first)]
  exact gaps_append blank ends

theorem gap_space : Gap [' '] := by
  intro c mem
  rw [List.mem_singleton.1 mem]
  rfl

/-- After separating white space the word of a connective is read. -/
theorem connective_word {kw : String} {gap : Text} (blank : Gap gap) (word : Text) {rest : Text}
    (letters : Text.lower word = kw.toList) (first : word.head?.any Text.isGap = false) (solid : word ≠ [])
    (ends : rest.head?.any Text.isNameChar = false) : connective kw (gap ++ (word ++ rest)) = gaps rest := by
  have start : (word ++ rest).head?.any Text.isGap = false := by
    obtain ⟨c, more, rfl⟩ := List.exists_cons_of_ne_nil solid
    exact first
  have middle : keyword kw (word ++ rest) = .ok (some ((), rest)) := keyword_of_isKeyword ⟨letters, ends⟩
  exact (bind_of_ok (gaps_append blank start)).trans (bind_of_ok middle)

theorem connective_append {kw : String} (word : Text) {t : Text} (letters : Text.lower word = kw.toList)
    (first : word.head?.any Text.isGap = false) (solid : word ≠ []) (ends : t.head?.any Text.isGap = false) :
    connective kw (' ' :: word ++ ' ' :: t) = .ok (some ((), t)) :=
  (connective_word gap_space word letters first solid rfl).trans (gaps_append gap_space ends)

/-! ## Names -/

/-- A name as it stands without backticks. -/
def isName : Text → Bool
  | [] => false
  | c :: rest => Text.isNameStart c && rest.all Text.isNameChar

/-- A keyword in any letter case is a name. -/
theorem isName_of_lower {kw slice : Text} (named : Text.isLowerWord kw = true) (letters : Text.lower slice = kw) :
    isName slice = true := by
  obtain ⟨c, more, rfl⟩ := List.exists_cons_of_ne_nil (ne_nil_of_lower named letters)
  have starts := isNameStart_of_lower named letters
  rw [List.forall_mem_cons] at starts
  rw [isName, starts.1, Bool.true_and, List.all_eq_true]
  exact fun d mem => isNameChar_of_isNameStart (starts.2 d mem)

theorem not_isBlank_of_isNameChar {c : Char} (named : Text.isNameChar c = true) : Text.isBlank c = false := by
  by_contra blank
  rw [Bool.not_eq_false] at blank
  have other : (!Text.isNameChar c) = true := Text.forall_isBlank (p := fun c => !Text.isNameChar c) (by decide +kernel) blank
  rw [named] at other
  cases other

theorem not_isNameChar_of_isBlank {c : Char} (blank : Text.isBlank c = true) : Text.isNameChar c = false := by
  rw [← Bool.not_eq_true]
  intro named
  rw [not_isBlank_of_isNameChar named] at blank
  cases blank

theorem chars_of_isName {name : Text} (named : isName name = true) : ∀ c ∈ name, Text.isNameChar c = true := by
  cases name with
  | nil => cases named
  | cons c name =>
    rw [isName, Bool.and_eq_true, List.all_eq_true] at named
    exact List.forall_mem_cons.2 ⟨isNameChar_of_isNameStart named.1, named.2⟩

theorem identifier_append {name rest : Text} (named : isName name = true)
    (ends : rest.head?.any Text.isNameChar = false) : identifier? (name ++ rest) = some (name, rest) := by
  cases name with
  | nil => cases named
  | cons c name =>
    rw [isName, Bool.and_eq_true, List.all_eq_true] at named
    rw [List.cons_append, identifier?.eq_2 c (name ++ rest) (by rintro rfl; exact absurd named.1 (by decide)),
      if_pos named.1, Text.takeWhile_run named.2 ends, Text.dropWhile_run named.2 ends]

/-- A field in names without backticks: one name, or two with a point between them. The first of them is its head. -/
inductive BareField : Text → Text → Prop where
  | plain {name : Text} (named : isName name = true) : BareField name name
  | qualified {table column : Text} (named : isName table = true) (named' : isName column = true) :
      BareField table (table ++ '.' :: column)

/-- A field that is read where it stands bare: its head is no `NOT`. -/
def IsBareField (field : Text) : Prop := ∃ head, BareField head field ∧ Text.lower head ≠ "not".toList

section Fields

variable {head field rest : Text} (bare : BareField head field)
include bare

theorem BareField.head_named : isName head = true := by
  cases bare with
  | plain named => exact named
  | qualified named _ => exact named

/-- The field and the text after it start with its head, which ends there. -/
theorem BareField.split (ends : rest.head?.any Text.isNameChar = false) :
    ∃ more, field ++ rest = head ++ more ∧ more.head?.any Text.isNameChar = false := by
  cases bare with
  | plain => exact ⟨rest, rfl, ends⟩
  | @qualified column => exact ⟨'.' :: column ++ rest, by simp, rfl⟩

theorem fieldRef_append (ends : rest.head?.any Text.isNameChar = false) (point : rest.head? ≠ some '.') :
    fieldRef? (field ++ rest) = some (field, rest) := by
  cases bare with
  | plain named =>
    rw [fieldRef?, identifier_append named ends]
    cases rest with
    | nil => rfl
    | cons c rest =>
      have other : c ≠ '.' := fun same => point (congrArg some same)
      simp [other]
  | @qualified column named named' =>
    have whole : head ++ '.' :: column ++ rest = head ++ '.' :: (column ++ rest) := by simp
    rw [whole, fieldRef?, identifier_append named rfl]
    simp only [identifier_append named' ends]

/-- A field does not start with a keyword that is not its head. -/
theorem keyword_of_field {kw : String} (bare' : isBare kw.toList = true) (lower : Text.isLowerWord kw.toList = true)
    (other : Text.lower head ≠ kw.toList) (ends : rest.head?.any Text.isNameChar = false) :
    keyword kw (field ++ rest) = .ok none := by
  obtain ⟨more, split, ends'⟩ := bare.split ends
  apply keyword_of_none bare'
  intro slice after spelledAt spelled
  rw [split] at spelledAt
  exact other (eq_of_isKeyword lower (chars_of_isName bare.head_named) ends' spelledAt spelled)

end Fields

/-- The words that mean something else at the start of a condition. -/
def headWords : List String := ["not", "and", "or", "select"]

/-- The name is one of those words, in some letter case. -/
def isHeadWord (name : Text) : Bool := headWords.any (Text.lower name == ·.toList)

/-- A field that no connective and no `NOT` or `SELECT` can be taken for: a name, or two with a point between
them, and the first of them none of these words. -/
inductive IsField : Text → Prop where
  | plain {name : Text} (named : isName name = true) (free : isHeadWord name = false) : IsField name
  | qualified {table column : Text} (named : isName table = true) (free : isHeadWord table = false)
      (named' : isName column = true) : IsField (table ++ '.' :: column)

theorem IsField.bare {field : Text} (written : IsField field) :
    ∃ head, BareField head field ∧ ∀ kw ∈ headWords, Text.lower head ≠ kw.toList := by
  have other {name : Text} (free : isHeadWord name = false) : ∀ kw ∈ headWords, Text.lower name ≠ kw.toList := by
    intro kw listed same
    rw [isHeadWord, List.any_eq_false] at free
    exact free kw listed (by rw [same]; exact beq_self_eq_true _)
  cases written with
  | plain named free => exact ⟨field, .plain named, other free⟩
  | qualified named free named' => exact ⟨_, .qualified named named', other free⟩

theorem IsField.isBareField {field : Text} (written : IsField field) : IsBareField field := by
  obtain ⟨head, bare, other⟩ := written.bare
  exact ⟨head, bare, other "not" (by decide)⟩

/-! ## Operands -/

/-- The word of a connective as it is written. -/
def linkText (underAnd : Bool) : Text := if underAnd then "AND" else "OR"

theorem joiner_eq (underAnd : Bool) (more : Text) : joiner underAnd ++ more = [' '] ++ (linkText underAnd ++ ' ' :: more) := by
  cases underAnd <;> rfl

/-- What can follow an operand or a predicate: nothing, or a connective in capital letters with white space of any kind
before it. -/
inductive Stops : Text → Prop where
  | nil : Stops []
  | linked (underAnd : Bool) {gap more : Text} (blank : Text.Blank gap) (apart : gap ≠ [])
      (ends : more.head?.any Text.isNameChar = false) : Stops (gap ++ (linkText underAnd ++ more))

theorem Stops.joined (underAnd : Bool) (more : Text) : Stops (joiner underAnd ++ more) := by
  have space : Text.Blank [' '] := by
    intro c mem
    rw [List.mem_singleton.1 mem]
    rfl
  rw [joiner_eq]
  exact .linked underAnd space (by simp) rfl

theorem Stops.head {rest : Text} (stops : Stops rest) : rest = [] ∨ ∃ c more, Text.isBlank c = true ∧ rest = c :: more := by
  cases stops with
  | nil => exact .inl rfl
  | linked underAnd blank apart ends =>
    obtain ⟨c, gap, rfl⟩ := List.exists_cons_of_ne_nil apart
    exact .inr ⟨c, _, blank c List.mem_cons_self, rfl⟩

theorem Stops.not_isNameChar {rest : Text} (stops : Stops rest) : rest.head?.any Text.isNameChar = false := by
  rcases stops.head with rfl | ⟨c, more, blank, rfl⟩
  · rfl
  · exact not_isNameChar_of_isBlank blank

theorem Stops.startsLogical {rest : Text} (stops : Stops rest) : rest = [] ∨ startsLogical (Text.trimStart rest) = true := by
  cases stops with
  | nil => exact .inl rfl
  | @linked underAnd gap more blank apart ends =>
    right
    rw [Condition.startsLogical, Text.trimStart_append blank, Bool.or_eq_true]
    cases underAnd with
    | true => exact .inl ((startsWith_iff (by decide)).2 ⟨"AND".toList, more, rfl, rfl, ends⟩)
    | false => exact .inr ((startsWith_iff (by decide)).2 ⟨"OR".toList, more, rfl, rfl, ends⟩)

theorem Stops.atBoundary {rest : Text} (stops : Stops rest) : atBoundary rest = true := by
  rcases stops.startsLogical with rfl | logical
  · rfl
  · unfold Condition.atBoundary
    split
    · rfl
    · rename_i c more eq
      rw [← eq, logical, Bool.or_true]

theorem isMark_of_isBlank {c : Char} (blank : Text.isBlank c = true) : Text.isMark c = false :=
  Text.isMark_of_class (p := Text.isBlank) (by decide) blank

theorem Stops.apart {rest : Text} (stops : Stops rest) (u : Text) : Text.Apart u rest := by
  rcases stops.head with rfl | ⟨c, more, blank, rfl⟩
  · exact Text.apart_nil u
  · exact Text.apart_of_head (Text.isQuote_of_isMark (isMark_of_isBlank blank))

/-- A keyword at the start of a text is not completed by a connective after it. -/
theorem startsWith_of_stops {kw : String} {t rest : Text} (bare : isBare kw.toList = true)
    (named : Text.isLowerWord kw.toList = true) (stops : Stops rest) (starts : startsWith kw (t ++ rest) = true) :
    startsWith kw t = true := by
  rwa [startsWith_append bare named stops.not_isNameChar] at starts

/-- An operand that is read whole when it stands alone and starts with no white space. -/
structure IsWhole (x : Text) : Prop where
  whole : operand? x = some (x, [])
  starts : x.head?.any Text.isGap = false

/-- An operand that is read whole when it stands alone, starts with no white space and ends outside its literals
and parentheses. -/
structure IsWritten (x : Text) : Prop where
  whole : operand? x = some (x, [])
  starts : x.head?.any Text.isGap = false
  closed : Text.isClosed x = true

theorem IsWritten.isWhole {x : Text} (written : IsWritten x) : IsWhole x := ⟨written.whole, written.starts⟩

theorem IsWhole.trimmed {x : Text} (written : IsWhole x) : x ≠ [] ∧ walkSpan {} x = x ∧ Text.trimEnd x = x := by
  have whole := written.whole
  simp only [operand_eq] at whole
  split at whole
  · cases whole
  · rename_i solid
    simp only [Option.some.injEq, Prod.mk.injEq] at whole
    have spanned : walkSpan {} x = x := by
      obtain ⟨trail, _, eq⟩ := Text.exists_trimEnd (walkSpan {} x)
      obtain ⟨more, eq'⟩ := walkSpan_isPrefix {} x
      rw [whole.1] at eq
      rw [eq, List.append_assoc] at eq'
      have empty := List.append_right_eq_self.1 eq'
      rw [eq, (List.append_eq_nil_iff.1 empty).1, List.append_nil]
    refine ⟨?_, spanned, by rw [← spanned, whole.1, spanned]⟩
    rintro rfl
    exact solid (by rw [whole.1]; rfl)

theorem IsWhole.append_not_isGap {x : Text} (written : IsWhole x) (rest : Text) :
    (x ++ rest).head?.any Text.isGap = false := by
  obtain ⟨c, more, rfl⟩ := List.exists_cons_of_ne_nil written.trimmed.1
  exact written.starts

theorem IsWhole.last {x : Text} (written : IsWhole x) : x.getLast?.any Text.isBlank = false := by
  obtain ⟨solid, _, trimmed⟩ := written.trimmed
  rw [Text.trimEnd_eq_rdropWhile, List.rdropWhile_eq_self_iff] at trimmed
  rw [List.getLast?_eq_some_getLast solid]
  simpa using trimmed solid

/-- Where an operand does not end before a connective comes, it does not end there with one after it. -/
theorem endsOperand_append {c : Char} {x rest : Text} (stops : Stops rest) (trimmed : Text.trimEnd (c :: x) = c :: x)
    (goesOn : endsOperand (c :: x) = false) : endsOperand (c :: x ++ rest) = false := by
  have solid : ¬ Text.Blank (c :: x) := by
    intro blank
    rw [Text.trimEnd_eq_nil.2 blank] at trimmed
    cases trimmed
  have start : Text.trimStart (c :: x ++ rest) = Text.trimStart (c :: x) ++ rest := by
    have filled : ((c :: x).dropWhile Text.isBlank).isEmpty = false := by
      rw [List.isEmpty_eq_false_iff]
      exact mt Text.trimStart_eq_nil.1 solid
    rw [Text.trimStart, List.dropWhile_append, filled]
    rfl
  simp only [endsOperand, List.cons_append, Bool.or_eq_false_iff, Bool.and_eq_false_iff] at goesOn ⊢
  refine ⟨goesOn.1, ?_⟩
  rcases goesOn.2 with plain | free
  · exact .inl plain
  · right
    rw [startsLogical, Bool.or_eq_false_iff] at free
    have kept (kw : String) (bare : isBare kw.toList = true) (named : Text.isLowerWord kw.toList = true)
        (absent : startsWith kw (Text.trimStart (c :: x)) = false) :
        startsWith kw (Text.trimStart (c :: x ++ rest)) = false := by
      rw [← Bool.not_eq_true] at absent ⊢
      rw [start]
      exact fun starts => absent (startsWith_of_stops bare named stops starts)
    rw [← List.cons_append, startsLogical, kept "and" (by decide) (by decide) free.1,
      kept "or" (by decide) (by decide) free.2]
    rfl

theorem trimEnd_tail {c d : Char} {x : Text} (trimmed : Text.trimEnd (c :: d :: x) = c :: d :: x) :
    Text.trimEnd (d :: x) = d :: x := by
  rw [Text.trimEnd_eq_rdropWhile, List.rdropWhile_eq_self_iff] at trimmed ⊢
  intro filled
  have last := trimmed (by simp)
  rwa [List.getLast_cons (by simp)] at last

/-- The walk over an operand goes through to its end, and on to what follows it. -/
theorem walkSpan_append {w : Text.Walk} {x rest : Text} (sound : w.Sound) (stops : Stops rest)
    (spanned : walkSpan w x = x) (trimmed : Text.trimEnd x = x) (closed : w.run x = {}) :
    walkSpan w (x ++ rest) = x := by
  -- at each character the operand goes on as it does without the text after it
  induction x generalizing w with
  | nil =>
    have start : w = {} := closed
    subst start
    rw [List.nil_append]
    rcases stops.startsLogical with rfl | logical
    · rfl
    · rcases stops.head with rfl | ⟨c, more, blank, rfl⟩
      · rfl
      · have ends : endsOperand (c :: more) = true := by
          rw [endsOperand, logical, blank, Bool.and_true, Bool.or_true]
        rw [walkSpan, ends]
        rfl
  | cons c x ih =>
    rw [walkSpan] at spanned
    split at spanned
    · cases spanned
    · rename_i goesOn
      have step : w.step c (x ++ rest).head? = w.step c x.head? := by
        cases x with
        | cons d x => rfl
        | nil =>
          rw [List.head?_nil, Text.Walk.step_apart sound]
          exact fun next => stops.apart [c] c rfl next
      have goesOn' : ¬ ((w == {} && endsOperand (c :: x ++ rest)) = true) := by
        rw [Bool.and_eq_true]
        rintro ⟨start, ends⟩
        rw [start, Bool.true_and, Bool.not_eq_true] at goesOn
        rw [endsOperand_append stops trimmed goesOn] at ends
        cases ends
      have inner : walkSpan (w.step c x.head?).2 (x ++ rest) = x := by
        refine ih (sound.step c _) (List.cons.inj spanned).2 ?_ closed
        cases x with
        | nil => rfl
        | cons d x => exact trimEnd_tail trimmed
      rw [List.cons_append, walkSpan, ← List.cons_append, if_neg goesOn', step, inner]

/-- **An operand is read up to the connective after it.** One that ends inside a literal or parentheses has none after
it. -/
theorem operand_append {x rest : Text} (written : IsWhole x) (stops : Stops rest)
    (closed : rest = [] ∨ Text.isClosed x = true) : operand? (x ++ rest) = some (x, rest) := by
  rcases closed with rfl | closed
  · rw [List.append_nil]
    exact written.whole
  obtain ⟨solid, spanned, trimmed⟩ := written.trimmed
  have whole := walkSpan_append (Text.Walk.sound_start 0) stops spanned trimmed (Text.isClosed_iff.1 closed)
  have filled : x.isEmpty = false := List.isEmpty_eq_false_iff.2 solid
  simp only [operand_eq]
  rw [whole, trimmed, filled, List.drop_left]
  rfl

/-- No closing parenthesis of an operand lacks its opening one: the operand would end before it. -/
theorem matched_of_walkSpan {w : Text.Walk} {x : Text} (spanned : walkSpan w x = x) : w.matched x = true := by
  induction x generalizing w with
  | nil => rfl
  | cons c x ih =>
    rw [walkSpan] at spanned
    split at spanned
    · cases spanned
    · rename_i goesOn
      rw [Text.Walk.matched, ih (List.cons.inj spanned).2, Bool.and_true, Bool.not_eq_true', ← Bool.not_eq_true]
      simp only [Bool.and_eq_true, endsOperand, Bool.or_eq_true, not_and, not_or] at goesOn ⊢
      exact fun start closing => (goesOn start).1 closing

theorem IsWhole.matched {x : Text} (written : IsWhole x) : Text.Walk.matched {} x = true :=
  matched_of_walkSpan written.trimmed.2.1

/-! ## Literals -/

section Literals

open Predicate (doubleQuotes)

theorem doubleQuotes_quote (t : Text) : doubleQuotes ('\'' :: t) = '\'' :: '\'' :: doubleQuotes t := rfl

theorem doubleQuotes_other {c : Char} (other : c ≠ '\'') (t : Text) : doubleQuotes (c :: t) = c :: doubleQuotes t := by
  simp [doubleQuotes, Text.substitute, other]

/-- Without backslashes doubling the quotes is all that a literal needs. -/
theorem quoted_doubleQuotes {pattern : Text} (plain : '\\' ∉ pattern) : Quoted '\'' (doubleQuotes pattern) := by
  induction pattern with
  | nil => exact .nil
  | cons c pattern ih =>
    rw [List.mem_cons, not_or] at plain
    by_cases quote : c = '\''
    · subst quote
      rw [doubleQuotes_quote]
      exact .doubled (ih plain.2)
    · rw [doubleQuotes_other quote]
      exact .plain (Ne.symm plain.1) quote (ih plain.2)

theorem undouble_doubleQuotes (pattern : Text) : Literal.undouble '\'' (doubleQuotes pattern) = pattern :=
  Literal.undouble_double '\'' pattern

/-- The pattern in quotes, each quote in it doubled. -/
def quoted (pattern : Text) : Text := '\'' :: doubleQuotes pattern ++ ['\'']

theorem stringLiteral_append {pattern rest : Text} (inside : Quoted '\'' (doubleQuotes pattern))
    (ends : rest.head? ≠ some '\'') : stringLiteral? (quoted pattern ++ rest) = some (quoted pattern, rest) := by
  have whole : quoted pattern ++ rest = '\'' :: (doubleQuotes pattern ++ '\'' :: rest) := by simp [quoted]
  rw [whole, stringLiteral?, literalTail_append inside (by decide) ends]
  rfl

theorem unquote_quoted (pattern : Text) : Literal.unquote? (quoted pattern) = some pattern := by
  have last : (doubleQuotes pattern ++ ['\'']).getLast? = some '\'' := List.getLast?_concat
  rw [quoted, List.cons_append, Literal.unquote?, last, List.dropLast_concat, undouble_doubleQuotes]
  rfl

end Literals

end Condition
end QueryCode
