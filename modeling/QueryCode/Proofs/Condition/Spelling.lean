import Mathlib.Data.List.Forall2
import QueryCode.Condition.Grammar
import QueryCode.Proofs.Text.Basic

/-!
# Spellings of conditions

The grammar of conditions as a relation between a text and the tree it stands for, said without the readers
that build the tree. A spelling is a slice of a text together with the text after it: what follows decides
where a word or an operand ends, so the same letters can spell a condition in one place and not in another.

`NOT` covers the shortest condition after it, `AND` joins those, and `OR` joins the results; parentheses hold a
whole condition. A tree is put together from the slices of its parts in order, and between two of them
stands one connective and nothing else.
-/

namespace QueryCode
set_option autoImplicit false

namespace Condition

/-- White space that may separate the words of a condition. -/
def Gap (t : Text) : Prop := ∀ c ∈ t, Text.isGap c = true

/-- The keyword in some letter case, where no name goes on after it. -/
structure IsKeyword (kw : String) (slice after : Text) : Prop where
  letters : Text.lower slice = kw.toList
  ends : after.head?.any Text.isNameChar = false

/-- A name, bare or in backticks. -/
inductive NameSpelling : Text → Text → Prop where
  | bare {c : Char} {rest : Text} (start : Text.isNameStart c = true)
      (tail : ∀ d ∈ rest, Text.isNameChar d = true) : NameSpelling (c :: rest) (c :: rest)
  | ticked {name : Text} (filled : name ≠ []) (chars : ∀ d ∈ name, Text.isNameChar d = true) :
      NameSpelling ('\x60' :: name ++ ['\x60']) name

/-- A field: a name, or two with a point between them. -/
inductive FieldSpelling : Text → Text → Prop where
  | plain {slice name : Text} (named : NameSpelling slice name) : FieldSpelling slice name
  | qualified {slice name slice' name' : Text} (table : NameSpelling slice name)
      (column : NameSpelling slice' name') : FieldSpelling (slice ++ '.' :: slice') (name ++ '.' :: name')

/-- A comparison operator: its own text, or `<>` for an inequality. -/
inductive OperatorSpelling : Text → Comparator → Prop where
  | usual (op : Comparator) : OperatorSpelling op.text op
  | angles : OperatorSpelling ['<', '>'] .ne

/-- An optional `NOT` with the white space after it. -/
inductive NegationSpelling : Text → Bool → Prop where
  | absent : NegationSpelling [] false
  | present {word gap : Text} (letters : Text.lower word = "not".toList) (blank : Gap gap)
      (apart : gap ≠ []) : NegationSpelling (word ++ gap) true

/-- A connective with the white space around it. -/
inductive LinkSpelling (kw : String) : Text → Text → Prop where
  | link {before word gap after : Text} (blank : Gap before) (keyword : IsKeyword kw word (gap ++ after))
      (blank' : Gap gap) : LinkSpelling kw (before ++ word ++ gap) after

/-- An operand at its full length: nothing of the text after it belongs to it. -/
def IsOperand (slice after : Text) : Prop := operand? (slice ++ after) = some (slice, after)

/-- The inside of parentheses that match. -/
def IsBody (body after : Text) : Prop := Text.parenBody? ('(' :: body ++ ')' :: after) = some (body, after)

/-- The inside of a quoted literal: a backslash takes the character after it along, and the quote itself stands
there only twice in a row. -/
inductive Quoted (quote : Char) : Text → Prop where
  | nil : Quoted quote []
  | plain {c : Char} {t : Text} (slash : c ≠ '\\') (other : c ≠ quote) (rest : Quoted quote t) : Quoted quote (c :: t)
  | escaped {c : Char} {t : Text} (rest : Quoted quote t) : Quoted quote ('\\' :: c :: t)
  | doubled {t : Text} (rest : Quoted quote t) : Quoted quote (quote :: quote :: t)

/-- A quoted literal and the text it holds, where a doubled quote counts once. -/
inductive LiteralSpelling : Text → Text → Prop where
  | quoted {quote : Char} {body : Text} (opening : Text.isQuote quote = true) (inside : Quoted quote body) :
      LiteralSpelling (quote :: body ++ [quote]) (Literal.undouble quote body)

/-- A predicate. The field comes first, and each kind of test has its own words after it. -/
inductive PredicateSpelling : Text → Text → Predicate → Prop where
  | comparison {f g o g' value after field : Text} {op : Comparator} (named : FieldSpelling f field) (gap : Gap g)
      (operator : OperatorSpelling o op) (gap' : Gap g') (operand : IsOperand value after) :
      PredicateSpelling (f ++ g ++ o ++ g' ++ value) after (.comparison field op value)
  | like {f g n word g' literal after field pattern : Text} {negated anyCase : Bool}
      (named : FieldSpelling f field) (gap : Gap g) (negation : NegationSpelling n negated)
      (keyword : IsKeyword (if anyCase then "ilike" else "like") word (g' ++ literal ++ after)) (gap' : Gap g')
      (quoted : LiteralSpelling literal pattern) :
      PredicateSpelling (f ++ g ++ n ++ word ++ g' ++ literal) after (.like field negated pattern anyCase)
  | inList {f g n word g' body after field : Text} {negated : Bool} {values : List Text}
      (named : FieldSpelling f field) (gap : Gap g) (negation : NegationSpelling n negated)
      (keyword : IsKeyword "in" word (g' ++ '(' :: body ++ ')' :: after)) (gap' : Gap g')
      (closed : IsBody body after) (list : containsSelect body = false)
      (items : Text.splitTop ',' body = .ok values) :
      PredicateSpelling (f ++ g ++ n ++ word ++ g' ++ ('(' :: body ++ [')'])) after (.inList field negated values)
  | inQuery {f g n word g' body after field : Text} {negated : Bool}
      (named : FieldSpelling f field) (gap : Gap g) (negation : NegationSpelling n negated)
      (keyword : IsKeyword "in" word (g' ++ '(' :: body ++ ')' :: after)) (gap' : Gap g')
      (closed : IsBody body after) (query : containsSelect body = true) :
      PredicateSpelling (f ++ g ++ n ++ word ++ g' ++ ('(' :: body ++ [')'])) after
        (.inQuery field negated (Text.trim body))
  | between {f g n word g' low link high after field : Text} {negated : Bool}
      (named : FieldSpelling f field) (gap : Gap g) (negation : NegationSpelling n negated)
      (keyword : IsKeyword "between" word (g' ++ low ++ link ++ high ++ after)) (gap' : Gap g') (apart : g' ≠ [])
      (first : IsOperand low (link ++ high ++ after)) (linked : LinkSpelling "and" link (high ++ after))
      (second : IsOperand high after) :
      PredicateSpelling (f ++ g ++ n ++ word ++ g' ++ low ++ link ++ high) after (.between field negated low high)
  | isNull {f g word g' n word' after field : Text} {negated : Bool}
      (named : FieldSpelling f field) (gap : Gap g) (keyword : IsKeyword "is" word (g' ++ n ++ word' ++ after))
      (gap' : Gap g') (apart : g' ≠ []) (negation : NegationSpelling n negated)
      (null : IsKeyword "null" word' after) :
      PredicateSpelling (f ++ g ++ word ++ g' ++ n ++ word') after (.isNull field negated)
  | raw {text after : Text} (operand : IsOperand text after) : PredicateSpelling text after (.raw text)

/-- The two words that join conditions. -/
inductive Connective where
  | and
  | or
  deriving DecidableEq, Repr

namespace Connective

/-- The keyword of the connective. -/
def word : Connective → String
  | .and => "and"
  | .or => "or"

/-- The condition that the connective makes of its parts. -/
def wrap : Connective → List Condition → Condition
  | .and => .and
  | .or => .or

end Connective

/-- A phrase of the grammar with what it stands for. -/
inductive Phrase where
  /-- A condition that binds tightest: a predicate, a group or a negation. -/
  | unary (c : Condition)
  /-- One part alone or several under the connective. -/
  | junction (k : Connective) (c : Condition)
  /-- The parts with the connective between them. -/
  | parts (k : Connective) (cs : List Condition)

/-- The parts of an `AND` bind tightest, those of an `OR` are the `AND`s. -/
def Phrase.part : Connective → Condition → Phrase
  | .and, c => .unary c
  | .or, c => .junction .and c

/-- **The grammar**: the slice spells the phrase where `after` follows it. -/
inductive Spelling : Phrase → Text → Text → Prop where
  | leaf {slice after : Text} {p : Predicate} (spelled : PredicateSpelling slice after p) :
      Spelling (.unary (.leaf p)) slice after
  | group {g slice g' after : Text} {c : Condition} (closed : IsBody (g ++ slice ++ g') after) (gap : Gap g)
      (inner : Spelling (.junction .or c) slice g') (gap' : Gap g') :
      Spelling (.unary c) ('(' :: (g ++ slice ++ g') ++ [')']) after
  | not {word g slice after : Text} {c : Condition} (keyword : IsKeyword "not" word (g ++ slice ++ after))
      (gap : Gap g) (inner : Spelling (.unary c) slice after) :
      Spelling (.unary (.not c)) (word ++ g ++ slice) after
  | alone {k : Connective} {slice after : Text} {c : Condition} (part : Spelling (Phrase.part k c) slice after) :
      Spelling (.junction k c) slice after
  | several {k : Connective} {slice after : Text} {c d : Condition} {more : List Condition}
      (parts : Spelling (.parts k (c :: d :: more)) slice after) :
      Spelling (.junction k (k.wrap (c :: d :: more))) slice after
  | last {k : Connective} {slice after : Text} {c : Condition} (part : Spelling (Phrase.part k c) slice after) :
      Spelling (.parts k [c]) slice after
  | more {k : Connective} {slice link slice' after : Text} {c : Condition} {cs : List Condition}
      (part : Spelling (Phrase.part k c) slice (link ++ slice' ++ after))
      (linked : LinkSpelling k.word link (slice' ++ after)) (rest : Spelling (.parts k cs) slice' after) :
      Spelling (.parts k (c :: cs)) (slice ++ link ++ slice') after

/-- How a whole text stands for a condition. The white space around it counts for nothing. -/
inductive Reading : Text → Condition → Prop where
  /-- The text spells the condition from end to end. -/
  | whole {lead slice trail trail' : Text} {c : Condition} (before : Text.Blank lead)
      (spelled : Spelling (.junction .or c) slice trail) (after : Text.Blank trail) (after' : Text.Blank trail') :
      Reading (lead ++ slice ++ trail ++ trail') c
  /-- What is left after a condition is one more conjunct, kept whole but for the white space around it. -/
  | remainder {lead slice gap rest trail trail' : Text} {c : Condition} (before : Text.Blank lead)
      (spelled : Spelling (.junction .or c) slice (gap ++ rest ++ trail)) (apart : Text.Blank gap)
      (filled : rest ≠ []) (trimmed : Text.trim rest = rest) (after : Text.Blank trail) (after' : Text.Blank trail') :
      Reading (lead ++ slice ++ (gap ++ rest ++ trail) ++ trail') (addConjunct c (Condition.raw rest))
  /-- No condition starts with a closing parenthesis, so such a text is kept whole. -/
  | unread {lead rest trail : Text} (before : Text.Blank lead) (trimmed : Text.trim (')' :: rest) = ')' :: rest)
      (after : Text.Blank trail) : Reading (lead ++ ')' :: rest ++ trail) (Condition.raw (')' :: rest))

end Condition
end QueryCode
