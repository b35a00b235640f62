import QueryCode.Proofs.Code.Inert

/-!
# Strings of generated code

The string literals of a text, read back character by character. A backslash takes the character after it along, and
the first double quote that no backslash stands before ends the literal. A written string is read as its own text,
whatever follows it (`string_quote`), and the literals of inert code are its strings in order (`literals_text`).
-/

namespace QueryCode
set_option autoImplicit false

namespace Code

/-! ## One literal -/

/-- A character of a string literal. -/
structure Glyph where
  char : Char
  /-- A backslash stands before the character. -/
  escaped : Bool
  deriving DecidableEq, Repr

/-- The characters of a string literal after its opening quote, and the text after its closing one. -/
def stringTail? : Text → Option (List Glyph × Text)
  | [] => none
  | [c] => if c == '"' then some ([], []) else none
  | c :: d :: rest =>
    if c == '\\' then (stringTail? rest).map fun (glyphs, after) => (⟨d, true⟩ :: glyphs, after)
    else if c == '"' then some ([], d :: rest)
    else (stringTail? (d :: rest)).map fun (glyphs, after) => (⟨c, false⟩ :: glyphs, after)

/-- The value of the string literal at the start of a text, and the text after it. -/
def string? : Text → Option (Text × Text)
  | [] => none
  | c :: rest =>
    if c == '"' then (stringTail? rest).map fun (glyphs, after) => (glyphs.map Glyph.char, after) else none

/-- The characters of the literal that holds a text. -/
def glyphs (t : Text) : List Glyph := t.map fun c => ⟨c, c == '\\' || c == '"'⟩

theorem map_char_glyphs (t : Text) : (glyphs t).map Glyph.char = t := by
  rw [glyphs, List.map_map]
  exact List.map_id t

theorem stringTail_escapeChar (c : Char) (t : Text) :
    stringTail? (escapeChar c ++ t) =
      (stringTail? t).map fun (glyphs, after) => (⟨c, c == '\\' || c == '"'⟩ :: glyphs, after) := by
  unfold escapeChar
  by_cases special : (c == '\\' || c == '"') = true
  · rw [if_pos special, special]
    rfl
  · have plain := Bool.eq_false_iff.2 special
    rw [if_neg special, plain]
    rw [Bool.or_eq_false_iff] at plain
    cases t with
    | nil => simp [stringTail?, plain.2]
    | cons d t =>
      rw [List.singleton_append, stringTail?, plain.1, plain.2]
      rfl

/-- An escaped text is read as its characters, and the literal ends behind it. -/
theorem stringTail_escape (t rest : Text) : stringTail? (escape t ++ '"' :: rest) = some (glyphs t, rest) := by
  induction t with
  | nil =>
    cases rest <;> rfl
  | cons c t ih =>
    rw [escape_cons, List.append_assoc, stringTail_escapeChar, ih]
    rfl

/-- **A written string is read as its text, whatever follows it.** -/
theorem string_quote (t rest : Text) : string? (quote t ++ rest) = some (t, rest) := by
  have parts : quote t ++ rest = '"' :: (escape t ++ '"' :: rest) := by simp [quote]
  rw [parts, string?, if_pos (beq_self_eq_true _), stringTail_escape]
  exact congrArg (fun value => some (value, rest)) (map_char_glyphs t)

/-! ## The literals of a text -/

/-- The literals of a text. In the middle of a literal, the first one is what is left of it; a literal that is never
closed goes to the end. -/
def literalsFrom : Scanner.Mode → Text → List (List Glyph)
  | .outside, [] => []
  | .inside, [] => [[]]
  | .escaped, [] => [[]]
  | .outside, c :: rest => if c == '"' then literalsFrom .inside rest else literalsFrom .outside rest
  | .inside, c :: rest =>
    if c == '\\' then literalsFrom .escaped rest
    else if c == '"' then [] :: literalsFrom .outside rest
    else (literalsFrom .inside rest).modifyHead (⟨c, false⟩ :: ·)
  | .escaped, c :: rest => (literalsFrom .inside rest).modifyHead (⟨c, true⟩ :: ·)

/-- The string literals of a text in order. -/
def literals (t : Text) : List (List Glyph) := literalsFrom .outside t

/-- A literal that is closed is read on its own. -/
theorem literalsFrom_inside {t after : Text} {literal : List Glyph} (read : stringTail? t = some (literal, after)) :
    literalsFrom .inside t = literal :: literalsFrom .outside after := by
  fun_induction stringTail? t generalizing literal with
  | case1 => cases read
  | case2 c closing =>
    cases read
    obtain rfl := beq_iff_eq.1 closing
    rfl
  | case3 => cases read
  | case4 c d rest slash ih =>
    obtain ⟨⟨tail, after'⟩, tailRead, same⟩ := Option.map_eq_some_iff.1 read
    cases same
    rw [literalsFrom, if_pos slash, literalsFrom, ih tailRead]
    rfl
  | case5 c d rest slash closing =>
    cases read
    obtain rfl := beq_iff_eq.1 closing
    rfl
  | case6 c d rest slash closing ih =>
    obtain ⟨⟨tail, after'⟩, tailRead, same⟩ := Option.map_eq_some_iff.1 read
    cases same
    rw [literalsFrom, if_neg slash, if_neg closing, ih tailRead]
    rfl

/-- Outside literals, the text has exactly the literals of these values. -/
def Holds (t : Text) (values : List Text) : Prop :=
  ∀ rest, literalsFrom .outside (t ++ rest) = values.map glyphs ++ literalsFrom .outside rest

theorem holds_nil : Holds [] [] := fun _ => rfl

theorem Holds.append {t u : Text} {values more : List Text} (left : Holds t values) (right : Holds u more) :
    Holds (t ++ u) (values ++ more) := by
  intro rest
  rw [List.append_assoc, left, right, List.map_append, List.append_assoc]

theorem holds_of_inert {t : Text} (inert : t.Inert) : Holds t [] := by
  intro rest
  induction t with
  | nil => rfl
  | cons c t ih =>
    rw [Text.inert_cons] at inert
    have plain : ¬ (c == '"') = true := by
      intro quote
      rw [beq_iff_eq.1 quote] at inert
      exact absurd inert.1 (by decide)
    rw [List.cons_append, literalsFrom, if_neg plain]
    exact ih inert.2

theorem holds_quote (t : Text) : Holds (quote t) [t] := by
  intro rest
  have parts : quote t ++ rest = '"' :: (escape t ++ '"' :: rest) := by simp [quote]
  rw [parts, literalsFrom, if_pos (beq_self_eq_true _), literalsFrom_inside (stringTail_escape t rest)]
  rfl

/-- Brackets are no part of a literal. -/
theorem Holds.enclose {t : Text} {values : List Text} (inside : Holds t values) (bracket : Bracket) :
    Holds (bracket.left :: t ++ [bracket.right]) values := by
  intro rest
  have left (u : Text) : literalsFrom .outside (bracket.left :: u) = literalsFrom .outside u := by cases bracket <;> rfl
  have right (u : Text) : literalsFrom .outside (bracket.right :: u) = literalsFrom .outside u := by
    cases bracket <;> rfl
  have parts : bracket.left :: t ++ [bracket.right] ++ rest = bracket.left :: (t ++ bracket.right :: rest) := by simp
  rw [parts, left, inside, right]

/-! ## The strings of code -/

mutual

/-- The values of the strings of the code in order. -/
def strings : Code → List Text
  | .word _ => []
  | .quoted t => [t]
  | .row parts => allStrings parts
  | .list _ _ items => allStrings items

/-- The values of the strings of the pieces in order. -/
def allStrings : List Code → List Text
  | [] => []
  | part :: parts => strings part ++ allStrings parts

end

theorem strings_append (a b : Code) : (a ++ b).strings = a.strings ++ b.strings := by
  show strings (.row [a, b]) = _
  rw [strings, allStrings, allStrings, allStrings, List.append_nil]

theorem holds_pad (padded : Bool) : Holds (if padded then " " else "" : Text) [] := by
  cases padded
  · exact holds_nil
  · exact holds_of_inert (by decide)

mutual

theorem holds_text : (code : Code) → Inert code → Holds code.text code.strings
  | .word t, inert => holds_of_inert inert
  | .quoted t, _ => holds_quote t
  | .row parts, inert => holds_rowText parts inert
  | .list bracket padded [], _ => holds_nil.enclose bracket
  | .list bracket padded (item :: items), inert => by
    have pad := holds_pad padded
    have first := holds_text item inert.1
    have rest := holds_itemsText items inert.2
    have inside := ((pad.append first).append rest).append pad
    rw [text, strings, allStrings]
    simpa using inside.enclose bracket

theorem holds_rowText : (parts : List Code) → AllInert parts → Holds (rowText parts) (allStrings parts)
  | [], _ => holds_nil
  | part :: parts, inert => (holds_text part inert.1).append (holds_rowText parts inert.2)

theorem holds_itemsText : (items : List Code) → AllInert items → Holds (itemsText items) (allStrings items)
  | [], _ => holds_nil
  | item :: items, inert => by
    have comma : Holds (", " : Text) [] := holds_of_inert (by decide)
    exact (comma.append (holds_text item inert.1)).append (holds_itemsText items inert.2)

end

/-- **The literals of inert code are its strings.** -/
theorem Inert.literals_text {code : Code} (inert : Inert code) : literals code.text = code.strings.map glyphs := by
  have whole := holds_text code inert []
  rw [List.append_nil] at whole
  rw [literals, whole]
  exact List.append_nil _

end Code
end QueryCode
