import QueryCode.Code

/-!
# Scanning generated code

A reader of generated code that knows nothing but string literals and brackets. A string starts at a double quote
and ends at the next one that no backslash stands before; brackets count outside strings only, and a closing
bracket must close the one opened last. Code is well formed if the scan gets through it and ends outside every
string and bracket.

Code whose words have neither quotes nor brackets is well formed, whatever its strings hold: `Inert.wellFormed`.
-/

namespace QueryCode
set_option autoImplicit false

namespace Code

/-- A character inside a string literal: a backslash stands before a backslash and a double quote. -/
def escapeChar (c : Char) : Text := if c == '\\' || c == '"' then ['\\', c] else [c]

/-- The two passes of escaping are one, since the second leaves alone what the first has put in. -/
theorem escape_eq_flatMap (t : Text) : escape t = t.flatMap escapeChar := by
  have both (c : Char) : Text.substitute '"' ['\\', '"'] (if c == '\\' then ['\\', '\\'] else [c]) = escapeChar c := by
    by_cases slash : c = '\\'
    · subst slash
      decide
    · by_cases quote : c = '"'
      · subst quote
        decide
      · simp [Text.substitute, escapeChar, slash, quote]
  rw [escape, Text.substitute, Text.substitute, List.flatMap_assoc]
  exact congrArg (t.flatMap ·) (funext both)

@[simp] theorem escape_nil : escape [] = [] := rfl

theorem escape_cons (c : Char) (t : Text) : escape (c :: t) = escapeChar c ++ escape t := by
  rw [escape_eq_flatMap, escape_eq_flatMap, List.flatMap_cons]

theorem escape_append (s t : Text) : escape (s ++ t) = escape s ++ escape t := by
  rw [escape_eq_flatMap, escape_eq_flatMap, escape_eq_flatMap, List.flatMap_append]

end Code

/-- Where the scan stands with respect to string literals. -/
inductive Scanner.Mode where
  | outside
  | inside
  /-- Inside a string, just after a backslash. -/
  | escaped
  deriving DecidableEq, Repr

/-- The state of the scan: the string it is in and the open brackets, the last one first. -/
structure Scanner where
  mode : Scanner.Mode := .outside
  opened : List Bracket := []
  deriving DecidableEq, Repr

namespace Scanner

/-- The bracket that a character opens. -/
def opening? (c : Char) : Option Bracket := [Bracket.round, .square, .curly].find? (·.left == c)

/-- The bracket that a character closes. -/
def closing? (c : Char) : Option Bracket := [Bracket.round, .square, .curly].find? (·.right == c)

/-- The state after a character outside strings. -/
def stepOutside (opened : List Bracket) (c : Char) : Option Scanner :=
  if c == '"' then some ⟨.inside, opened⟩
  else
    match opening? c, closing? c, opened with
    | some bracket, _, opened => some ⟨.outside, bracket :: opened⟩
    | none, some bracket, last :: opened => if last = bracket then some ⟨.outside, opened⟩ else none
    | none, some _, [] => none
    | none, none, opened => some ⟨.outside, opened⟩

/-- The state after a character; there is none after a bracket that closes no other. -/
def step (s : Scanner) (c : Char) : Option Scanner :=
  match s.mode with
  | .outside => stepOutside s.opened c
  | .inside =>
    if c == '\\' then some { s with mode := .escaped }
    else if c == '"' then some { s with mode := .outside }
    else some s
  | .escaped => some { s with mode := .inside }

/-- The state after a text. -/
def run (s : Scanner) : Text → Option Scanner
  | [] => some s
  | c :: rest => (s.step c).bind fun s => s.run rest

/-- The scan gets through the text and ends outside every string and bracket. -/
def WellFormed (t : Text) : Prop := run {} t = some {}

instance (t : Text) : Decidable (WellFormed t) := inferInstanceAs (Decidable (run {} t = some {}))

/-- The text leaves the scan, outside strings, as it was. -/
def Neutral (t : Text) : Prop := ∀ opened, run ⟨.outside, opened⟩ t = some ⟨.outside, opened⟩

theorem run_append (s : Scanner) (t u : Text) : s.run (t ++ u) = (s.run t).bind fun s => s.run u := by
  induction t generalizing s with
  | nil => rfl
  | cons c t ih =>
    rw [List.cons_append, run, run, Option.bind_assoc]
    exact congrArg _ (funext fun s => ih s)

theorem neutral_nil : Neutral [] := fun _ => rfl

theorem Neutral.append {t u : Text} (left : Neutral t) (right : Neutral u) : Neutral (t ++ u) := by
  intro opened
  rw [run_append, left opened]
  exact right opened

/-! ## Words -/

/-- The double quote and the brackets. -/
def special : List Char := ['"', '(', ')', '[', ']', '\x7b', '\x7d']

/-- The character is no double quote and no bracket. -/
def isInert (c : Char) : Bool := !special.contains c

/-- A class without quotes and brackets has inert characters only. -/
theorem isInert_of_class {p : Char → Bool} (unlisted : special.any p = false) {c : Char} (member : p c = true) :
    isInert c = true := by
  rw [isInert, Bool.not_eq_true', List.contains_eq_mem, decide_eq_false_iff_not]
  intro listed
  exact List.any_eq_false.1 unlisted c listed member

theorem run_inert {c : Char} (inert : isInert c = true) : Neutral [c] := by
  intro opened
  simp only [isInert, special, List.contains_eq_mem, List.mem_cons, List.not_mem_nil, or_false, Bool.not_eq_true',
    decide_eq_false_iff_not, not_or] at inert
  have left : opening? c = none := by
    simp only [opening?, List.find?_eq_none, List.mem_cons, List.not_mem_nil, or_false, beq_iff_eq]
    rintro _ (rfl | rfl | rfl) <;> simp [Bracket.left, Ne.symm, inert]
  have right : closing? c = none := by
    simp only [closing?, List.find?_eq_none, List.mem_cons, List.not_mem_nil, or_false, beq_iff_eq]
    rintro _ (rfl | rfl | rfl) <;> simp [Bracket.right, Ne.symm, inert]
  simp [run, step, stepOutside, inert.1, left, right]

/-- Text without quotes and brackets is neutral. -/
theorem neutral_of_inert {t : Text} (inert : ∀ c ∈ t, isInert c = true) : Neutral t := by
  induction t with
  | nil => exact neutral_nil
  | cons c t ih =>
    rw [List.forall_mem_cons] at inert
    exact (run_inert inert.1).append (ih inert.2)

/-! ## Strings -/

/-- An escaped character does not end the string. -/
theorem run_escapeChar (opened : List Bracket) (c : Char) :
    run ⟨.inside, opened⟩ (Code.escapeChar c) = some ⟨.inside, opened⟩ := by
  unfold Code.escapeChar
  by_cases slash : c = '\\'
  · simp [slash, run, step]
  by_cases quote : c = '"'
  · simp [quote, run, step]
  · simp [slash, quote, run, step]

theorem run_escape (opened : List Bracket) (t : Text) :
    run ⟨.inside, opened⟩ (Code.escape t) = some ⟨.inside, opened⟩ := by
  induction t with
  | nil => rfl
  | cons c t ih =>
    rw [Code.escape_cons, run_append, run_escapeChar]
    exact ih

/-- **No text breaks out of its string.** -/
theorem neutral_quote (t : Text) : Neutral (Code.quote t) := by
  intro opened
  have start : run ⟨.outside, opened⟩ ['"'] = some ⟨.inside, opened⟩ := rfl
  have stop : run ⟨.inside, opened⟩ ['"'] = some ⟨.outside, opened⟩ := rfl
  have parts : Code.quote t = ['"'] ++ (Code.escape t ++ ['"']) := rfl
  rw [parts, run_append, start, Option.bind_some, run_append, run_escape, Option.bind_some, stop]

/-! ## Brackets -/

/-- Neutral text in brackets is neutral. -/
theorem Neutral.enclose {t : Text} (inside : Neutral t) (bracket : Bracket) :
    Neutral (bracket.left :: t ++ [bracket.right]) := by
  intro opened
  have start : run ⟨.outside, opened⟩ [bracket.left] = some ⟨.outside, bracket :: opened⟩ := by cases bracket <;> rfl
  have stop : run ⟨.outside, bracket :: opened⟩ [bracket.right] = some ⟨.outside, opened⟩ := by cases bracket <;> rfl
  have parts : bracket.left :: t ++ [bracket.right] = [bracket.left] ++ (t ++ [bracket.right]) := rfl
  rw [parts, run_append, start, Option.bind_some, run_append, inside, Option.bind_some, stop]

end Scanner
end QueryCode
