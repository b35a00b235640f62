import QueryCode.Text.Basic

/-!
# Masked text

Clause keywords count only outside quoted literals and parentheses. A walk over the text tells for every
character whether it stands inside a literal and whether it stands inside parentheses; `mask` then shows
the hidden characters as spaces, one for each of their bytes, so offsets in the mask are offsets in the text.

A literal starts at either quote character and ends at the next one of its kind. Inside it a backslash
hides the character after it, and a doubled quote belongs to the literal. A closing parenthesis without an
opening one counts as an ordinary character.
-/

namespace QueryCode
set_option autoImplicit false

namespace Text

/-- Where the walk stands with respect to quoted literals. -/
inductive Mode where
  | plain
  /-- Inside a literal opened by `quote`. -/
  | quoted (quote : Char)
  /-- Inside a literal, just after a backslash. -/
  | escaped (quote : Char)
  /-- Inside a literal, between the two halves of a doubled quote. -/
  | doubled (quote : Char)
  deriving DecidableEq, Repr

/-- The state of the walk: the literal it is in and the number of open parentheses. -/
structure Walk where
  mode : Mode := .plain
  depth : Nat := 0
  deriving DecidableEq, Repr

/-- A character with what the walk found around it. -/
structure Cell where
  char : Char
  /-- The character belongs to a literal and is not one of its two delimiters. -/
  quoted : Bool
  /-- The character stands inside parentheses. -/
  enclosed : Bool
  deriving DecidableEq, Repr

/-- What a mask hides: the inside of literals, or that and the inside of parentheses. -/
inductive Cover where
  | quotes
  | nested
  deriving DecidableEq, Repr

namespace Walk

/-- The cell of `c`, followed by `next`, and the state after it. -/
def step (w : Walk) (c : Char) (next : Option Char) : Cell × Walk :=
  let enclosed := decide (0 < w.depth)
  match w.mode with
  | .escaped q => (⟨c, true, enclosed⟩, { w with mode := .quoted q })
  | .doubled q => (⟨c, true, enclosed⟩, { w with mode := .quoted q })
  | .quoted q =>
    if c == '\\' then (⟨c, true, enclosed⟩, { w with mode := .escaped q })
    else if c == q then
      if next == some q then (⟨c, true, enclosed⟩, { w with mode := .doubled q })
      else (⟨c, false, enclosed⟩, { w with mode := .plain })
    else (⟨c, true, enclosed⟩, w)
  | .plain =>
    if isQuote c then (⟨c, false, enclosed⟩, { w with mode := .quoted c })
    else if c == '(' then (⟨c, false, enclosed⟩, { w with depth := w.depth + 1 })
    else if c == ')' then
      (⟨c, false, decide (0 < w.depth - 1)⟩, { w with depth := w.depth - 1 })
    else (⟨c, false, enclosed⟩, w)

/-- The cells of a text, walked from a given state. -/
def cells (w : Walk) : Text → List Cell
  | [] => []
  | c :: rest => (w.step c rest.head?).1 :: cells (w.step c rest.head?).2 rest

/-- The state in which the walk leaves a text. -/
def run (w : Walk) : Text → Walk
  | [] => w
  | c :: rest => run (w.step c rest.head?).2 rest

end Walk

namespace Cell

/-- The cover hides this character. -/
def hidden (cover : Cover) (cell : Cell) : Bool :=
  match cover with
  | .quotes => cell.quoted
  | .nested => cell.quoted || cell.enclosed

/-- The character itself, or a space for each of its bytes. -/
def shown (cover : Cover) (cell : Cell) : Text :=
  if cell.hidden cover then List.replicate cell.char.utf8Size ' ' else [cell.char]

/-- The character itself, or a single space. -/
def face (cover : Cover) (cell : Cell) : Char :=
  if cell.hidden cover then ' ' else cell.char

end Cell

/-- The cells of a text. -/
def cells (t : Text) : List Cell := Walk.cells {} t

/-- The text with the hidden characters shown as spaces, byte for byte. -/
def mask (cover : Cover) (t : Text) : Text := (cells t).flatMap (Cell.shown cover)

/-- The walk ends outside every literal and parenthesis. -/
def isClosed (t : Text) : Bool := Walk.run {} t == {}

end Text
end QueryCode
