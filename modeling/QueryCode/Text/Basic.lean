import QueryCode.Text.Blank

/-!
# Text

Statements, clauses and generated code are lists of characters, so every reader and every printer is a
recursion on its input. Lengths and offsets count UTF-8 bytes. A cut at an offset that is no character
boundary has no result: it is a `Fault`.
-/

namespace QueryCode
set_option autoImplicit false

/-- A text, character by character. -/
abbrev Text := List Char

instance : Coe String Text := ⟨String.toList⟩

/-- Why a text cannot be cut at a byte offset. -/
inductive Fault where
  /-- The offset lies between the bytes of one character. -/
  | insideCharacter
  /-- The offset lies beyond the end of the text. -/
  | pastEnd
  deriving DecidableEq, Repr

namespace Text

/-- The length in UTF-8 bytes. -/
def size : Text → Nat
  | [] => 0
  | c :: rest => c.utf8Size + size rest

/-- The text before and after a byte offset. -/
def cut : Nat → Text → Except Fault (Text × Text)
  | 0, t => .ok ([], t)
  | _ + 1, [] => .error .pastEnd
  | n + 1, c :: t =>
    if c.utf8Size ≤ n + 1 then
      match cut (n + 1 - c.utf8Size) t with
      | .ok (before, after) => .ok (c :: before, after)
      | .error fault => .error fault
    else .error .insideCharacter

/-- The text between two byte offsets. -/
def slice (start stop : Nat) (t : Text) : Except Fault Text :=
  match cut stop t with
  | .error fault => .error fault
  | .ok (before, _) =>
    match cut start before with
    | .error fault => .error fault
    | .ok (_, inner) => .ok inner

/-- The letters `A` to `Z` in lower case, all else unchanged. -/
def lower (t : Text) : Text := t.map Char.toLower

/-- The same text but for the case of the letters `a` to `z`. -/
def sameWord (s t : Text) : Bool := lower s == lower t

/-- The pieces between the occurrences of a separator; there is always at least one. -/
def pieces (sep : Char) : Text → List Text
  | [] => [[]]
  | c :: rest =>
    if c == sep then [] :: pieces sep rest
    else
      match pieces sep rest with
      | [] => [[c]]
      | piece :: more => (c :: piece) :: more

/-- The texts one after the other with a separator between them. -/
def join (sep : Text) (parts : List Text) : Text := List.intercalate sep parts

/-- The text without the backticks at its two ends. -/
def stripBackticks (t : Text) : Text :=
  ((t.dropWhile (· == '\x60')).reverse.dropWhile (· == '\x60')).reverse

/-- The text with `new` in the place of every character `old`. -/
def substitute (old : Char) (new t : Text) : Text := t.flatMap fun c => if c == old then new else [c]

/-- The character opens and closes quoted literals. -/
def isQuote (c : Char) : Bool := c == '\'' || c == '"'

/-- The text after `head`, if it starts so. -/
def after? (head t : Text) : Option Text :=
  match head, t with
  | [], t => some t
  | _ :: _, [] => none
  | h :: head, c :: t => if h == c then after? head t else none

end Text
end QueryCode
