import QueryCode.Text.Basic
import QueryCode.Text.Fold
import QueryCode.Text.Word

/-!
# Scanning for words

A scan walks a text with a cursor that knows its byte offset and the character before it, so that a word can
be told from a part of a longer word. Scans are deterministic: a run takes all it can, and an alternative is
tried only when the one before it fails. Letter case makes no difference to keywords.
-/

namespace QueryCode
set_option autoImplicit false

namespace Text

/-- A place in a text. -/
structure Cursor where
  /-- The number of bytes before the place. -/
  offset : Nat
  /-- The character before the place. -/
  last : Option Char
  /-- The text from the place on. -/
  rest : Text
  deriving DecidableEq, Repr

namespace Cursor

/-- The start of a text. -/
def start (t : Text) : Cursor := ⟨0, none, t⟩

/-- The place after the first `n` characters of what is left. -/
def skip (n : Nat) (cur : Cursor) : Cursor :=
  ⟨cur.offset + size (cur.rest.take n), ((cur.rest.take n).getLast?).or cur.last, cur.rest.drop n⟩

/-- Exactly one of the characters around the place is a word character. -/
def atEdge (cur : Cursor) : Bool := cur.last.any isWord != cur.rest.head?.any isWord

end Cursor

/-- A recogniser of the text at a cursor: the value found and the cursor after it. -/
def Scan (α : Type) := Cursor → Option (α × Cursor)

namespace Scan

instance : Monad Scan where
  pure a := fun cur => some (a, cur)
  bind p f := fun cur =>
    match p cur with
    | some (a, cur) => f a cur
    | none => none

instance {α : Type} : OrElse (Scan α) where
  orElse p q := fun cur =>
    match p cur with
    | some hit => some hit
    | none => q () cur

/-- No text at all fits. -/
def fail {α : Type} : Scan α := fun _ => none

/-- The value if the scan fits, and nothing consumed otherwise. -/
def opt {α : Type} (p : Scan α) : Scan (Option α) := fun cur =>
  match p cur with
  | some (a, cur) => some (some a, cur)
  | none => some (none, cur)

/-- One character of a class. -/
def one (p : Char → Bool) : Scan Char := fun cur =>
  match cur.rest with
  | c :: _ => if p c then some (c, cur.skip 1) else none
  | [] => none

/-- This character. -/
def char (c : Char) : Scan Char := one (· == c)

/-- The longest run of characters of a class, possibly empty. -/
def run (p : Char → Bool) : Scan Text := fun cur =>
  let taken := cur.rest.takeWhile p
  some (taken, cur.skip taken.length)

/-- The longest run of characters of a class, at least one. -/
def run1 (p : Char → Bool) : Scan Text := do
  let taken ← run p
  if taken.isEmpty then fail else pure taken

/-- White space, possibly none. -/
def blanks : Scan Unit := do discard (run isBlank)

/-- White space, at least one character. -/
def blanks1 : Scan Unit := do discard (run1 isBlank)

/-- These letters, whatever their case. -/
def letters (w : Text) : Scan Text := fun cur =>
  let found := cur.rest.take w.length
  if sameFold w found then some (found, cur.skip w.length) else none

/-- The place is at the edge of a word. -/
def edge : Scan Unit := fun cur => if cur.atEdge then some ((), cur) else none

/-- The place is the end of the text. -/
def finish : Scan Unit := fun cur => if cur.rest.isEmpty then some ((), cur) else none

/-- These letters as a whole word. -/
def word (w : Text) : Scan Unit := do
  edge
  discard (letters w)
  edge

/-- The first of several scans that fits. -/
def first {α : Type} : List (Scan α) → Scan α
  | [] => fail
  | p :: ps => p <|> first ps

/-- A place where a scan fits, with what it found and the place after it. -/
structure Hit (α : Type) where
  start : Cursor
  value : α
  stop : Cursor

/-- The first place from `cur` on where the scan fits. -/
def find {α : Type} (p : Scan α) (cur : Cursor) : Option (Hit α) :=
  go cur.offset cur.last cur.rest
where
  /-- Tries the place before `rest`, then the later ones. -/
  go (offset : Nat) (last : Option Char) (rest : Text) : Option (Hit α) :=
    match p ⟨offset, last, rest⟩ with
    | some (value, stop) => some ⟨⟨offset, last, rest⟩, value, stop⟩
    | none =>
      match rest with
      | [] => none
      | c :: rest => go (offset + c.utf8Size) (some c) rest

/-- The places where the scan fits one after the other, each search starting where the last hit stopped. -/
def findAll {α : Type} (p : Scan α) (cur : Cursor) : List (Hit α) :=
  go cur.rest.length cur
where
  /-- At most `n` hits. -/
  go : Nat → Cursor → List (Hit α)
    | 0, _ => []
    | n + 1, cur =>
      match find p cur with
      | some hit => hit :: go n hit.stop
      | none => []

/-- The value found when the scan fits the whole text. -/
def whole? {α : Type} (p : Scan α) (t : Text) : Option α :=
  match (do let a ← p; finish; pure a : Scan α) (Cursor.start t) with
  | some (a, _) => some a
  | none => none

/-- The scan fits somewhere in the text. -/
def occurs {α : Type} (p : Scan α) (t : Text) : Bool := (find p (Cursor.start t)).isSome

/-- The shortest non-empty beginning of a text after which the scan fits all the rest, with the value. -/
def shortest? {α : Type} (p : Scan α) (t : Text) : Option (Text × α) :=
  match t with
  | [] => none
  | c :: rest => go [c] rest
where
  /-- Tries after `head`, which is kept backwards. -/
  go (head : Text) (rest : Text) : Option (Text × α) :=
    match whole? p rest with
    | some a => some (head.reverse, a)
    | none =>
      match rest with
      | [] => none
      | c :: rest => go (c :: head) rest

end Scan
end Text
end QueryCode
