import QueryCode.Text.Mask

/-!
# Top-level structure

Splitting at separators and finding characters outside literals and parentheses, and matching a
parenthesis with the one that closes it.
-/

namespace QueryCode
set_option autoImplicit false

namespace Text

/-- The byte offset of the first occurrence of a character. -/
def offsetOf? (c : Char) : Text → Option Nat
  | [] => none
  | d :: rest => if d == c then some 0 else (offsetOf? c rest).map (· + d.utf8Size)

/-- The byte offset of the first occurrence of a character in the mask. -/
def findTop? (c : Char) (t : Text) : Option Nat := offsetOf? c (mask .nested t)

/-- The byte offsets of a character in a text that starts at the offset `start`. -/
def offsetsOf (c : Char) (start : Nat) : Text → List Nat
  | [] => []
  | d :: rest =>
    if d == c then start :: offsetsOf c (start + d.utf8Size) rest else offsetsOf c (start + d.utf8Size) rest

/-- The slices of a text from `start` on, between separators of `width` bytes at the given offsets. -/
def slicesAt (width : Nat) (t : Text) (start : Nat) : List Nat → Except Fault (List Text)
  | [] => do return [← slice start (size t) t]
  | stop :: stops => do
    let part ← slice start stop t
    return part :: (← slicesAt width t (stop + width) stops)

/-- The trimmed, non-empty pieces between the separators outside literals and parentheses. They are found in the mask and
cut out of the text: a space is no safe separator, since a hidden character of several bytes shows as several spaces. -/
def splitTop (sep : Char) (t : Text) : Except Fault (List Text) := do
  let parts ← slicesAt sep.utf8Size t 0 (offsetsOf sep 0 (mask .nested t))
  return (parts.map trim).filter (!·.isEmpty)

/-- The cell shows a closing parenthesis. -/
def closes (cell : Cell) : Bool := !cell.hidden .nested && cell.char == ')'

/-- The inside of the parentheses at the start of a text, and the text after them. -/
def parenBody? (t : Text) : Option (Text × Text) :=
  match t with
  | '(' :: _ =>
    let inner := (cells t).tail
    match inner.dropWhile (!closes ·) with
    | [] => none
    | _ :: rest => some ((inner.takeWhile (!closes ·)).map Cell.char, rest.map Cell.char)
  | _ => none

/-- The byte offset of the parenthesis that closes the one at byte offset `start`. -/
def matchingParen? (t : Text) (start : Nat) : Option Nat :=
  match cut start t with
  | .ok (_, tail) => (parenBody? tail).map fun (inner, _) => start + 1 + size inner
  | .error _ => none

end Text
end QueryCode
