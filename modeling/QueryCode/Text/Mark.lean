import QueryCode.Text.Mask
import QueryCode.Text.Scan

/-!
# Finding text outside literals

A text is taken apart into the places where a pattern fits outside quoted literals and the characters
between them, so that those places can be changed and all else kept.
-/

namespace QueryCode
set_option autoImplicit false

namespace Text

/-- A part of a text. -/
inductive Part where
  /-- A character that belongs to no hit. -/
  | plain (c : Char)
  /-- A text at which the pattern fits. -/
  | hit (t : Text)
  deriving DecidableEq, Repr

/-- The parts of a row of cells after a character, `skip` of which belong to the hit before. -/
def markCells (p : Scan Unit) : Nat → Option Char → List Cell → List Part
  | _, _, [] => []
  | skip + 1, _, cell :: rest => markCells p skip (some (cell.face .quotes)) rest
  | 0, last, cell :: rest =>
    let found :=
      match p ⟨0, last, (cell :: rest).map (Cell.face .quotes)⟩ with
      | some (_, stop) => (cell :: rest).length - stop.rest.length
      | none => 0
    let part := if found == 0 then .plain cell.char else .hit (((cell :: rest).take found).map Cell.char)
    part :: markCells p (found - 1) (some (cell.face .quotes)) rest

/-- The parts of a text, each search for a hit starting where the last one stopped. -/
def mark (p : Scan Unit) (t : Text) : List Part := markCells p 0 none (cells t)

/-- The text with every hit changed. -/
def mapHits (f : Text → Text) (parts : List Part) : Text :=
  parts.flatMap fun part =>
    match part with
    | .plain c => [c]
    | .hit t => f t

/-- The hits alone. -/
def hits (parts : List Part) : List Text :=
  parts.filterMap fun part =>
    match part with
    | .plain _ => none
    | .hit t => some t

end Text
end QueryCode
