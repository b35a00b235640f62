import QueryCode.Text.Basic

/-!
# Generated code

Generated code is a tree of inert words, string literals and bracketed lists. Its text is written only by
`Code.text`, so brackets always match and every string is escaped in one place.
-/

namespace QueryCode
set_option autoImplicit false

/-- The three kinds of brackets. -/
inductive Bracket where
  | round
  | square
  | curly
  deriving DecidableEq, Repr

namespace Bracket

/-- The opening character. -/
def left : Bracket → Char
  | .round => '('
  | .square => '['
  | .curly => '\x7b'

/-- The closing character. -/
def right : Bracket → Char
  | .round => ')'
  | .square => ']'
  | .curly => '\x7d'

end Bracket

/-- A piece of generated code. -/
inductive Code where
  /-- Names, numbers, operators and punctuation, written as they are. -/
  | word (text : Text)
  /-- A string literal that holds `text`. -/
  | quoted (text : Text)
  /-- Pieces written one after the other. -/
  | row (parts : List Code)
  /-- A bracketed list with commas between its items; a padded one has spaces inside its brackets. -/
  | list (bracket : Bracket) (padded : Bool) (items : List Code)
  deriving Repr

namespace Code

instance : Coe String Code := ⟨fun s => .word s.toList⟩

instance : Append Code := ⟨fun a b => .row [a, b]⟩

/-- The inside of a string literal: a backslash is put before every backslash, and then before every double quote. -/
def escape (t : Text) : Text := Text.substitute '"' ['\\', '"'] (Text.substitute '\\' ['\\', '\\'] t)

/-- A string literal. -/
def quote (t : Text) : Text := '"' :: escape t ++ ['"']

mutual

/-- The text of a piece of code. -/
def text : Code → Text
  | .word t => t
  | .quoted t => quote t
  | .row parts => rowText parts
  | .list bracket _ [] => [bracket.left, bracket.right]
  | .list bracket padded (item :: items) =>
    let pad : Text := if padded then " " else ""
    bracket.left :: pad ++ text item ++ itemsText items ++ pad ++ [bracket.right]

/-- The texts of the pieces one after the other. -/
def rowText : List Code → Text
  | [] => []
  | part :: parts => text part ++ rowText parts

/-- The texts of the further items of a list, each after a comma. -/
def itemsText : List Code → Text
  | [] => []
  | item :: items => ", " ++ text item ++ itemsText items

end

/-- The decimal text of a number of rows. -/
def number (n : Nat) : Code := .word (Nat.toDigits 10 n)

/-- Arguments in round brackets. -/
def args (items : List Code) : Code := .list .round false items

/-- An array. -/
def array (items : List Code) : Code := .list .square false items

/-- An object with spaces inside its braces. -/
def object (fields : List Code) : Code := .list .curly true fields

/-- An object without spaces inside its braces. -/
def options (fields : List Code) : Code := .list .curly false fields

/-- A call of a named function. -/
def call (name : String) (items : List Code) : Code := .row [.word name, args items]

end Code
end QueryCode
