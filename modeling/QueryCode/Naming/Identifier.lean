import QueryCode.Code
import QueryCode.Text.Word

/-!
# Identifiers

Plain names of letters `a` to `z`, digits and underscores can be written bare in generated code; all other
names become string literals.
-/

namespace QueryCode
set_option autoImplicit false

namespace Naming

/-- The character can start a plain name. -/
def isPlainStart (c : Char) : Bool := Text.isAsciiLetter c || c == '_'

/-- The character can continue a plain name. -/
def isPlain (c : Char) : Bool := isPlainStart c || Text.isAsciiDigit c

/-- A plain name: no digit first. -/
def isIdentifier (name : Text) : Bool :=
  match name with
  | [] => false
  | c :: rest => isPlainStart c && rest.all isPlain

/-- Two plain names with a point between them. -/
def isColumnRef (t : Text) : Bool :=
  match Text.pieces '.' (Text.trim t) with
  | [table, column] => isIdentifier table && isIdentifier column
  | _ => false

/-- A name as a symbol. -/
def symbol (name : Text) : Code := if isIdentifier name then .word (':' :: name) else .quoted name

/-- A name as a property key. -/
def key (name : Text) : Code := if isIdentifier name then .word name else .quoted name

/-- A name as a hash key, with the colon after it. -/
def hashKey (name : Text) : Code := key name ++ ":"

end Naming
end QueryCode
