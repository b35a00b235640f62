import QueryCode.Text.Basic

/-!
# JSON documents

Reports are JSON values written over several lines, two spaces to a level. Only quotes, backslashes and
control characters are escaped.
-/

namespace QueryCode
set_option autoImplicit false

/-- A JSON value; the members of an object are written in the order given. -/
inductive JsonValue where
  | null
  | boolean (value : Bool)
  | number (value : Nat)
  | string (text : Text)
  | array (items : List JsonValue)
  | object (members : List (Text × JsonValue))
  deriving Repr

namespace JsonValue

/-- A text or null. -/
def ofText? : Option Text → JsonValue
  | none => .null
  | some t => .string t

/-- An array of texts. -/
def ofTexts (ts : List Text) : JsonValue := .array (ts.map .string)

/-- A hexadecimal digit in lower case. -/
def hexDigit (n : Nat) : Char := Char.ofNat (if n < 10 then '0'.toNat + n else 'a'.toNat + (n - 10))

/-- A character inside a string. -/
def escapeChar (c : Char) : Text :=
  if c == '"' || c == '\\' then ['\\', c]
  else if c == '\x08' then ['\\', 'b']
  else if c == '\t' then ['\\', 't']
  else if c == '\n' then ['\\', 'n']
  else if c == '\x0c' then ['\\', 'f']
  else if c == '\r' then ['\\', 'r']
  else if c.toNat < 0x20 then ['\\', 'u', '0', '0', hexDigit (c.toNat / 16), hexDigit (c.toNat % 16)]
  else [c]

/-- A string between double quotes. -/
def quote (t : Text) : Text := '"' :: t.flatMap escapeChar ++ ['"']

/-- A new line at a depth. -/
def newLine (depth : Nat) : Text := '\n' :: List.replicate (2 * depth) ' '

mutual

/-- The text of a value at a depth. -/
def textAt (depth : Nat) : JsonValue → Text
  | .null => "null"
  | .boolean true => "true"
  | .boolean false => "false"
  | .number n => (toString n).toList
  | .string t => quote t
  | .array [] => "[]"
  | .array (item :: items) =>
    '[' :: newLine (depth + 1) ++ textAt (depth + 1) item ++ itemsText (depth + 1) items
      ++ newLine depth ++ [']']
  | .object [] => ['\x7b', '\x7d']
  | .object ((name, value) :: members) =>
    '\x7b' :: newLine (depth + 1) ++ quote name ++ ": " ++ textAt (depth + 1) value
      ++ membersText (depth + 1) members ++ newLine depth ++ ['\x7d']

/-- The further items of an array, each after a comma on a line of its own. -/
def itemsText (depth : Nat) : List JsonValue → Text
  | [] => []
  | item :: items => ',' :: newLine depth ++ textAt depth item ++ itemsText depth items

/-- The further members of an object, each after a comma on a line of its own. -/
def membersText (depth : Nat) : List (Text × JsonValue) → Text
  | [] => []
  | (name, value) :: members =>
    ',' :: newLine depth ++ quote name ++ ": " ++ textAt depth value ++ membersText depth members

end

/-- The text of a document. -/
def text (value : JsonValue) : Text := textAt 0 value

end JsonValue
end QueryCode
