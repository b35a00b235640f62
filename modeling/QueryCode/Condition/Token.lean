import QueryCode.Reader
import QueryCode.Text.Scan
import QueryCode.Text.TopLevel

/-!
# Tokens of a condition

Keywords, names, quoted literals and operands at the start of a text. An operand ends where a connective
or an unmatched closing parenthesis shows at the top level.
-/

namespace QueryCode
set_option autoImplicit false

namespace Condition

/-- The character is the lower-case letter `k`, in either case. The Kelvin sign is a capital k. -/
def isLetterOf (k c : Char) : Bool := c.toLower == k || (k == 'k' && c == '\u212A')

/-- As far as both texts go, the second has the letters of the first. -/
def agrees (kw t : Text) : Bool := (kw.zip t).all fun (k, c) => isLetterOf k c

/-- A keyword in any letter case that is not the beginning of a longer name. Its length is counted in bytes,
so a Kelvin sign in it leaves no place to cut. -/
def keyword (kw : String) : Reader Unit := fun t =>
  if agrees kw.toList t && Text.size kw.toList ≤ Text.size t then
    match Text.cut (Text.size kw.toList) t with
    | .error fault => .error fault
    | .ok (_, rest) => if rest.head?.any Text.isNameChar then .ok none else .ok (some ((), rest))
  else .ok none

/-- The text starts with the keyword. -/
def startsWith (kw : String) (t : Text) : Bool :=
  match keyword kw t with
  | .ok (some _) => true
  | _ => false

/-- The text starts with `AND` or `OR`. -/
def startsLogical (t : Text) : Bool := startsWith "and" t || startsWith "or" t

/-- A name, bare or in backticks. -/
def identifier? (t : Text) : Option (Text × Text) :=
  match t with
  | '\x60' :: rest =>
    let name := rest.takeWhile Text.isNameChar
    match name, rest.dropWhile Text.isNameChar with
    | _ :: _, '\x60' :: rest => some (name, rest)
    | _, _ => none
  | c :: rest =>
    if Text.isNameStart c then some (c :: rest.takeWhile Text.isNameChar, rest.dropWhile Text.isNameChar)
    else none
  | [] => none

/-- A field: a name, or two with a point between them. -/
def fieldRef? (t : Text) : Option (Text × Text) :=
  match identifier? t with
  | none => none
  | some (head, '.' :: rest) =>
    match identifier? rest with
    | some (column, rest) => some (head ++ '.' :: column, rest)
    | none => some (head, '.' :: rest)
  | some (head, rest) => some (head, rest)

/-- What is left of a quoted literal after its opening quote, with the closing one. -/
def literalTail? (quote : Char) : Text → Option (Text × Text)
  | [] => none
  | [c] => if c != '\\' && c == quote then some ([c], []) else none
  | c :: d :: rest =>
    if c == '\\' then (literalTail? quote rest).map fun (tail, rest) => (c :: d :: tail, rest)
    else if c == quote then
      if d == quote then (literalTail? quote rest).map fun (tail, rest) => (c :: d :: tail, rest)
      else some ([c], d :: rest)
    else (literalTail? quote (d :: rest)).map fun (tail, rest) => (c :: tail, rest)

/-- A quoted literal with its quotes. -/
def stringLiteral? (t : Text) : Option (Text × Text) :=
  match t with
  | [] => none
  | quote :: rest =>
    if Text.isQuote quote then
      (literalTail? quote rest).map fun (tail, rest) => (quote :: tail, rest)
    else none

/-- The characters up to the end of an operand, read inside the literal that `quote` opened, if any, and inside `depth`
parentheses. Outside of both it ends at a closing parenthesis and at white space before a connective. -/
def operandSpan (quote : Option Char) (depth : Nat) : Text → Text
  | [] => []
  | c :: rest =>
    match quote with
    | some q =>
      if c == '\\' then
        match rest with
        | [] => [c]
        | d :: rest => c :: d :: operandSpan (some q) depth rest
      else if c == q then
        match rest with
        | [] => [c]
        | d :: rest =>
          if d == q then c :: d :: operandSpan (some q) depth rest else c :: operandSpan none depth (d :: rest)
      else c :: operandSpan (some q) depth rest
    | none =>
      if Text.isQuote c then c :: operandSpan (some c) depth rest
      else if c == '(' then c :: operandSpan none (depth + 1) rest
      else if c == ')' then if depth == 0 then [] else c :: operandSpan none (depth - 1) rest
      else if Text.isBlank c && depth == 0 && startsLogical (Text.trimStart (c :: rest)) then []
      else c :: operandSpan none depth rest

/-- An operand without the white space after it; it is not empty. -/
def operand? (t : Text) : Option (Text × Text) :=
  let found := Text.trimEnd (operandSpan none 0 t)
  if found.isEmpty then none else some (found, t.drop found.length)

/-- The word `SELECT` stands somewhere outside literals. -/
def containsSelect (t : Text) : Bool := Text.Scan.occurs (Text.Scan.word "select") (Text.mask .quotes t)

/-- White space that separates words, possibly none. -/
def gaps : Reader Unit := fun t => .ok (some ((), t.dropWhile Text.isGap))

/-- White space that separates words, at least one character. -/
def gaps1 : Reader Unit := fun t =>
  if t.head?.any Text.isGap then .ok (some ((), t.dropWhile Text.isGap)) else .ok none

/-- A connective between two conditions, with the white space around it. -/
def connective (kw : String) : Reader Unit := do
  gaps
  keyword kw
  gaps

end Condition
end QueryCode
