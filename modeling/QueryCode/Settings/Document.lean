import QueryCode.Text.Basic

/-!
# Settings documents

A settings document holds one `key = value` pair a line, blank lines and comments. A value is a string or a
truth value. Strings come in four forms: between double quotes with escapes, between single quotes without,
and either of them between three quotes over several lines.
-/

namespace QueryCode
set_option autoImplicit false

namespace Settings

/-- A value of a settings document. -/
inductive Value where
  | string (text : Text)
  | boolean (value : Bool)
  deriving DecidableEq, Repr

namespace Document

/-- Space and tab, the blanks within a line. -/
def isSpace (c : Char) : Bool := c == ' ' || c == '\t'

/-- The character may stand in a string or a comment: no control character but the tab. -/
def isPlain (c : Char) : Bool := c == '\t' || (0x20 ≤ c.toNat && c.toNat != 0x7F)

/-- The text after one line end, if it starts with one. -/
def lineEnd? : Text → Option Text
  | '\n' :: rest => some rest
  | '\r' :: '\n' :: rest => some rest
  | _ => none

/-- The text after the blanks of the line. -/
def skipSpaces (t : Text) : Text := t.dropWhile isSpace

/-- What the pieces at the start of a text stand for, as long as one fits, and the rest. -/
def run (piece : Text → Option (Text × Text)) (t : Text) : Text × Text := go t.length t
where
  /-- At most `n` pieces. -/
  go : Nat → Text → Text × Text
    | 0, t => ([], t)
    | n + 1, t =>
      match piece t with
      | none => ([], t)
      | some (found, rest) =>
        let (more, rest) := go n rest
        (found ++ more, rest)

/-- The value of a hexadecimal digit. -/
def hexValue? (c : Char) : Option Nat :=
  if '0' ≤ c && c ≤ '9' then some (c.toNat - '0'.toNat)
  else if 'a' ≤ c && c ≤ 'f' then some (c.toNat - 'a'.toNat + 10)
  else if 'A' ≤ c && c ≤ 'F' then some (c.toNat - 'A'.toNat + 10)
  else none

/-- The character whose code point the first `width` hexadecimal digits give. -/
def codePoint? (width : Nat) (t : Text) : Option (Text × Text) := do
  let digits ← (t.take width).mapM hexValue?
  let n := digits.foldl (fun n d => 16 * n + d) 0
  if digits.length == width && decide n.isValidChar then some ([Char.ofNat n], t.drop width) else none

/-- The character for which an escape stands, the backslash being read. -/
def escape? : Text → Option (Text × Text)
  | 'b' :: rest => some (['\x08'], rest)
  | 't' :: rest => some (['\t'], rest)
  | 'n' :: rest => some (['\n'], rest)
  | 'f' :: rest => some (['\x0c'], rest)
  | 'r' :: rest => some (['\r'], rest)
  | '"' :: rest => some (['"'], rest)
  | '\\' :: rest => some (['\\'], rest)
  | 'u' :: rest => codePoint? 4 rest
  | 'U' :: rest => codePoint? 8 rest
  | _ => none

/-- One character of a string with escapes. -/
def escapedPiece? : Text → Option (Text × Text)
  | '\\' :: rest => escape? rest
  | c :: rest => if isPlain c && c != '"' then some ([c], rest) else none
  | [] => none

/-- One character of a string without escapes. -/
def rawPiece? : Text → Option (Text × Text)
  | c :: rest => if isPlain c && c != '\'' then some ([c], rest) else none
  | [] => none

/-- A line end in a string, always kept as a line feed. -/
def linePiece? (t : Text) : Option (Text × Text) := (lineEnd? t).map fun rest => (['\n'], rest)

/-- The text after all blanks and line ends. -/
def skipLines (t : Text) : Text :=
  (run (fun t =>
    match t with
    | c :: rest => if isSpace c then some ([], rest) else (lineEnd? t).map fun rest => ([], rest)
    | [] => none) t).2

/-- A backslash at the end of a line, which leaves out the white space up to the next character. -/
def continuation? : Text → Option (Text × Text)
  | '\\' :: rest => (lineEnd? (skipSpaces rest)).map fun rest => ([], skipLines rest)
  | _ => none

/-- A quote that does not start the closing quotes. -/
def innerQuote? (quote : Char) (t : Text) : Option (Text × Text) :=
  if (Text.after? [quote, quote, quote] t).isSome then none
  else (Text.after? [quote] t).map fun rest => ([quote], rest)

/-- The closing quotes, before which up to two quotes belong to the string. -/
def closing? (quote : Char) (t : Text) : Option (Text × Text) :=
  let quotes := ((t.takeWhile (· == quote)).take 5).length
  if quotes < 3 then none else some (List.replicate (quotes - 3) quote, t.drop quotes)

/-- The rest of a string of one line, the opening quote being read. -/
def lineString? (quote : Char) (piece : Text → Option (Text × Text)) (t : Text) : Option (Text × Text) :=
  let (found, rest) := run piece t
  (Text.after? [quote] rest).map fun rest => (found, rest)

/-- The rest of a string over several lines, the opening quotes being read; a line end right after them
does not count. -/
def blockString? (quote : Char) (piece : Text → Option (Text × Text)) (t : Text) : Option (Text × Text) := do
  let (found, rest) := run (fun t => innerQuote? quote t <|> linePiece? t <|> piece t) ((lineEnd? t).getD t)
  let (quotes, rest) ← closing? quote rest
  return (found ++ quotes, rest)

/-- A string of one line. -/
def quoted? : Text → Option (Text × Text)
  | '"' :: rest => lineString? '"' escapedPiece? rest
  | '\'' :: rest => lineString? '\'' rawPiece? rest
  | _ => none

/-- A string. -/
def string? : Text → Option (Text × Text)
  | '"' :: '"' :: '"' :: rest => blockString? '"' (fun t => continuation? t <|> escapedPiece? t) rest
  | '\'' :: '\'' :: '\'' :: rest => blockString? '\'' rawPiece? rest
  | t => quoted? t

/-- A value. -/
def value? (t : Text) : Option (Value × Text) :=
  (string? t).map (fun (found, rest) => (.string found, rest))
    <|> (Text.after? "true" t).map (fun rest => (.boolean true, rest))
    <|> (Text.after? "false" t).map (fun rest => (.boolean false, rest))

/-- The character may stand in a key without quotes. -/
def isKeyChar (c : Char) : Bool := c.isAlphanum || c == '_' || c == '-'

/-- A key. -/
def key? (t : Text) : Option (Text × Text) :=
  match t.takeWhile isKeyChar with
  | [] => quoted? t
  | key => some (key, t.dropWhile isKeyChar)

/-- The text after a comment, if one stands here. -/
def skipComment : Text → Text
  | '#' :: rest => rest.dropWhile isPlain
  | t => t

/-- What is left at the end of a line: blanks, a comment, and the line end or the end of the document. -/
def finishLine? (t : Text) : Option Text :=
  match skipComment (skipSpaces t) with
  | [] => some []
  | rest => lineEnd? rest

/-- A key with its value. -/
def pair? (t : Text) : Option ((Text × Value) × Text) := do
  let (key, rest) ← key? t
  let rest ← Text.after? "=" (skipSpaces rest)
  let (value, rest) ← value? (skipSpaces rest)
  return ((key, value), rest)

/-- The pairs of the first `n` lines, if the document has no more and each is well formed. -/
def lines? : Nat → Text → Option (List (Text × Value))
  | _, [] => some []
  | 0, _ :: _ => none
  | n + 1, t =>
    match finishLine? t with
    | some rest => lines? n rest
    | none => do
      let (pair, rest) ← pair? (skipSpaces t)
      let rest ← finishLine? rest
      return pair :: (← lines? n rest)

/-- The pairs of a document in order. A byte order mark before the first line does not count. -/
def parse? (t : Text) : Option (List (Text × Value)) :=
  let t := (Text.after? ['\uFEFF'] t).getD t
  lines? t.length t

end Document
end Settings
end QueryCode
