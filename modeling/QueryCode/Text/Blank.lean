import QueryCode.Text.Range

/-!
# White space

The Unicode property White_Space, with trimming and splitting at it. `isGap` is the narrower set of
separators between the words of a condition.
-/

namespace QueryCode
set_option autoImplicit false

namespace Text

/-- The white-space code points in increasing order. -/
def blankRanges : List (Nat × Nat) := [
  (0x9, 0xD), (0x20, 0x20), (0x85, 0x85), (0xA0, 0xA0), (0x1680, 0x1680), (0x2000, 0x200A),
  (0x2028, 0x2029), (0x202F, 0x202F), (0x205F, 0x205F), (0x3000, 0x3000)]

/-- The character is white space. -/
def isBlank (c : Char) : Bool := inRanges blankRanges c.toNat

/-- Space, tab, carriage return and line feed. -/
def isGap (c : Char) : Bool := c == ' ' || c == '\t' || c == '\r' || c == '\n'

/-- The text without its leading white space. -/
def trimStart (t : List Char) : List Char := t.dropWhile isBlank

/-- The text without its trailing white space. -/
def trimEnd (t : List Char) : List Char := (t.reverse.dropWhile isBlank).reverse

/-- The text without the white space at its two ends. -/
def trim (t : List Char) : List Char := trimEnd (trimStart t)

/-- The maximal runs of characters that are not white space. -/
def words (t : List Char) : List (List Char) :=
  go t []
where
  /-- Collects `word` backwards until white space ends it. -/
  go : List Char → List Char → List (List Char)
    | [], word => if word.isEmpty then [] else [word.reverse]
    | c :: rest, word =>
      if isBlank c then
        if word.isEmpty then go rest [] else word.reverse :: go rest []
      else go rest (c :: word)

end Text
end QueryCode
