import QueryCode.Naming.Identifier
import QueryCode.Statement.Basic
import QueryCode.Text.Scan

/-!
# Patterns of clauses

What the clauses of a statement look like, word by word. The patterns run over the masked statement, so the
words that start and end a clause are never those inside literals or parentheses.
-/

namespace QueryCode
set_option autoImplicit false

namespace Pattern

open Text Text.Scan

/-- The character can start the name of a table or an alias: a letter `a` to `z` in any case, or an
underscore. -/
def isHead (c : Char) : Bool := isAsciiLetter (fold c) || c == '_'

/-- The name of a table or an alias. -/
def name : Scan Text := do
  let c ← one isHead
  return c :: (← run isWord)

/-- An optional backtick. -/
def tick : Scan Unit := do discard (opt (char '\x60'))

/-- The place of the cursor. -/
def here : Scan Cursor := fun cur => some (cur, cur)

/-- A schema in front of a name, with its point. -/
def schema : Scan Unit := do
  tick
  discard (run1 isWord)
  tick
  discard (char '.')

/-- A name in optional backticks, and the place right after its letters. -/
def tickedName : Scan (Text × Cursor) := do
  tick
  let found ← name
  let stop ← here
  tick
  return (found, stop)

/-- The name of a table, after its schema if there is one. -/
def tableName : Scan (Text × Cursor) := (do schema; tickedName) <|> tickedName

/-- Words that can follow the name of a table without being its alias. -/
def reserved : List String := [
  "where", "join", "inner", "left", "right", "full", "cross", "outer", "natural", "on", "using", "group",
  "order", "having", "limit", "offset", "set", "values", "union", "returning", "select", "from"]

/-- The word after a table, with or without `AS`, and the place after it. -/
def nextName : Scan (Text × Cursor) := do
  blanks1
  (do discard (letters "as"); blanks1; bare) <|> bare
where
  /-- The word itself. -/
  bare : Scan (Text × Cursor) := do return (← name, ← here)

/-- A table with the word that follows it. -/
structure TableMatch where
  name : Text
  /-- The place right after the letters of the name. -/
  stop : Cursor
  /-- The word after the table and the place right after it. -/
  next : Option (Text × Cursor)

namespace TableMatch

/-- The word after the table, unless it is reserved. -/
def alias? (m : TableMatch) : Option (Text × Cursor) :=
  m.next.filter fun (word, _) => !reserved.any (sameWord ·.toList word)

/-- The table with its alias. -/
def table (m : TableMatch) : Table := ⟨m.name, m.alias?.map Prod.fst⟩

/-- The place after the alias, or else after the name. -/
def finish (m : TableMatch) : Cursor :=
  match m.alias? with
  | some (_, stop) => stop
  | none => m.stop

end TableMatch

/-- A table and the word after it. -/
def tableMatch : Scan TableMatch := do
  let (found, stop) ← tableName
  let next ← opt nextName
  return ⟨found, stop, next⟩

/-- Two words with white space between them. -/
def phrase (v w : Text) : Scan Unit := do
  edge
  discard (letters v)
  blanks1
  discard (letters w)
  edge

/-- A semicolon. -/
def semicolon : Scan Unit := do discard (char ';')

/-- The keyword that starts a statement, as written. -/
def statement : Scan Text := do
  blanks
  let found ← first [letters "select", letters "insert", letters "update", letters "delete"]
  edge
  return found

/-- The start of a select list; the value tells whether it is `DISTINCT`. -/
def selectList : Scan Bool := do
  blanks
  discard (letters "select")
  blanks1
  let distinct ← opt (do discard (letters "distinct"); blanks1)
  return distinct.isSome

/-- `FROM` and a table. -/
def fromTable : Scan TableMatch := do
  edge
  discard (letters "from")
  blanks1
  tableMatch

/-- `INTO` and the name of a table. -/
def intoTable : Scan Text := do
  edge
  discard (letters "into")
  blanks1
  return (← tableName).1

/-- `UPDATE` and a table, at the start of the statement. -/
def updateTable : Scan TableMatch := do
  blanks
  discard (letters "update")
  blanks1
  tableMatch

/-- The kind of a join from the word in front of `JOIN`. -/
def joinKind (side : Text) (sided : Bool) : JoinKind :=
  if sided then
    if sameWord side "left" then .left else if sameWord side "right" then .right else .full
  else if sameWord side "inner" then .inner else .cross

/-- The words of a join: its kind, and whether `OUTER` is among them. -/
def joinWords : Scan (JoinKind × Bool) :=
  (do
    let side ← first [letters "inner", letters "cross"]
    blanks1
    discard (letters "join")
    return (joinKind side false, false))
  <|> (do
    let side ← first [letters "left", letters "right", letters "full"]
    let outer ← opt (do blanks1; discard (letters "outer"))
    blanks1
    discard (letters "join")
    return (joinKind side true, outer.isSome))
  <|> (do
    discard (letters "join")
    return (.plain, false))

/-- A join as matched, without its condition. -/
structure JoinMatch where
  kind : JoinKind
  outer : Bool
  /-- The place after the word `JOIN`. -/
  wordsEnd : Cursor
  table : TableMatch

/-- A join and its table. -/
def join : Scan JoinMatch := do
  edge
  let (kind, outer) ← joinWords
  let wordsEnd ← here
  blanks1
  return ⟨kind, outer, wordsEnd, ← tableMatch⟩

/-- The word that starts a join condition. -/
def on : Scan Unit := do
  blanks1
  discard (letters "on")
  edge

/-- The words of the next join. -/
def nextJoin : Scan Unit := do
  edge
  (do
    discard (first [letters "inner", letters "cross", letters "left", letters "right", letters "full"])
    blanks1
    discard (opt (do discard (letters "outer"); blanks1))
    discard (letters "join"))
  <|> discard (letters "join")
  edge

/-- The end of a join condition. -/
def joinEnd : Scan Unit :=
  first [nextJoin, word "where", phrase "group" "by", phrase "order" "by", word "having", word "limit",
    semicolon]

/-- The end of a condition. -/
def whereEnd : Scan Unit :=
  first [phrase "group" "by", phrase "order" "by", word "having", word "limit", semicolon]

/-- The end of the grouping terms. -/
def groupEnd : Scan Unit := first [word "having", phrase "order" "by", word "limit", semicolon]

/-- The end of a condition on groups. -/
def havingEnd : Scan Unit := first [phrase "order" "by", word "limit", semicolon]

/-- The end of the sort terms. -/
def orderEnd : Scan Unit := first [word "limit", word "offset", semicolon]

/-- The end of the assignments. -/
def setEnd : Scan Unit := first [word "where", semicolon]

/-- `LIMIT` with one or two counts and an optional `OFFSET`. -/
def limit : Scan (Text × Option Text × Option Text) := do
  edge
  discard (letters "limit")
  blanks1
  let count ← run1 isDigit
  let second ← opt (do blanks; discard (char ','); blanks; run1 isDigit)
  let offset ← opt (do blanks1; discard (letters "offset"); blanks1; run1 isDigit)
  return (count, second, offset)

/-- `OFFSET` with its count. -/
def offset : Scan Text := do
  edge
  discard (letters "offset")
  blanks1
  run1 isDigit

/-- `VALUES` up to its opening parenthesis; the value is the place before the parenthesis. -/
def values : Scan Cursor := do
  edge
  discard (letters "values")
  blanks
  let stop ← here
  discard (char '(')
  return stop

/-- `INTO` and a table up to the opening parenthesis of its columns; the value is the place before it. -/
def insertColumns : Scan Cursor := do
  edge
  discard (letters "into")
  blanks1
  (do schema; tail) <|> tail
where
  /-- The table and the parenthesis. -/
  tail : Scan Cursor := do
    tick
    discard (run1 isWord)
    tick
    blanks
    let stop ← here
    discard (char '(')
    return stop

/-- `AS` and a name at the end of a select item. -/
def columnAlias : Scan Text := do
  blanks1
  discard (letters "as")
  blanks1
  discard (opt (one isAliasQuote))
  let found ← name
  discard (opt (one isAliasQuote))
  return found
where
  /-- A backtick or a double quote. -/
  isAliasQuote (c : Char) : Bool := c == '\x60' || c == '"'

/-- A name whose first character is a plain letter or an underscore. -/
def plainName : Scan Text := do
  let c ← one Naming.isPlainStart
  return c :: (← run isWord)

/-- A table and a column with a point between them; the column may be a star. -/
def qualified : Scan ColumnName := do
  tick
  let table ← plainName
  tick
  discard (char '.')
  tick
  let column ← plainName <|> (do return [← char '*'])
  tick
  return ⟨column, some table⟩

/-- What may follow a sort expression: its direction and the place of missing values. -/
def orderTail : Scan (Option Text) := do
  let direction ← opt (do blanks1; first [letters "asc", letters "desc"])
  discard (opt (do
    blanks1
    discard (letters "nulls")
    blanks1
    discard (first [letters "first", letters "last"])))
  return direction

end Pattern
end QueryCode
