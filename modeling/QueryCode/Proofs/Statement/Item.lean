import QueryCode.Proofs.Statement.Clause

/-!
# Names, columns and sort terms

A plain name that is no keyword stands for a table, an alias or a column. The items of a select list, the grouping
terms and the sort terms are made of such names, and each of them is read back from its text.
-/

namespace QueryCode
set_option autoImplicit false

open Text Text.Scan Text.Cursor Pattern

namespace Statement

/-! ## Names -/

/-- The words of the clause patterns. -/
def keywords : List String := [
  "select", "insert", "update", "delete", "distinct", "from", "as", "into", "join", "inner", "cross", "left", "right",
  "full", "outer", "on", "where", "group", "by", "order", "having", "limit", "offset", "set", "values", "asc", "desc",
  "nulls", "first", "last"]

/-- A plain name that is none of these words, whatever its letter case. -/
def isFreeName (name : Text) : Bool := Naming.isIdentifier name && !keywords.any (sameWord ·.toList name)

section Name

variable {name : Text} (free : isFreeName name = true)
include free

theorem isIdentifier_of_isFreeName : Naming.isIdentifier name = true := (Bool.and_eq_true_iff.1 free).1

omit free in
theorem isPlain_class {p : Char → Bool}
    (check : (List.range 128).all (fun n => !Naming.isPlain (Char.ofNat n) || p (Char.ofNat n)) = true) {c : Char}
    (plain : Naming.isPlain c = true) : p c = true := by
  have small : c.toNat < 128 := by
    simp only [Naming.isPlain, Naming.isPlainStart, isAsciiLetter, isAsciiDigit, Bool.or_eq_true, Bool.and_eq_true,
      decide_eq_true_eq, beq_iff_eq, Char.le_def, UInt32.le_iff_toNat_le] at plain
    have code : c.val.toNat = c.toNat := rfl
    rcases plain with ((lower | upper) | rfl) | digit
    · have high : c.val.toNat ≤ 122 := lower.2
      omega
    · have high : c.val.toNat ≤ 90 := upper.2
      omega
    · decide
    · have high : c.val.toNat ≤ 57 := digit.2
      omega
  have held := forall_ascii (p := fun c => !Naming.isPlain c || p c) check small
  simpa [plain] using held

theorem isPlain_of_isFreeName : ∀ c ∈ name, Naming.isPlain c = true := by
  have named := isIdentifier_of_isFreeName free
  cases name with
  | nil => cases named
  | cons c rest =>
    rw [Naming.isIdentifier, Bool.and_eq_true, List.all_eq_true] at named
    intro d mem
    rcases List.mem_cons.1 mem with rfl | later
    · rw [Naming.isPlain, named.1, Bool.true_or]
    · exact named.2 d later

theorem isWord_of_isFreeName : ∀ c ∈ name, isWord c = true := by
  intro c mem
  exact isPlain_class (by decide) (isPlain_of_isFreeName free c mem)

theorem ne_nil_of_isFreeName : name ≠ [] := by
  rintro rfl
  cases free

theorem isAscii_of_isFreeName : isAscii name = true := by
  rw [isAscii, List.all_eq_true]
  intro c mem
  exact isPlain_class (p := fun c => decide (c.toNat < 128)) (by decide) (isPlain_of_isFreeName free c mem)

theorem isTableWord_of_isFreeName : isTableWord name = true := by
  have named := isIdentifier_of_isFreeName free
  rw [isTableWord, Bool.and_eq_true, List.all_eq_true]
  refine ⟨?_, isWord_of_isFreeName free⟩
  cases name with
  | nil => cases named
  | cons c rest =>
    rw [Naming.isIdentifier, Bool.and_eq_true] at named
    have held : (!Naming.isPlainStart c || isHead c) = true :=
      isPlain_class (p := fun c => !Naming.isPlainStart c || isHead c) (by decide)
        (isPlain_of_isFreeName free c List.mem_cons_self)
    simpa [named.1] using held

/-- A free name is no keyword, in the letters of any script. -/
theorem sameFold_of_isFreeName {w : String} (listed : w ∈ keywords) : sameFold w.toList name = false := by
  have ascii : ∀ w ∈ keywords, isAscii w.toList = true := by decide
  rw [sameFold_ascii (ascii w listed) (isAscii_of_isFreeName free)]
  rw [isFreeName, Bool.and_eq_true, Bool.not_eq_true', List.any_eq_false] at free
  simpa using free.2 w listed

/-- A free name starts no clause. -/
theorem not_begins_of_isFreeName {k : Key} (mem : k ∈ clauseKeys) : ¬ k.Begins name := by
  have known : ∀ k ∈ clauseKeys, ∀ w ∈ k.first?, w ∈ keywords.map String.toList := by decide
  refine Key.not_begins_of_word (isWord_of_isFreeName free) ?_
  intro w first
  obtain ⟨keyword, listed, rfl⟩ := List.mem_map.1 (known k mem w first)
  exact sameFold_of_isFreeName free listed

theorem isSolid_of_isFreeName : IsSolid name :=
  isSolid_of_class (ne_nil_of_isFreeName free) fun c mem => not_isBlank_of_isWord (isWord_of_isFreeName free c mem)

theorem not_mem_of_isFreeName {c : Char} (other : Naming.isPlain c = false) : c ∉ name := by
  intro mem
  rw [isPlain_of_isFreeName free c mem] at other
  cases other

theorem not_hasWord_of_isFreeName {w : String} (listed : w ∈ keywords) : ¬ HasWord w.toList name := by
  intro has
  have same := has.sameFold (isWord_of_isFreeName free)
  rw [sameFold_of_isFreeName free listed] at same
  cases same

end Name

section Quoted

variable {name : Text} (ticked : Bool)

theorem plain_tickText (plain : Plain name) : Plain (tickText ticked name) := by
  cases ticked with
  | false => exact plain
  | true => exact plain_cons.2 ⟨by decide, plain_append.2 ⟨plain, by decide⟩⟩

theorem isSolid_tickText (solid : IsSolid name) : IsSolid (tickText ticked name) := by
  cases ticked with
  | false => exact solid
  | true =>
    have mark : IsSolid ['\x60'] := ⟨by simp, by decide, by decide⟩
    exact mark.append mark name

/-- Backticks show no keyword. -/
theorem not_begins_tickText {k : Key} (lower : k.isLower = true) (absent : ¬ k.Begins name) :
    ¬ k.Begins (tickText ticked name) := by
  cases ticked with
  | false => exact absent
  | true =>
    have mark : ¬ k.Begins ['\x60'] := Key.not_begins_of_edges lower (by decide) (by decide)
    intro has
    rcases Key.begins_append (u := ['\x60']) lower (.inl (by decide)) has with first | has
    · exact mark first
    · rcases Key.begins_append lower (.inr (by decide)) has with inner | last
      · exact absent inner
      · exact mark last

end Quoted

/-- The name as it is written: it is free, and may stand in backticks. -/
structure IsSpelled (name x : Text) : Prop where
  free : isFreeName name = true
  marks : ∃ ticked, x = tickText ticked name

theorem isSpelled_of_isFreeName {name : Text} (free : isFreeName name = true) : IsSpelled name name := ⟨free, false, rfl⟩

namespace IsSpelled

variable {name x : Text} (spelled : IsSpelled name x)
include spelled

theorem plain : Plain x := by
  obtain ⟨ticked, rfl⟩ := spelled.marks
  exact plain_tickText ticked (plain_of_class (by decide) (isWord_of_isFreeName spelled.free))

theorem not_begins {k : Key} (mem : k ∈ clauseKeys) : ¬ k.Begins x := by
  obtain ⟨ticked, rfl⟩ := spelled.marks
  exact not_begins_tickText ticked (isLower_clauseKeys k mem) (not_begins_of_isFreeName spelled.free mem)

theorem not_hasWord {w : String} (listed : w ∈ keywords) : ¬ HasWord w.toList x := by
  have lower : ∀ w ∈ keywords, isLowerWord w.toList = true := by decide
  obtain ⟨ticked, rfl⟩ := spelled.marks
  exact not_begins_tickText (k := .word w.toList) ticked (lower w listed) (not_hasWord_of_isFreeName spelled.free listed)

end IsSpelled

/-! ## Columns -/

/-- A free name, with or without another one as its table. -/
def isColumnName (c : ColumnName) : Bool := isFreeName c.name && c.table.all isFreeName

/-- The star or a column. -/
def isColumn (c : ColumnName) : Bool := c == ⟨"*".toList, none⟩ || isColumnName c

theorem plainName_between {before name rest : Text} (free : isFreeName name = true)
    (ends : rest.head?.any isWord = false) :
    plainName (between before (name ++ rest)) = some (name, between (before ++ name) rest) := by
  have named := isIdentifier_of_isFreeName free
  have words := isWord_of_isFreeName free
  cases name with
  | nil => cases named
  | cons c tail =>
    rw [Naming.isIdentifier, Bool.and_eq_true] at named
    have first : one Naming.isPlainStart (between before (c :: tail ++ rest)) =
        some (c, between (before ++ [c]) (tail ++ rest)) := one_some.2 ⟨tail ++ rest, rfl, named.1, rfl⟩
    have others : run isWord (between (before ++ [c]) (tail ++ rest)) =
        some (tail, between (before ++ [c] ++ tail) rest) :=
      run_some.2 ⟨rest, rfl, fun d mem => words d (List.mem_cons_of_mem c mem), ends, rfl⟩
    rw [List.append_assoc] at others
    exact (bind_of_some first).trans (bind_of_some others)

theorem char_between (c : Char) (before rest : Text) :
    (discard (char c) : Scan Unit) (between before (c :: rest)) = some ((), between (before ++ [c]) rest) :=
  discard_of_some (one_some.2 ⟨rest, rfl, beq_self_eq_true c, rfl⟩)

theorem tick_of_isFreeName {before rest name : Text} (free : isFreeName name = true) :
    tick (between before (name ++ rest)) = some ((), between before (name ++ rest)) :=
  tick_of_isTableWord (isTableWord_of_isFreeName free)

section Qualified

variable {table name rest : Text} (spaced : Spaced rest)
include spaced

/-- A table and a column are read up to the end or a space. -/
theorem qualified_between (first : isFreeName table = true) (second : isFreeName name = true) :
    Pattern.qualified (between [] (table ++ '.' :: (name ++ rest))) =
      some (⟨name, some table⟩, between (table ++ '.' :: name) rest) := by
  have point : isWord '.' = false := by decide
  have left : plainName (between [] (table ++ '.' :: (name ++ rest))) = some (table, between table ('.' :: (name ++ rest))) :=
    plainName_between first (by simpa using point)
  have after : tick (between table ('.' :: (name ++ rest))) = some ((), between table ('.' :: (name ++ rest))) :=
    tick_of_head (by simp)
  have right : plainName (between (table ++ ['.']) (name ++ rest)) = some (name, between (table ++ ['.'] ++ name) rest) :=
    plainName_between second spaced.edge
  have column : (plainName <|> (do return [← char '*']) : Scan Text) (between (table ++ ['.']) (name ++ rest)) =
      some (name, between (table ++ ['.'] ++ name) rest) := by
    rw [orElse_apply, right]
  have whole : table ++ ['.'] ++ name = table ++ '.' :: name := by simp
  rw [← whole]
  refine (bind_of_some (tick_of_isFreeName first)).trans ((bind_of_some left).trans ((bind_of_some after).trans ?_))
  refine (bind_of_some (char_between '.' table (name ++ rest))).trans ((bind_of_some (tick_of_isFreeName second)).trans ?_)
  exact (bind_of_some column).trans (bind_of_some (tick_of_head (spaced.head_ne (by decide))))

theorem whole_unqualified (free : isFreeName name = true) : whole? Pattern.qualified (name ++ rest) = none := by
  have left : plainName (between [] (name ++ rest)) = some (name, between name rest) := plainName_between free spaced.edge
  have point : char '.' (between name rest) = none := char_of_head (spaced.head_ne (by decide))
  apply whole_none
  refine (bind_of_some (tick_of_isFreeName free)).trans ((bind_of_some left).trans ?_)
  exact (bind_of_some (tick_of_head (spaced.head_ne (by decide)))).trans (bind_of_none (discard_none point))

end Qualified

theorem stripBackticks_eq_self {t : Text} (absent : '\x60' ∉ t) : stripBackticks t = t := by
  have same (u : Text) (absent : '\x60' ∉ u) : u.dropWhile (· == '\x60') = u := by
    cases u with
    | nil => rfl
    | cons c u =>
      apply List.dropWhile_cons_of_neg
      rw [beq_iff_eq]
      rintro rfl
      exact absent List.mem_cons_self
  rw [stripBackticks, same t absent, same t.reverse (by simpa using absent), List.reverse_reverse]

theorem qualified_eq {table name : Text} : ColumnName.qualified ⟨name, some table⟩ = table ++ '.' :: name := by
  simp [ColumnName.qualified]

/-- **A column is read back from its name.** -/
theorem columnName_qualified {c : ColumnName} (column : isColumn c = true) : columnName c.qualified = c := by
  rw [isColumn, Bool.or_eq_true, beq_iff_eq] at column
  rcases column with rfl | free
  · decide
  · obtain ⟨name, table⟩ := c
    rw [isColumnName, Bool.and_eq_true] at free
    cases table with
    | none =>
      have missed : whole? Pattern.qualified (name ++ []) = none := whole_unqualified (.inl rfl) free.1
      rw [List.append_nil] at missed
      change columnName name = _
      rw [columnName, missed, stripBackticks_eq_self (not_mem_of_isFreeName free.1 (by decide))]
    | some table =>
      have first : isFreeName table = true := by simpa using free.2
      have found := qualified_between (.inl rfl) first free.1
      rw [List.append_nil] at found
      rw [qualified_eq, columnName, whole_some found]

/-- A column with more words behind it is an expression. -/
theorem columnName_spaced {c : ColumnName} (column : isColumnName c = true) {more : Text} (absent : '\x60' ∉ more) :
    columnName (c.qualified ++ ' ' :: more) = ⟨c.qualified ++ ' ' :: more, none⟩ := by
  obtain ⟨name, table⟩ := c
  rw [isColumnName, Bool.and_eq_true] at column
  have spaced : Spaced (' ' :: more) := .inr ⟨more, rfl⟩
  have bare {name : Text} (free : isFreeName name = true) : '\x60' ∉ name := not_mem_of_isFreeName free (by decide)
  cases table with
  | none =>
    have text : '\x60' ∉ name ++ ' ' :: more := by simp [bare column.1, absent]
    change columnName (name ++ ' ' :: more) = ⟨name ++ ' ' :: more, none⟩
    rw [columnName, whole_unqualified spaced column.1, stripBackticks_eq_self text]
  | some table =>
    have first : isFreeName table = true := by simpa using column.2
    have text : '\x60' ∉ table ++ '.' :: (name ++ ' ' :: more) := by simp [bare first, bare column.1, absent]
    have found := qualified_between spaced first column.1
    have missed := whole_none_of_rest found (by simp)
    rw [qualified_eq, List.append_assoc, List.cons_append, columnName, missed, stripBackticks_eq_self text]

/-- The characters of the items of a list: those of words, the point, the star and the space. -/
def isItemChar (c : Char) : Bool := isWord c || c == '.' || c == '*' || c == ' '

/-- The text of an item is made of these characters, has no white space at its ends and starts no clause. -/
structure IsWrittenItem (t : Text) : Prop where
  solid : IsSolid t
  chars : t.all isItemChar = true
  silent : ∀ k ∈ clauseKeys, ¬ k.Begins t

theorem isWrittenItem_of_isFreeName {name : Text} (free : isFreeName name = true) : IsWrittenItem name where
  solid := isSolid_of_isFreeName free
  chars := by
    rw [List.all_eq_true]
    intro c mem
    rw [isItemChar, isWord_of_isFreeName free c mem]
    rfl
  silent _ mem := not_begins_of_isFreeName free mem

/-- Items with something between them that is no part of a word make up an item. -/
theorem IsWrittenItem.append {u w : Text} (first : IsWrittenItem u) (last : IsWrittenItem w) {v : Text}
    (apart : v.head?.any isWord = false) (apart' : v.getLast?.any isWord = false) (filled : v ≠ [])
    (chars : v.all isItemChar = true) (silent : ∀ k ∈ clauseKeys, k.begins v = false) :
    IsWrittenItem (u ++ (v ++ w)) where
  solid := first.solid.append last.solid v
  chars := by rw [List.all_append, List.all_append, first.chars, chars, last.chars, Bool.and_true, Bool.and_true]
  silent := by
    intro k mem has
    have lower := isLower_clauseKeys k mem
    have parted : Parted u (v ++ w) := by
      right
      obtain ⟨c, more, rfl⟩ := List.exists_cons_of_ne_nil filled
      exact apart
    rcases Key.begins_append lower parted has with left | has
    · exact first.silent k mem left
    · rcases Key.begins_append lower (.inl apart') has with middle | right
      · rw [← Key.begins_iff lower, silent k mem] at middle
        cases middle
      · exact last.silent k mem right

theorem isWrittenItem_star : IsWrittenItem "*".toList where
  solid := ⟨by decide, by decide, by decide⟩
  chars := by decide
  silent := by
    intro k mem
    rw [← Key.begins_iff (isLower_clauseKeys k mem)]
    revert k mem
    decide

theorem isWrittenItem_qualified {c : ColumnName} (column : isColumn c = true) : IsWrittenItem c.qualified := by
  rw [isColumn, Bool.or_eq_true, beq_iff_eq] at column
  rcases column with rfl | free
  · exact isWrittenItem_star
  · obtain ⟨name, table⟩ := c
    rw [isColumnName, Bool.and_eq_true] at free
    cases table with
    | none => exact isWrittenItem_of_isFreeName free.1
    | some table =>
      have first : isFreeName table = true := by simpa using free.2
      rw [qualified_eq]
      exact (isWrittenItem_of_isFreeName first).append (v := ['.']) (isWrittenItem_of_isFreeName free.1) (by decide)
        (by decide) (by simp) (by decide) (by decide)

theorem IsWrittenItem.plain {t : Text} (item : IsWrittenItem t) : Plain t := plain_of_class (by decide) (List.all_eq_true.1 item.chars)

theorem IsWrittenItem.isItem {t : Text} (item : IsWrittenItem t) : IsItem t where
  filled := item.solid.filled
  trimmed := item.solid.trim
  closed := item.plain.isClosed
  whole := by
    rw [item.plain.mask]
    intro mem
    exact absurd (List.all_eq_true.1 item.chars _ mem) (by decide)

/-! ## Select items and sort terms -/

/-- An item of a select list. -/
def columnText (c : Column) : Text :=
  match c.alias? with
  | some given => c.qualified ++ (" AS ".toList ++ given)
  | none => c.qualified

/-- The item is the star or a column, with or without a free name as its alias. -/
def isSelectItem (c : Column) : Bool := isColumn c.toColumnName && c.alias?.all isFreeName

theorem not_isBlank_qualified {c : ColumnName} (column : isColumn c = true) : ∀ d ∈ c.qualified, isBlank d = false := by
  rw [isColumn, Bool.or_eq_true, beq_iff_eq] at column
  rcases column with rfl | free
  · exact List.forall_mem_singleton.2 (by decide)
  · obtain ⟨name, table⟩ := c
    rw [isColumnName, Bool.and_eq_true] at free
    have words {t : Text} (free : isFreeName t = true) : ∀ d ∈ t, isBlank d = false := by
      intro d mem
      exact not_isBlank_of_isWord (isWord_of_isFreeName free d mem)
    cases table with
    | none => exact words free.1
    | some table =>
      rw [qualified_eq]
      intro d mem
      rcases List.mem_append.1 mem with left | mem
      · exact words (by simpa using free.2) d left
      · rcases List.mem_cons.1 mem with rfl | right
        · decide
        · exact words free.1 d right

theorem blanks1_none {before rest : Text} {c : Char} (solid : isBlank c = false) :
    blanks1 (between before (c :: rest)) = none := by
  by_contra fits
  rw [← ne_eq, Option.ne_none_iff_isSome] at fits
  obtain ⟨⟨u, stop⟩, found⟩ := Option.isSome_iff_exists.1 fits
  obtain ⟨gap, after, split, filled, white, _⟩ := blanks1_some.1 found
  obtain ⟨d, more, rfl⟩ := List.exists_cons_of_ne_nil filled
  cases split
  rw [white c List.mem_cons_self] at solid
  cases solid

theorem whole_columnAlias {given : Text} (free : isFreeName given = true) :
    whole? columnAlias (" AS ".toList ++ given) = some given := by
  have gap : blanks1 (between [] (' ' :: ("AS".toList ++ ' ' :: given))) =
      some ((), between [' '] ("AS".toList ++ ' ' :: given)) := blanks1_space (by rfl)
  have word : (discard (letters "as") : Scan Unit) (between [' '] ("AS".toList ++ ' ' :: given)) =
      some ((), between ([' '] ++ "AS".toList) (' ' :: given)) :=
    letters_between (by decide : sameFold "as".toList "AS".toList = true)
  have gap' : blanks1 (between ([' '] ++ "AS".toList) (' ' :: given)) =
      some ((), between ([' '] ++ "AS".toList ++ [' ']) given) := blanks1_space (isSolid_of_isFreeName free).first
  -- neither the name nor the end of the text is a quote
  have opening (before : Text) : opt (one columnAlias.isAliasQuote) (between before given) =
      some (none, between before given) := by
    refine opt_some.2 (.inl ⟨rfl, rfl, ?_⟩)
    by_contra fits
    rw [← ne_eq, Option.ne_none_iff_isSome] at fits
    obtain ⟨⟨c, stop⟩, found⟩ := Option.isSome_iff_exists.1 fits
    obtain ⟨after, rfl, quote, _⟩ := one_some.1 found
    have other : (!columnAlias.isAliasQuote c) = true :=
      isPlain_class (p := fun c => !columnAlias.isAliasQuote c) (by decide)
        (isPlain_of_isFreeName free c List.mem_cons_self)
    rw [quote] at other
    cases other
  have closing (before : Text) : opt (one columnAlias.isAliasQuote) (between before []) = some (none, between before []) :=
    opt_some.2 (.inl ⟨rfl, rfl, rfl⟩)
  have named (before : Text) : name (between before (given ++ [])) = some (given, between (before ++ given) []) :=
    name_between (isTableWord_of_isFreeName free) rfl
  simp only [List.append_nil] at named
  have place : [' '] ++ "AS".toList ++ [' '] ++ given = " AS ".toList ++ given := rfl
  apply whole_some
  nth_rewrite 2 [← place]
  refine (bind_of_some gap).trans ((bind_of_some word).trans ((bind_of_some gap').trans ?_))
  refine (bind_of_some (discard_of_some (opening _))).trans ((bind_of_some (named _)).trans ?_)
  exact bind_of_some (discard_of_some (closing _))

/-- **An item of a select list is read back.** -/
theorem column_columnText {c : Column} (item : isSelectItem c = true) : column (columnText c) = c := by
  obtain ⟨name, alias?⟩ := c
  rw [isSelectItem, Bool.and_eq_true] at item
  have solid := (isWrittenItem_qualified item.1).solid
  have missed : ∀ d ∈ name.qualified, ∀ tail, whole? columnAlias (d :: tail) = none := by
    intro d mem tail
    exact whole_none (bind_of_none (blanks1_none (not_isBlank_qualified item.1 d mem)))
  cases alias? with
  | none =>
    have missing : shortest? columnAlias name.qualified = none := shortest_eq_none missed (whole_none rfl)
    change column name.qualified = _
    rw [column, missing]
    dsimp only
    rw [solid.trim, columnName_qualified item.1]
  | some given =>
    have found : shortest? columnAlias (name.qualified ++ (" AS ".toList ++ given)) = some (name.qualified, given) :=
      shortest_append solid.filled missed (whole_columnAlias (by simpa using item.2))
    change column (name.qualified ++ (" AS ".toList ++ given)) = _
    rw [column, found]
    dsimp only
    rw [solid.trim, columnName_qualified item.1]

theorem isWrittenItem_columnText {c : Column} (item : isSelectItem c = true) : IsWrittenItem (columnText c) := by
  obtain ⟨name, alias?⟩ := c
  rw [isSelectItem, Bool.and_eq_true] at item
  have front := isWrittenItem_qualified item.1
  cases alias? with
  | none => exact front
  | some given =>
    exact front.append (v := " AS ".toList) (isWrittenItem_of_isFreeName (by simpa using item.2)) (by decide)
      (by decide) (by decide) (by decide) (by decide)

/-- A sort term. -/
def orderText (o : OrderTerm) : Text := o.qualified ++ (" ".toList ++ o.direction.text)

theorem whole_orderTail (direction : Direction) :
    whole? orderTail (" ".toList ++ direction.text) = some (some direction.text) := by
  cases direction <;> decide

/-- **A sort term is read back.** -/
theorem orderTerm_orderText {o : OrderTerm} (column : isColumn o.toColumnName = true) :
    orderTerm? (orderText o) = some o := by
  obtain ⟨name, direction⟩ := o
  have solid := (isWrittenItem_qualified column).solid
  have missed : ∀ d ∈ name.qualified, ∀ tail, whole? orderTail (d :: tail) = none := by
    intro d mem tail
    have blank : blanks1 (between [] (d :: tail)) = none := blanks1_none (not_isBlank_qualified column d mem)
    have first : opt (do blanks1; Scan.first [letters "asc", letters "desc"] : Scan Text) (between [] (d :: tail)) =
        some (none, between [] (d :: tail)) := opt_some.2 (.inl ⟨rfl, rfl, bind_of_none blank⟩)
    have second : opt (do
        blanks1
        discard (letters "nulls")
        blanks1
        discard (Scan.first [letters "first", letters "last"]) : Scan Unit) (between [] (d :: tail)) =
          some (none, between [] (d :: tail)) := opt_some.2 (.inl ⟨rfl, rfl, bind_of_none blank⟩)
    have read : orderTail (between [] (d :: tail)) = some (none, between [] (d :: tail)) :=
      (bind_of_some first).trans (bind_of_some (discard_of_some second))
    exact whole_none_of_rest read (by simp)
  have found : shortest? orderTail (name.qualified ++ (" ".toList ++ direction.text)) =
      some (name.qualified, some direction.text) := shortest_append solid.filled missed (whole_orderTail direction)
  have turned : (if (some direction.text).any (sameWord · "desc") then Direction.desc else Direction.asc) = direction := by
    cases direction <;> decide
  change orderTerm? (name.qualified ++ (" ".toList ++ direction.text)) = _
  rw [orderTerm?, found, Option.map_some]
  dsimp only
  rw [solid.trim, columnName_qualified column, turned]

theorem isWrittenItem_orderText {o : OrderTerm} (column : isColumn o.toColumnName = true) :
    IsWrittenItem (orderText o) := by
  obtain ⟨name, direction⟩ := o
  have word : IsWrittenItem direction.text := by
    have lower : ∀ k ∈ clauseKeys, k.begins direction.text = false := by cases direction <;> decide
    refine ⟨?_, ?_, ?_⟩
    · cases direction <;> exact ⟨by decide, by decide, by decide⟩
    · cases direction <;> decide
    · intro k mem
      rw [← Key.begins_iff (isLower_clauseKeys k mem), lower k mem]
      exact Bool.false_ne_true
  exact (isWrittenItem_qualified column).append (v := " ".toList) word (by decide) (by decide) (by decide)
    (by decide) (by decide)

end Statement
end QueryCode
