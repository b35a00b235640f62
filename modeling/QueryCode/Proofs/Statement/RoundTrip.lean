import QueryCode.Proofs.Statement.Joins

/-!
# Selections are read back

What is left are the table after `FROM`, the select list in front of it, and the statement as a whole. Then every clause
is read back from its own place, whatever the others are: `parse_selectText`. A word after a table is its alias unless
it is reserved, so the reserved words that start no clause cannot be aliases either: `parse_reserved_alias`.
-/

namespace QueryCode
set_option autoImplicit false

open Text Text.Scan Text.Cursor Pattern

namespace Statement

/-! ## The table -/

theorem Clauses.endsTable {c : Clauses} (ends : EndsTable (mask .nested c.tail)) : EndsTable (mask .nested c.text) := by
  have ordered : EndsTable (mask .nested c.fromOrder) := endsTable_clauseText (by decide) (by decide) ends
  have chosen : EndsTable (mask .nested c.fromHaving) := endsTable_clauseText (by decide) (by decide) ordered
  have grouped : EndsTable (mask .nested c.fromGroup) := endsTable_clauseText (by decide) (by decide) chosen
  exact endsTable_clauseText (by decide) (by decide) grouped

/-- **The table of a statement is read back with its alias.** -/
theorem read_main {table : Table} {u t : Text} {own : List Key} (ticked : Bool) (written : IsTable table)
    (before : IsQuiet own u) (others : .word "from" ∉ own) (ends : EndsTable (mask .nested t)) :
    (Source.ofText (u ++ (clauseText "FROM" (tableText (spelledTable ticked table)) ++ t))).main? = some table := by
  have label := isLabel_table ticked written
  obtain ⟨name, alias?⟩ := table
  have named := isTableWord_of_isFreeName written.name
  have aliased : ∀ given ∈ alias?, isAlias given = true := by
    intro given mem
    exact isAlias_of_isFreeAlias (written.given given mem)
  have text : clauseText "FROM" (tableText (spelledTable ticked ⟨name, alias?⟩)) ++ t =
      ' ' :: ("FROM".toList ++ ' ' :: (tickText ticked name ++ (aliasText alias? ++ t))) := by
    rw [clauseText_of_ne_nil label.solid.filled]
    simp [tableText, spelledTable]
  have plain : Plain ("FROM".toList ++ ' ' :: (tickText ticked name ++ aliasText alias?)) :=
    plain_append.2 ⟨by decide, plain_cons.2 ⟨by decide, label.plain⟩⟩
  have shown : mask .nested ("FROM".toList ++ ' ' :: (tickText ticked name ++ (aliasText alias? ++ t))) =
      "FROM".toList ++ ' ' :: (tickText ticked name ++ (aliasText alias? ++ mask .nested t)) := by
    have masked := mask_plain_append (v := t) .nested plain
    simpa using masked
  have left : (mask .nested u ++ [' ']).getLast?.any isWord = false := by
    rw [List.getLast?_concat]
    exact not_isWord_of_isBlank (by decide)
  have lower : isLowerWord "from".toList = true := by decide
  have same : sameFold "from".toList "FROM".toList = true := by decide
  obtain ⟨m, spill, after, read, table, _⟩ := tableMatch_between ticked named aliased ends
  have fits := (keyword_space lower same left (not_isBlank_tickText ticked named _)).trans read
  have starts : Starts fromTable [.word "from"] := starts_of_opens opens_fromTable
  have known : ∀ k ∈ [Key.word "from"], k ∈ clauseKeys ∧ k ∉ own := by simpa [clauseKeys] using others
  have led : IsLed (' ' :: ("FROM".toList ++ ' ' :: (tickText ticked name ++ (aliasText alias? ++ t)))) :=
    isLed_of_isLeading (by decide : isLeading "FROM".toList = true) _
  have found := find_keyword starts known before led (by rw [shown]; exact fits)
  rw [text, Source.main?, found]
  exact congrArg some table

/-! ## The select list -/

/-- An item of a select list does not start with `DISTINCT`. -/
theorem distinct_none {c : Column} (item : isSelectItem c = true) {before rest : Text}
    (ends : rest.head?.any isWord = false) :
    (do discard (letters "distinct"); blanks1 : Scan Unit) (between before (columnText c ++ rest)) = none := by
  obtain ⟨⟨name, table⟩, alias?⟩ := c
  have other {word : Text} (free : isFreeName word = true) {after : Text} (ends : after.head?.any isWord = false) :
      (do discard (letters "distinct"); blanks1 : Scan Unit) (between before (word ++ after)) = none :=
    letters_blanks1_of_word (by decide) (isWord_of_isFreeName free) ends (sameFold_of_isFreeName free (by decide))
  -- the alias starts with a space
  obtain ⟨tail, text, ends⟩ : ∃ tail, columnText ⟨⟨name, table⟩, alias?⟩ ++ rest = ColumnName.qualified ⟨name, table⟩ ++ tail ∧
      tail.head?.any isWord = false := by
    cases alias? with
    | none => exact ⟨rest, rfl, ends⟩
    | some given =>
      refine ⟨" AS ".toList ++ given ++ rest, by simp [columnText], ?_⟩
      exact not_isWord_of_isBlank (by decide)
  rw [text]
  rw [isSelectItem, Bool.and_eq_true, isColumn, Bool.or_eq_true, beq_iff_eq] at item
  rcases item.1 with star | column
  · cases star
    have differs : (fold 'd' == fold '*') = false := by decide
    exact bind_of_none (discard_none (letters_of_head differs))
  · rw [isColumnName, Bool.and_eq_true] at column
    cases table with
    | none => exact other column.1 ends
    | some table =>
      have point : isWord '.' = false := by decide
      rw [qualified_eq, List.append_assoc]
      exact other (by simpa using column.2) (by simpa using point)

/-- The optional `DISTINCT` in front of the items. -/
theorem opt_distinct (distinct : Bool) {before items : Text} (solid : items.head?.any isBlank = false)
    (other : (do discard (letters "distinct"); blanks1 : Scan Unit) (between before items) = none) :
    opt (do discard (letters "distinct"); blanks1 : Scan Unit) (between before (distinctText distinct ++ items)) =
      some (if distinct then some () else none, between (before ++ distinctText distinct) items) := by
  cases distinct with
  | false =>
    apply opt_some.2
    refine .inl ⟨rfl, ?_, other⟩
    rw [show distinctText false = [] from rfl, List.append_nil]
    rfl
  | true =>
    have word : (discard (letters "distinct") : Scan Unit) (between before ("DISTINCT".toList ++ ' ' :: items)) =
        some ((), between (before ++ "DISTINCT".toList) (' ' :: items)) :=
      letters_between (by decide : sameFold "distinct".toList "DISTINCT".toList = true)
    have gap : blanks1 (between (before ++ "DISTINCT".toList) (' ' :: items)) =
        some ((), between (before ++ "DISTINCT".toList ++ [' ']) items) := blanks1_space solid
    apply opt_some.2
    refine .inr ⟨(), rfl, (bind_of_some word).trans ?_⟩
    rw [gap, List.append_assoc]
    rfl

theorem selectList_between (distinct : Bool) {items : Text} (solid : items.head?.any isBlank = false)
    (other : ∀ before, (do discard (letters "distinct"); blanks1 : Scan Unit) (between before items) = none) :
    selectList (between [] (selectWords distinct ++ items)) = some (distinct, between (selectWords distinct) items) := by
  have text : selectWords distinct ++ items = "SELECT".toList ++ ' ' :: (distinctText distinct ++ items) :=
    List.append_assoc _ _ _
  have first : (distinctText distinct ++ items).head?.any isBlank = false := by
    cases distinct with
    | true => rfl
    | false => exact solid
  have gap : blanks (between [] ("SELECT".toList ++ ' ' :: (distinctText distinct ++ items))) =
      some ((), between [] ("SELECT".toList ++ ' ' :: (distinctText distinct ++ items))) :=
    blanks_some.2 ⟨[], _, rfl, blank_nil, by rfl, rfl⟩
  have word : (discard (letters "select") : Scan Unit) (between [] ("SELECT".toList ++ ' ' :: (distinctText distinct ++ items))) =
      some ((), between "SELECT".toList (' ' :: (distinctText distinct ++ items))) :=
    letters_between (by decide : sameFold "select".toList "SELECT".toList = true)
  have gap' : blanks1 (between "SELECT".toList (' ' :: (distinctText distinct ++ items))) =
      some ((), between ("SELECT".toList ++ [' ']) (distinctText distinct ++ items)) := blanks1_space first
  have place : "SELECT".toList ++ [' '] ++ distinctText distinct = selectWords distinct := by
    rw [List.append_assoc]
    rfl
  have chosen := opt_distinct distinct solid (other ("SELECT".toList ++ [' ']))
  rw [place] at chosen
  rw [text]
  refine (bind_of_some gap).trans ((bind_of_some word).trans ((bind_of_some gap').trans ((bind_of_some chosen).trans ?_)))
  cases distinct <;> rfl

section SelectList

variable {s : Statement} (select : IsSelect s)
include select

theorem isWrittenItem_columns : ∀ t ∈ s.columns.map columnText, IsWrittenItem t := by
  intro t mem
  obtain ⟨c, listed, rfl⟩ := List.mem_map.1 mem
  exact isWrittenItem_columnText (select.columns.2 c listed)

omit select in
theorem plain_selectWords (distinct : Bool) : Plain (selectWords distinct) := by
  cases distinct <;> decide

/-- The select list shows no keyword of a clause. -/
theorem isQuiet_selectListText : IsQuiet [] (selectListText s) := by
  have items := isWrittenItem_columns select
  refine isQuiet_of_plain (plain_append.2 ⟨plain_selectWords _, plain_items items⟩) ?_
  intro k mem _ has
  have words : ∀ distinct, ∀ k ∈ clauseKeys, k.begins (selectWords distinct) = false := by decide
  have lower := isLower_clauseKeys k mem
  have parted : Parted (selectWords s.distinct) (Text.join ", " (s.columns.map columnText)) := by
    refine .inl ?_
    cases s.distinct <;> decide
  rcases Key.begins_append lower parted has with front | item
  · rw [← Key.begins_iff lower, words _ k mem] at front
    cases front
  · exact not_begins_items items mem item

/-- What stands behind the words of a selection starts neither with white space nor with `DISTINCT`. -/
theorem starts_columns (t : Text) :
    (mask .nested (Text.join ", " (s.columns.map columnText) ++ ' ' :: t)).head?.any isBlank = false ∧
      ∀ before, (do discard (letters "distinct"); blanks1 : Scan Unit)
        (between before (mask .nested (Text.join ", " (s.columns.map columnText) ++ ' ' :: t))) = none := by
  have items := isWrittenItem_columns select
  rw [mask_plain_append _ (plain_items items)]
  obtain ⟨filled, written⟩ := select.columns
  obtain ⟨c, cs, eq⟩ := List.exists_cons_of_ne_nil filled
  have space : Plain [' '] := by decide
  have shown : mask .nested (' ' :: t) = ' ' :: mask .nested t := mask_plain_append _ space
  obtain ⟨rest, text, ends⟩ : ∃ rest, Text.join ", " (s.columns.map columnText) ++ mask .nested (' ' :: t) =
      columnText c ++ rest ∧ rest.head?.any isWord = false := by
    rw [eq, shown]
    cases cs with
    | nil => exact ⟨' ' :: mask .nested t, by rw [List.map_singleton, join_singleton], not_isWord_of_isBlank (by decide)⟩
    | cons d cs =>
      refine ⟨", ".toList ++ Text.join ", " ((d :: cs).map columnText) ++ ' ' :: mask .nested t, ?_, ?_⟩
      · rw [List.map_cons, List.map_cons, join_cons_cons, ← List.map_cons]
        simp only [List.append_assoc]
      · exact (by decide : isWord ',' = false)
  have item := written c (by rw [eq]; exact List.mem_cons_self)
  rw [text]
  constructor
  · have solid := (isWrittenItem_columnText item).solid
    obtain ⟨d, more, word⟩ := List.exists_cons_of_ne_nil solid.filled
    have first := solid.first
    rw [word] at first ⊢
    exact first
  · intro before
    exact distinct_none item ends

/-- **The select list is read back.** -/
theorem read_columns (t : Text) :
    (Source.ofText (selectListText s ++ ' ' :: ("FROM".toList ++ ' ' :: t))).selectColumns =
      .ok (s.columns, s.distinct) := by
  have items := isWrittenItem_columns select
  have plain := plain_items items
  have lower : ∀ k ∈ [Key.word "from"], k.isLower = true := by decide
  have keys : ∀ k ∈ [Key.word "from"], k ∈ clauseKeys := by decide
  have meets : Meets (Scan.word "from") (' ' :: ("FROM".toList ++ ' ' :: t)) :=
    meets_keyword (by decide) (fun before rest left => (reads_word (by decide) (by decide)).isSome left rest) t
  have led : IsLed (' ' :: ("FROM".toList ++ ' ' :: t)) := isLed_of_isLeading (by decide : isLeading "FROM".toList = true) _
  have silent : ∀ k ∈ [Key.word "from"], k.Silent (mask .nested (Text.join ", " (s.columns.map columnText)))
      (mask .nested (' ' :: ("FROM".toList ++ ' ' :: t))) := by
    intro k mem
    have follows := led.follows follows_nil
    rw [List.append_nil] at follows
    rw [plain.mask]
    exact Key.silent_of_not_begins (lower k mem) (not_begins_items items (keys k mem)) (follows.parted _)
  obtain ⟨trail, blank, cut⟩ := slice_between (starts_word (by decide)) lower plain.isClosed (led.apart _) silent meets
    (selectWords s.distinct)
  rw [(plain_selectWords _).mask] at cut
  have split := splitTop_join blank_nil blank fun t mem => (items t mem).isItem
  rw [List.nil_append] at split
  have columns : (s.columns.map columnText).map column = s.columns := by
    rw [List.map_map]
    have all (c : Column) (mem : c ∈ s.columns) : (column ∘ columnText) c = c := column_columnText (select.columns.2 c mem)
    rw [List.map_congr_left all, List.map_id']
  have read : selectList (Cursor.start (Source.ofText (selectListText s ++ ' ' :: ("FROM".toList ++ ' ' :: t))).mask) =
      some (s.distinct, between (selectWords s.distinct)
        (mask .nested (Text.join ", " (s.columns.map columnText) ++ ' ' :: ("FROM".toList ++ ' ' :: t)))) := by
    have shown : mask .nested (selectListText s ++ ' ' :: ("FROM".toList ++ ' ' :: t)) = selectWords s.distinct ++
        mask .nested (Text.join ", " (s.columns.map columnText) ++ ' ' :: ("FROM".toList ++ ' ' :: t)) := by
      rw [selectListText, List.append_assoc, mask_plain_append _ (plain_selectWords _)]
    obtain ⟨solid, other⟩ := starts_columns select ("FROM".toList ++ ' ' :: t)
    have found := selectList_between s.distinct solid other
    rw [← shown] at found
    exact found
  have text : selectListText s ++ ' ' :: ("FROM".toList ++ ' ' :: t) =
      selectWords s.distinct ++ (Text.join ", " (s.columns.map columnText) ++ ' ' :: ("FROM".toList ++ ' ' :: t)) := by
    rw [selectListText, List.append_assoc]
  rw [Source.selectColumns, read]
  dsimp only
  rw [text, show ∀ u, (Source.ofText u).text = u from fun _ => rfl, cut]
  change (do return ((← splitTop ',' (Text.join ", " (s.columns.map columnText) ++ trail)).map column, s.distinct)) = _
  rw [split]
  exact congrArg (fun columns => Except.ok (columns, s.distinct)) columns

end SelectList

/-! ## The last character -/

theorem Clauses.last {c : Clauses} (written : c.IsWritten) : c.text.getLast?.any isBlank = false := by
  have condition := trim_of_isClauseText written.condition
  have groups := trim_of_isClauseText written.groups.joined
  have having := trim_of_isClauseText written.having
  have order := trim_of_isClauseText written.order.joined
  apply last_append (last_clauseText condition)
  apply last_append (last_clauseText groups)
  apply last_append (last_clauseText having)
  exact last_append (last_clauseText order) written.last

theorem isSolid_selectListText {s : Statement} (select : IsSelect s) : IsSolid (selectListText s) := by
  have items := isWrittenItem_columns select
  have filled : s.columns.map columnText ≠ [] := by simpa using select.columns.1
  have last := isSolid_join filled (fun t mem => (items t mem).solid) ", ".toList
  have first : IsSolid "SELECT".toList := ⟨by decide, by decide, by decide⟩
  have solid := first.append last (' ' :: distinctText s.distinct)
  rw [← List.append_assoc] at solid
  exact solid

/-! ## The statement as a whole -/

theorem getD_condition (t : Text) : (if t.isEmpty then none else some t).getD [] = t := by
  cases t <;> rfl

/-- A selection from a table, with the joins and the clauses behind it. -/
def sectionsText (s : Statement) (ticked : Bool) (ps : List Piece) (c : Clauses) : Text :=
  selectListText s ++
    (clauseText "FROM" (s.main.elim [] fun t => tableText (spelledTable ticked t)) ++ (piecesText ps ++ c.text))

theorem isPart_from {x : Text} (label : IsLabel x) : IsPart [.word "from"] (clauseText "FROM" x) := by
  refine isPart_clauseText (by decide) (by decide) label.plain.isClosed ?_
  intro k mem _ has
  rw [label.plain.mask] at has
  exact label.silent k mem has.begins

section Sections

variable {s : Statement} (ticked : Bool) {ps : List Piece}

theorem sectionsText_of_main {t : Table} (main : s.main = some t) (c : Clauses) : sectionsText s ticked ps c =
    selectListText s ++ (clauseText "FROM" (tableText (spelledTable ticked t)) ++ (piecesText ps ++ c.text)) := by
  rw [sectionsText, main]
  rfl

theorem sectionsText_append (c : Clauses) (t : Text) :
    sectionsText s ticked ps { c with tail := c.tail ++ t } = sectionsText s ticked ps c ++ t := by
  simp only [sectionsText, c.text_append, List.append_assoc]

variable (select : IsSelect s)
include select

/-- What the statement shows up to its joins. -/
theorem isQuiet_table {t : Table} (table : IsTable t) :
    IsQuiet [.word "from"] (selectListText s ++ clauseText "FROM" (tableText (spelledTable ticked t))) := by
  have from' := isPart_from (isLabel_table ticked table)
  exact (isQuiet_selectListText select).append from'.toIsQuiet from'.led

omit ticked in
/-- What a selection shows up to its limit. -/
theorem isQuiet_layout {x middle : Text} (label : IsLabel x) (part : IsPart joinKeys middle) :
    IsQuiet (.word "where" :: .by "group" :: .word "having" :: .by "order" :: joinKeys)
      (selectListText s ++ (clauseText "FROM" x ++ (middle ++ (s.clauses []).text))) := by
  have all := (isPart_from label).append (part.append (isPart_clauses select))
  exact ((isQuiet_selectListText select).append all.toIsQuiet all.led).mono (by decide)

theorem isQuiet_sections (joins : ∀ p ∈ ps, p.IsJoin textKeys) :
    IsQuiet (.word "where" :: .by "group" :: .word "having" :: .by "order" :: joinKeys)
      (sectionsText s ticked ps (s.clauses [])) := by
  obtain ⟨t, main, table⟩ := select.main
  rw [sectionsText_of_main ticked main]
  exact isQuiet_layout select (isLabel_table ticked table)
    (isPart_piecesText (fun p mem => (joins p mem).isSpelled) (by decide) fun _ mem => mem)

omit ticked in
/-- **A selection is read part by part**, if its table, its joins and its limit are: the select list in front of them and
the clauses behind them are read wherever they stand. -/
theorem parse_layout {x middle whole : Text} {c : Clauses} (label : IsLabel x)
    (part : IsPart (.word "offset" :: joinKeys) middle) (last : middle.getLast?.any isBlank = false) (written : c.IsWritten)
    (text : whole = selectListText s ++ (clauseText "FROM" x ++ (middle ++ c.text)))
    (main : (Source.ofText whole).main? = s.main) {js : List Join} (joined : (Source.ofText whole).joins = .ok js)
    {limit : Option Limit} (limited : (Source.ofText whole).limit? = limit) :
    parse whole = .ok
      { s with
        joins := js
        condition := c.condition
        groupBy := c.groups.map columnName
        having := if c.having.isEmpty then none else some c.having
        orderBy := c.order.filterMap orderTerm?
        limit := limit } := by
  obtain ⟨t, given, _⟩ := select.main
  -- what stands in front of the clauses, and the keys that it shows
  have toTable : IsQuiet [.word "from"] (selectListText s ++ clauseText "FROM" x) :=
    (isQuiet_selectListText select).append (isPart_from label).toIsQuiet (isPart_from label).led
  have toJoins := toTable.append part.toIsQuiet part.led
  have split : whole = selectListText s ++ clauseText "FROM" x ++ middle ++ c.text := by
    rw [text, List.append_assoc, List.append_assoc]
  have readKind : kindOf whole = .select := by
    have words : whole = "SELECT".toList ++ ' ' :: (distinctText s.distinct ++ (Text.join ", " (s.columns.map columnText) ++
        (clauseText "FROM" x ++ (middle ++ c.text)))) :=
      text.trans ((List.append_assoc _ _ _).trans (List.append_assoc _ _ _))
    rw [words]
    exact kindOf_select _
  have readColumns : (Source.ofText whole).selectColumns = .ok (s.columns, s.distinct) := by
    have found := read_columns select (x ++ (middle ++ c.text))
    rw [text, clauseText_of_ne_nil label.solid.filled]
    simpa only [List.append_assoc, List.cons_append] using found
  have solid : IsSolid whole := by
    rw [text]
    apply (isSolid_selectListText select).append_last
    apply last_append (last_clauseText label.solid.trim)
    exact last_append last (Clauses.last written)
  have open' : whole.getLast? ≠ some ';' := by
    rw [split]
    have quiet := toJoins.append (Clauses.isPart written).toIsQuiet (Clauses.isPart written).led
    exact quiet.getLast_ne (by decide)
  refine ReadsAs.parse (t := whole) ?_ given (strip_eq_self solid.trim open')
  constructor
  · exact main
  · rw [readKind, select.kind]
  · rw [select.kind]
    exact readColumns
  · exact joined
  · rw [split]
    exact ⟨_, Clauses.read_condition written toJoins (by decide), getD_condition c.condition⟩
  · rw [select.kind, select.values]
    rfl
  · rw [select.kind, select.assignments]
    rfl
  · rw [split]
    exact Clauses.read_groupBy written toJoins (by decide)
  · rw [split]
    exact Clauses.read_having written toJoins (by decide)
  · rw [split]
    exact Clauses.read_orderBy written toJoins (by decide)
  · exact limited

omit ticked select in
/-- The condition of a join ends where the clauses behind the joins start. -/
theorem meets_joinEnd {c : Clauses} (ends : c.Ends) : Meets joinEnd c.text :=
  Clauses.meets_text ends (.tail _ (.tail _ (.tail _ (.tail _ (.tail _ (.head _))))))
    (.tail _ (.tail _ (.tail _ (.head _)))) (.tail _ (.tail _ (.tail _ (.tail _ (.head _)))))
    (.tail _ (.tail _ (.head _))) (.tail _ (.head _))

/-- A selection is read with its joins and clauses, if they can be and its limit is known. Backticks around its table are
taken away. -/
theorem parse_sections {c : Clauses} (joins : ∀ p ∈ ps, p.IsJoin bodyKeys) (written : c.IsWritten)
    (ended : ps ≠ [] → c.Ends) (ends : EndsTable (mask .nested c.tail)) {limit : Option Limit}
    (limited : (Source.ofText (sectionsText s ticked ps c)).limit? = limit) :
    parse (sectionsText s ticked ps c) = .ok
      { s with
        joins := ps.map Piece.read
        condition := c.condition
        groupBy := c.groups.map columnName
        having := if c.having.isEmpty then none else some c.having
        orderBy := c.order.filterMap orderTerm?
        limit := limit } := by
  obtain ⟨t, main, table⟩ := select.main
  have text : sectionsText s ticked ps c = _ := sectionsText_of_main ticked main c
  generalize sectionsText s ticked ps c = whole at text limited ⊢
  have spelled (p : Piece) (mem : p ∈ ps) : p.IsSpelled bodyKeys := (joins p mem).isSpelled
  have readMain : (Source.ofText whole).main? = s.main := by
    rw [text, main]
    exact read_main ticked table (isQuiet_selectListText select) (by decide)
      (endsTable_piecesText ps (Clauses.endsTable ends))
  have readJoins : (Source.ofText whole).joins = .ok (ps.map Piece.read) := by
    rw [text, ← List.append_assoc]
    exact read_joins joins (by decide) (isQuiet_table ticked select table) (by decide) (Clauses.isPart written) (by decide)
      fun filled => meets_joinEnd (ended filled)
  exact parse_layout select (isLabel_table ticked table) (isPart_piecesText spelled (by decide) (by decide))
    (last_piecesText spelled) written text readMain readJoins limited

/-- A selection with a limit at its end is read back, but for what backticks change in its joins. -/
theorem parse_spelled (joins : ∀ p ∈ ps, p.IsJoin textKeys) :
    parse (sectionsText s ticked ps (s.clauses (limitClause s.limit))) = .ok { s with joins := ps.map Piece.read } := by
  have limited : (Source.ofText (sectionsText s ticked ps (s.clauses (limitClause s.limit)))).limit? = s.limit := by
    have read := read_limit select.limit (by decide) (isQuiet_sections ticked select joins)
    rwa [← sectionsText_append] at read
  have loose (p : Piece) (mem : p ∈ ps) : p.IsJoin bodyKeys := (joins p mem).mono (by decide)
  have tail := isTail_limitClause s.limit
  have parsed := parse_sections ticked select loose (tail.isWritten select) (fun _ => tail.clauses) tail.ends limited
  rw [parsed, map_groups select, filled_having select, filterMap_order select]
  rfl

end Sections

section Select

variable {s : Statement} (select : IsSelect s)
include select

theorem isJoin_joins : ∀ p ∈ s.joins.map (Piece.ofJoin false), p.IsJoin textKeys :=
  List.forall_mem_map.2 fun j mem => isJoin_ofJoin false (select.joins j mem)

omit select in
theorem selectText_of_words (words : ∀ j ∈ s.joins, j.keyword = joinText j.kind j.outer) :
    selectText s = sectionsText s false (s.joins.map (Piece.ofJoin false)) (s.clauses (limitClause s.limit)) := by
  rw [sectionsText, piecesText_ofJoin words]
  rfl

theorem selectText_sections :
    selectText s = sectionsText s false (s.joins.map (Piece.ofJoin false)) (s.clauses (limitClause s.limit)) :=
  selectText_of_words fun j mem => (select.joins j mem).keyword

theorem map_read_joins : (s.joins.map (Piece.ofJoin false)).map Piece.read = s.joins := by
  rw [List.map_map]
  have all (j : Join) (mem : j ∈ s.joins) : (Piece.read ∘ Piece.ofJoin false) j = j :=
    read_ofJoin (select.joins j mem).on (by decide)
  rw [List.map_congr_left all, List.map_id']

end Select

/-- **A selection written clause by clause is read back**, with its columns, tables, joins, conditions, groups, order and
limit, for every choice of the clauses that are written. -/
theorem parse_selectText {s : Statement} (select : IsSelect s) : parse (selectText s) = .ok s := by
  rw [selectText_sections select, parse_spelled false select (isJoin_joins select), map_read_joins select]

/-- A selection with all its clauses. Keywords stand in its literals and parentheses. -/
theorem parse_selectText_joined :
    let s : Statement :=
      { kind := .select
        main := some ⟨"users".toList, some "u".toList⟩
        distinct := true
        columns := [⟨⟨"name".toList, some "u".toList⟩, some "who".toList⟩, ⟨⟨"city".toList, none⟩, none⟩]
        joins := [⟨.left, true, "LEFT OUTER JOIN".toList, "posts".toList, none, "posts.tag = ' limit 1'".toList⟩,
          ⟨.plain, false, "JOIN".toList, "tags".toList, some "t".toList, "t.id IN (1, 2)".toList⟩]
        condition := "(a = 'x' OR b > 1) AND c <> 'group by'".toList
        groupBy := [⟨"city".toList, some "u".toList⟩]
        having := some "COUNT(*) > 1".toList
        orderBy := [⟨⟨"name".toList, none⟩, .desc⟩, ⟨⟨"city".toList, some "u".toList⟩, .asc⟩]
        limit := some ⟨18446744073709551615, some 10⟩ }
    let t := ("SELECT DISTINCT u.name AS who, city FROM users u LEFT OUTER JOIN posts ON posts.tag = ' limit 1' " ++
      "JOIN tags t ON t.id IN (1, 2) WHERE (a = 'x' OR b > 1) AND c <> 'group by' GROUP BY u.city " ++
      "HAVING COUNT(*) > 1 ORDER BY name DESC, u.city ASC LIMIT 18446744073709551615 OFFSET 10").toList
    IsSelect s ∧ selectText s = t ∧ parse t = .ok s := by
  intro s t
  have lower : ∀ k ∈ textKeys, k.isLower = true := by decide
  have text {t : Text} := isClauseText_iff lower (t := t)
  have select : IsSelect s := by
    have posts : IsClauseText textKeys "posts.tag = ' limit 1'".toList := text.2 (by decide)
    have tags : IsClauseText textKeys "t.id IN (1, 2)".toList := text.2 (by decide)
    have condition : IsClauseText textKeys "(a = 'x' OR b > 1) AND c <> 'group by'".toList := text.2 (by decide)
    have having : IsClauseText textKeys "COUNT(*) > 1".toList := text.2 (by decide)
    constructor
    · rfl
    · exact ⟨_, rfl, by decide, by decide⟩
    · exact ⟨by decide, by decide⟩
    · rw [List.forall_mem_cons, List.forall_mem_singleton]
      exact ⟨⟨by decide, by decide, ⟨by decide, by decide⟩, posts⟩, ⟨by decide, by decide, ⟨by decide, by decide⟩, tags⟩⟩
    · exact fun _ => condition
    · rfl
    · rfl
    · decide
    · rintro _ ⟨⟩
      exact having
    · decide
    · rintro _ ⟨⟩
      exact ⟨by decide, by decide⟩
  have written : selectText s = t := by decide +kernel
  rw [← written]
  exact ⟨select, rfl, parse_selectText select⟩

/-- A reserved word is no alias, also where it starts no clause. -/
theorem parse_reserved_alias :
    let s : Statement :=
      { kind := .select
        main := some ⟨"t".toList, some "using".toList⟩
        columns := [⟨⟨"*".toList, none⟩, none⟩] }
    isFreeName "using" = true ∧ selectText s = "SELECT * FROM t using".toList ∧
      parse (selectText s) = .ok { s with main := some ⟨"t".toList, none⟩ } ∧ parse (selectText s) ≠ .ok s := by
  decide +kernel

end Statement
end QueryCode
