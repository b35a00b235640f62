import QueryCode.Proofs.Statement.Keyword

/-!
# Patterns where they were written

The other direction of the keyword lemmas: what was written as a table or a limit is found by its pattern, at its place
and with its value. A table is followed by one more word if there is one, which is its alias unless it is
reserved.
-/

namespace QueryCode
set_option autoImplicit false

namespace Pattern

open Text Text.Scan Text.Cursor

variable {before rest : Text}

/-! ## Names -/

/-- A word that can stand for a table or an alias. -/
def isTableWord (t : Text) : Bool := t.head?.any isHead && t.all isWord

theorem chars_of_isTableWord {t : Text} (named : isTableWord t = true) : ∀ c ∈ t, isWord c = true := by
  rw [isTableWord, Bool.and_eq_true, List.all_eq_true] at named
  exact named.2

theorem ne_nil_of_isTableWord {t : Text} (named : isTableWord t = true) : t ≠ [] := by
  rintro rfl
  cases named

theorem head_of_isTableWord {t : Text} (named : isTableWord t = true) (more : Text) :
    (t ++ more).head?.any isWord = true := by
  obtain ⟨c, tail, rfl⟩ := List.exists_cons_of_ne_nil (ne_nil_of_isTableWord named)
  exact chars_of_isTableWord named c List.mem_cons_self

theorem not_isBlank_of_isTableWord {t : Text} (named : isTableWord t = true) (more : Text) :
    (t ++ more).head?.any isBlank = false := by
  obtain ⟨c, tail, rfl⟩ := List.exists_cons_of_ne_nil (ne_nil_of_isTableWord named)
  exact not_isBlank_of_isWord (chars_of_isTableWord named c List.mem_cons_self)

/-- What stands after a name: nothing or a space. -/
def Spaced (rest : Text) : Prop := rest = [] ∨ ∃ more, rest = ' ' :: more

theorem Spaced.edge {rest : Text} (spaced : Spaced rest) : rest.head?.any isWord = false := by
  rcases spaced with rfl | ⟨more, rfl⟩
  · rfl
  · exact not_isWord_of_isBlank (by decide)

theorem Spaced.append {x rest : Text} (first : Spaced x) (second : Spaced rest) : Spaced (x ++ rest) := by
  rcases first with rfl | ⟨more, rfl⟩
  · exact second
  · exact .inr ⟨more ++ rest, rfl⟩

theorem Spaced.head_ne {rest : Text} (spaced : Spaced rest) {c : Char} (other : c ≠ ' ') : rest.head? ≠ some c := by
  rcases spaced with rfl | ⟨more, rfl⟩
  · simp
  · simpa using Ne.symm other

theorem name_between {t : Text} (named : isTableWord t = true) (ends : rest.head?.any isWord = false) :
    name (between before (t ++ rest)) = some (t, between (before ++ t) rest) := by
  obtain ⟨c, tail, rfl⟩ := List.exists_cons_of_ne_nil (ne_nil_of_isTableWord named)
  have head : isHead c = true := by
    rw [isTableWord, Bool.and_eq_true] at named
    simpa using named.1
  have first : one isHead (between before (c :: tail ++ rest)) = some (c, between (before ++ [c]) (tail ++ rest)) :=
    one_some.2 ⟨tail ++ rest, rfl, head, rfl⟩
  have others : run isWord (between (before ++ [c]) (tail ++ rest)) =
      some (tail, between (before ++ [c] ++ tail) rest) :=
    run_some.2 ⟨rest, rfl, fun d mem => chars_of_isTableWord named d (List.mem_cons_of_mem c mem), ends, rfl⟩
  refine (bind_of_some first).trans ((bind_of_some others).trans ?_)
  rw [List.append_assoc]
  rfl

theorem char_of_head {c : Char} (other : rest.head? ≠ some c) : char c (between before rest) = none := by
  cases rest with
  | nil => rfl
  | cons d rest =>
    have differs : (d == c) = false := by
      rw [beq_eq_false_iff_ne]
      exact fun same => other (congrArg some same)
    simp [char, one, differs]

theorem tick_of_head (other : rest.head? ≠ some '\x60') : tick (between before rest) = some ((), between before rest) := by
  have missed : char '\x60' (between before rest) = none := char_of_head other
  have missing : opt (char '\x60') (between before rest) = some (none, between before rest) :=
    opt_some.2 (.inl ⟨rfl, rfl, missed⟩)
  exact bind_of_some missing

theorem head_ne_tick {t : Text} (named : isTableWord t = true) (more : Text) : (t ++ more).head? ≠ some '\x60' := by
  intro same
  have word := head_of_isTableWord named more
  rw [same] at word
  exact absurd word (by decide)

theorem tick_of_isTableWord {t : Text} (named : isTableWord t = true) :
    tick (between before (t ++ rest)) = some ((), between before (t ++ rest)) := tick_of_head (head_ne_tick named rest)

/-- The backtick at each end of a name that is quoted. -/
def tickMark (ticked : Bool) : Text := if ticked then ['\x60'] else []

/-- A name, with backticks around it if it is quoted. -/
def tickText : Bool → Text → Text
  | true, t => '\x60' :: (t ++ ['\x60'])
  | false, t => t

theorem tickText_append (ticked : Bool) (t rest : Text) :
    tickText ticked t ++ rest = tickMark ticked ++ (t ++ (tickMark ticked ++ rest)) := by
  cases ticked <;> simp [tickText, tickMark]

theorem append_tickText (ticked : Bool) (before t : Text) :
    before ++ tickMark ticked ++ t ++ tickMark ticked = before ++ tickText ticked t := by
  cases ticked <;> simp [tickText, tickMark]

theorem tick_tickMark (ticked : Bool) (other : rest.head? ≠ some '\x60') :
    tick (between before (tickMark ticked ++ rest)) = some ((), between (before ++ tickMark ticked) rest) := by
  cases ticked with
  | false =>
    rw [show tickMark false = [] from rfl, List.append_nil]
    exact tick_of_head other
  | true =>
    have read : opt (char '\x60') (between before ('\x60' :: rest)) = some (some '\x60', between (before ++ ['\x60']) rest) :=
      opt_some.2 (.inr ⟨'\x60', rfl, one_some.2 ⟨rest, rfl, by decide, rfl⟩⟩)
    exact discard_of_some read

theorem Spaced.edge_tickMark (ticked : Bool) (spaced : Spaced rest) : (tickMark ticked ++ rest).head?.any isWord = false := by
  cases ticked with
  | false => exact spaced.edge
  | true => exact (by decide : isWord '\x60' = false)

theorem not_isBlank_tickText {t : Text} (ticked : Bool) (named : isTableWord t = true) (more : Text) :
    (tickText ticked t ++ more).head?.any isBlank = false := by
  cases ticked with
  | false => exact not_isBlank_of_isTableWord named more
  | true => exact (by decide : isBlank '\x60' = false)

theorem word_tickMark {t : Text} (ticked : Bool) (named : isTableWord t = true) (spaced : Spaced rest) :
    (discard (run1 isWord) : Scan Unit) (between before (t ++ (tickMark ticked ++ rest))) =
      some ((), between (before ++ t) (tickMark ticked ++ rest)) :=
  discard_some.2 ⟨t, run1_some.2
    ⟨_, rfl, ne_nil_of_isTableWord named, chars_of_isTableWord named, spaced.edge_tickMark ticked, rfl⟩⟩

/-- There is no schema in front of a name without a point after it. -/
theorem schema_tickText {t : Text} (ticked : Bool) (named : isTableWord t = true) (spaced : Spaced rest) :
    schema (between before (tickText ticked t ++ rest)) = none := by
  have point (before : Text) : char '.' (between before rest) = none := char_of_head (spaced.head_ne (by decide))
  rw [tickText_append]
  refine (bind_of_some (tick_tickMark ticked (head_ne_tick named _))).trans ?_
  refine (bind_of_some (word_tickMark ticked named spaced)).trans ?_
  refine (bind_of_some (tick_tickMark ticked (spaced.head_ne (by decide)))).trans ?_
  exact bind_of_none (point _)

/-- A name without a schema is read without its backticks, and its place is right after its letters. -/
theorem tableName_between {t : Text} (ticked : Bool) (named : isTableWord t = true) (spaced : Spaced rest) :
    tableName (between before (tickText ticked t ++ rest)) =
      some ((t, between (before ++ tickMark ticked ++ t) (tickMark ticked ++ rest)),
        between (before ++ tickText ticked t) rest) := by
  have bare : tickedName (between before (tickText ticked t ++ rest)) =
      some ((t, between (before ++ tickMark ticked ++ t) (tickMark ticked ++ rest)),
        between (before ++ tickText ticked t) rest) := by
    rw [tickText_append, ← append_tickText]
    refine (bind_of_some (tick_tickMark ticked (head_ne_tick named _))).trans ?_
    refine (bind_of_some (name_between named (spaced.edge_tickMark ticked))).trans ?_
    exact (bind_of_some (p := here) rfl).trans (bind_of_some (tick_tickMark ticked (spaced.head_ne (by decide))))
  have missed : (do schema; tickedName : Scan (Text × Cursor)) (between before (tickText ticked t ++ rest)) = none :=
    bind_of_none (schema_tickText ticked named spaced)
  rw [tableName, orElse_apply, missed, bare]

/-! ## Keywords in front of something -/

theorem letters_between {w word : Text} (same : sameFold w word = true) :
    (discard (letters w) : Scan Unit) (between before (word ++ rest)) = some ((), between (before ++ word) rest) :=
  discard_some.2 ⟨word, letters_some.2 ⟨rest, rfl, same, rfl⟩⟩

theorem blanks1_space (solid : rest.head?.any isBlank = false) :
    blanks1 (between before (' ' :: rest)) = some ((), between (before ++ [' ']) rest) :=
  blanks1_some.2 ⟨[' '], rest, rfl, by simp, by decide, solid, rfl⟩

/-- A keyword with white space after it does not fit where another word stands. -/
theorem letters_blanks1_of_word {w t : Text} (lower : isLowerWord w = true) (whole : ∀ c ∈ t, isWord c = true)
    (ends : rest.head?.any isWord = false) (other : sameFold w t = false) :
    (do discard (letters w); blanks1 : Scan Unit) (between before (t ++ rest)) = none := by
  by_contra fits
  rw [← ne_eq, Option.ne_none_iff_isSome] at fits
  obtain ⟨⟨_, stop⟩, found⟩ := Option.isSome_iff_exists.1 fits
  simp only [bind_some, discard_some] at found
  obtain ⟨_, _, ⟨word, read⟩, blank⟩ := found
  obtain ⟨after, split, same, rfl⟩ := letters_some.1 read
  obtain ⟨gap, more, rfl, solid, white, _⟩ := blanks1_some.1 blank
  have eq := eq_of_runs split whole ends (isWord_of_sameFold lower same) (not_isWord_of_blank white solid more)
  rw [eq.1, same] at other
  cases other

/-! ## Tables and aliases -/

theorem nextName_between {word : Text} (named : isTableWord word = true) (other : sameFold "as" word = false)
    (spaced : Spaced rest) :
    nextName (between before (' ' :: (word ++ rest))) =
      some ((word, between (before ++ ' ' :: word) rest), between (before ++ ' ' :: word) rest) := by
  have bare : nextName.bare (between (before ++ [' ']) (word ++ rest)) =
      some ((word, between (before ++ [' '] ++ word) rest), between (before ++ [' '] ++ word) rest) :=
    bind_of_some (name_between named spaced.edge)
  have missed : (do discard (letters "as"); blanks1; nextName.bare : Scan (Text × Cursor))
      (between (before ++ [' ']) (word ++ rest)) = none := by
    rw [← bind_bind]
    exact bind_of_none (letters_blanks1_of_word (by decide) (chars_of_isTableWord named) spaced.edge other)
  refine (bind_of_some (blanks1_space (not_isBlank_of_isTableWord named rest))).trans ?_
  rw [orElse_apply, missed, bare, List.append_assoc]
  rfl

/-- A table at the end of the text has no alias. -/
theorem tableMatch_end {t : Text} (ticked : Bool) (named : isTableWord t = true) :
    tableMatch (between before (tickText ticked t)) =
      some (⟨t, between (before ++ tickMark ticked ++ t) (tickMark ticked), none⟩, between (before ++ tickText ticked t) []) := by
  have found : tableName (between before (tickText ticked t ++ [])) = _ := tableName_between ticked named (.inl rfl)
  rw [List.append_nil, List.append_nil] at found
  have missing : opt nextName (between (before ++ tickText ticked t) []) = some (none, between (before ++ tickText ticked t) []) :=
    opt_some.2 (.inl ⟨rfl, rfl, rfl⟩)
  exact (bind_of_some found).trans (bind_of_some missing)

/-- The word after a table is found with it. -/
theorem tableMatch_next {t word : Text} (ticked : Bool) (named : isTableWord t = true) (named' : isTableWord word = true)
    (other : sameFold "as" word = false) (spaced : Spaced rest) :
    tableMatch (between before (tickText ticked t ++ ' ' :: (word ++ rest))) =
      some (⟨t, between (before ++ tickMark ticked ++ t) (tickMark ticked ++ ' ' :: (word ++ rest)),
        some (word, between (before ++ tickText ticked t ++ ' ' :: word) rest)⟩,
        between (before ++ tickText ticked t ++ ' ' :: word) rest) := by
  have found : tableName (between before (tickText ticked t ++ ' ' :: (word ++ rest))) = _ :=
    tableName_between ticked named (.inr ⟨_, rfl⟩)
  have next : opt nextName (between (before ++ tickText ticked t) (' ' :: (word ++ rest))) =
      some (some (word, between (before ++ tickText ticked t ++ ' ' :: word) rest),
        between (before ++ tickText ticked t ++ ' ' :: word) rest) :=
    opt_some.2 (.inr ⟨_, rfl, nextName_between named' other spaced⟩)
  exact (bind_of_some found).trans (bind_of_some next)

/-- The word is one that is never an alias. -/
def isReserved (word : Text) : Bool := reserved.any (sameWord ·.toList word)

/-- The word after a table is its alias, unless it is reserved. -/
theorem alias_next {t word : Text} {stop stop' : Cursor} :
    (⟨t, stop, some (word, stop')⟩ : TableMatch).alias? = if isReserved word then none else some (word, stop') := by
  have value : (⟨t, stop, some (word, stop')⟩ : TableMatch).alias? =
      if !isReserved word then some (word, stop') else none := Option.filter_some
  rw [value]
  cases isReserved word <;> rfl

/-- The text can stand for an alias. -/
def isAlias (word : Text) : Bool := isTableWord word && !sameFold "as" word && !isReserved word

/-- A table is over: nothing follows, or a space and a reserved word. -/
def EndsTable (rest : Text) : Prop :=
  rest = [] ∨ ∃ word more, rest = ' ' :: (word ++ more) ∧ isTableWord word = true ∧ sameFold "as" word = false ∧
    isReserved word = true ∧ Spaced more

theorem EndsTable.spaced (ends : EndsTable rest) : Spaced rest := by
  rcases ends with rfl | ⟨word, more, rfl, _⟩
  · exact .inl rfl
  · exact .inr ⟨_, rfl⟩

/-- An alias with a space in front. -/
def aliasText : Option Text → Text
  | some given => ' ' :: given
  | none => []

/-- What the match of a table has taken behind it: nothing after an alias or at the end, and else the next word. -/
inductive Spill : Option Text → Text → Text → Prop where
  | given (name after : Text) : Spill (some name) [] after
  | nothing : Spill none [] []
  | word {word after : Text} (named : isTableWord word = true) (spaced : Spaced after) : Spill none (' ' :: word) after

/-- The word that has been taken is the first one of what follows. -/
theorem Spill.eq_word {first more spill after : Text} (named : isTableWord first = true) (spaced : Spaced more)
    (split : ' ' :: (first ++ more) = spill ++ after) (kept : Spill none spill after) :
    spill = ' ' :: first ∧ after = more := by
  cases kept with
  | nothing => cases split
  | word named' spaced' =>
    have tail := (List.cons.inj split).2
    have parts := eq_of_runs tail (chars_of_isTableWord named) spaced.edge (chars_of_isTableWord named') spaced'.edge
    exact ⟨congrArg (' ' :: ·) parts.1.symm, parts.2.symm⟩

/-- Where the match of a table ends: behind the table, or at the closing backtick of a name without an alias. -/
def Finishes (ticked : Bool) (alias? : Option Text) (before rest : Text) (stop : Cursor) : Prop :=
  if ticked && alias?.isNone then ∃ lead more, stop = between lead ('\x60' :: more) else stop = between before rest

theorem finishes_tickMark (ticked : Bool) (before t rest : Text) :
    Finishes ticked none (before ++ tickText ticked t) rest
      (between (before ++ tickMark ticked ++ t) (tickMark ticked ++ rest)) := by
  cases ticked with
  | true => exact ⟨_, rest, rfl⟩
  | false =>
    rw [show tickMark false = [] from rfl, List.append_nil]
    rfl

/-- **A table is read back with its alias.** The match stops after the alias, or else after the reserved word that
follows the table. -/
theorem tableMatch_between {t : Text} {alias? : Option Text} (ticked : Bool) (named : isTableWord t = true)
    (aliased : ∀ given ∈ alias?, isAlias given = true) (ends : EndsTable rest) :
    ∃ m spill after, tableMatch (between before (tickText ticked t ++ (aliasText alias? ++ rest))) =
        some (m, between (before ++ (tickText ticked t ++ aliasText alias?) ++ spill) after) ∧
      m.table = ⟨t, alias?⟩ ∧ Finishes ticked alias? (before ++ (tickText ticked t ++ aliasText alias?)) rest m.finish ∧
      rest = spill ++ after ∧ Spill alias? spill after := by
  cases alias? with
  | some word =>
    have given := aliased word rfl
    simp only [isAlias, Bool.and_eq_true, Bool.not_eq_true'] at given
    obtain ⟨⟨named', other⟩, free⟩ := given
    have found : tableMatch (between before (tickText ticked t ++ ' ' :: (word ++ rest))) = _ :=
      tableMatch_next ticked named named' other ends.spaced
    rw [List.append_assoc before (tickText ticked t)] at found
    refine ⟨_, [], rest, by rw [List.append_nil]; exact found, ?_, ?_, rfl, .given word rest⟩
    · simp [TableMatch.table, alias_next, free]
    · simp [Finishes, TableMatch.finish, alias_next, free, aliasText]
  | none =>
    have finish := finishes_tickMark ticked before t rest
    rw [aliasText, List.append_nil]
    rcases ends with rfl | ⟨word, more, rfl, named', other, kept, spaced⟩
    · have found : tableMatch (between before (tickText ticked t)) = _ := tableMatch_end ticked named
      refine ⟨⟨t, between (before ++ tickMark ticked ++ t) (tickMark ticked), none⟩, [], [], ?_, rfl, ?_, rfl, .nothing⟩
      · simpa using found
      · rwa [List.append_nil] at finish
    · have found : tableMatch (between before (tickText ticked t ++ ' ' :: (word ++ more))) = _ :=
        tableMatch_next ticked named named' other spaced
      refine ⟨_, ' ' :: word, more, found, ?_, ?_, rfl, .word named' spaced⟩
      · simp [TableMatch.table, alias_next, kept]
      · simp only [TableMatch.finish, alias_next, kept, if_true]
        exact finish

/-! ## Clauses that start with a keyword -/

theorem edge_between (left : before.getLast?.any isWord = false) (right : rest.head?.any isWord = true) :
    edge (between before rest) = some ((), between before rest) := by
  refine edge_some.2 ⟨?_, rfl⟩
  rw [atEdge_between, left, right]
  rfl

/-- After its keyword and a space a pattern goes on with the rest of it. -/
theorem keyword_space {α : Type} {w word : Text} {k : Scan α} (lower : isLowerWord w = true)
    (same : sameFold w word = true) (left : before.getLast?.any isWord = false) (solid : rest.head?.any isBlank = false) :
    (do edge; discard (letters w); blanks1; k : Scan α) (between before (word ++ ' ' :: rest)) =
      k (between (before ++ (word ++ [' '])) rest) := by
  have first := edge_between left (head_of_sameFold lower same (' ' :: rest))
  refine (bind_of_some first).trans ((bind_of_some (letters_between same)).trans ?_)
  rw [← List.append_assoc]
  exact bind_of_some (blanks1_space solid)

theorem word_between {w word : Text} (lower : isLowerWord w = true) (same : sameFold w word = true)
    (left : before.getLast?.any isWord = false) (right : rest.head?.any isWord = false) :
    Scan.word w (between before (word ++ rest)) = some ((), between (before ++ word) rest) :=
  (word_some lower).2 ⟨word, rest, rfl, same, left, right, rfl⟩

theorem phrase_between {v w first second : Text} (lower : isLowerWord v = true) (lower' : isLowerWord w = true)
    (same : sameFold v first = true) (same' : sameFold w second = true) (left : before.getLast?.any isWord = false)
    (right : rest.head?.any isWord = false) :
    phrase v w (between before (first ++ ' ' :: (second ++ rest))) =
      some ((), between (before ++ (first ++ ' ' :: second)) rest) :=
  (phrase_some lower lower').2 ⟨first, [' '], second, rest, rfl, same, by simp, by decide, same', left, right, rfl⟩

/-- The pattern reads the keyword in front of a space. -/
def Reads (p : Scan Unit) (keyword : Text) : Prop :=
  ∀ before rest, before.getLast?.any isWord = false →
    p (between before (keyword ++ ' ' :: rest)) = some ((), between (before ++ keyword) (' ' :: rest))

theorem Reads.isSome {p : Scan Unit} {keyword before : Text} (reads : Reads p keyword)
    (left : before.getLast?.any isWord = false) (rest : Text) :
    (p (between before (keyword ++ ' ' :: rest))).isSome = true := by
  rw [reads before rest left]
  rfl

theorem reads_word {w keyword : Text} (lower : isLowerWord w = true) (same : sameFold w keyword = true) :
    Reads (Scan.word w) keyword := by
  intro before rest left
  exact word_between lower same left (not_isWord_of_isBlank (by decide))

theorem reads_phrase {v first : Text} (lower : isLowerWord v = true) (same : sameFold v first = true) :
    Reads (phrase v "by") (first ++ " BY".toList) := by
  intro before rest left
  have found : phrase v "by" (between before (first ++ ' ' :: ("BY".toList ++ ' ' :: rest))) =
      some ((), between (before ++ (first ++ ' ' :: "BY".toList)) (' ' :: rest)) :=
    phrase_between lower (by decide) same (by decide) left (not_isWord_of_isBlank (by decide))
  rw [List.append_assoc]
  exact found

theorem reads_where : Reads (Scan.word "where") "WHERE" := reads_word (by decide) (by decide)

theorem reads_having : Reads (Scan.word "having") "HAVING" := reads_word (by decide) (by decide)

theorem reads_limit : Reads (Scan.word "limit") "LIMIT" := reads_word (by decide) (by decide)

theorem reads_groupBy : Reads (phrase "group" "by") "GROUP BY" :=
  reads_phrase (by decide) (by decide : sameFold "group".toList "GROUP".toList = true)

theorem reads_orderBy : Reads (phrase "order" "by") "ORDER BY" :=
  reads_phrase (by decide) (by decide : sameFold "order".toList "ORDER".toList = true)

/-! ## Counts -/

/-- A count as it is written: one or more of the digits `0` to `9`. -/
structure IsCount (t : Text) : Prop where
  filled : t ≠ []
  ascii : ∀ c ∈ t, isAsciiDigit c = true

section Count

variable {t : Text} (count : IsCount t)
include count

theorem all_of_isCount {p : Char → Bool} (check : "0123456789".toList.all p = true) : ∀ c ∈ t, p c = true :=
  fun c mem => of_isAsciiDigit check (count.ascii c mem)

theorem isWord_of_isCount : ∀ c ∈ t, isWord c = true := all_of_isCount count (by decide)

theorem not_isBlank_of_isCount (more : Text) : (t ++ more).head?.any isBlank = false := by
  obtain ⟨c, rest, rfl⟩ := List.exists_cons_of_ne_nil count.filled
  exact not_isBlank_of_isWord (isWord_of_isCount count c List.mem_cons_self)

theorem run1_count (ends : rest.head?.any isDigit = false) :
    run1 isDigit (between before (t ++ rest)) = some (t, between (before ++ t) rest) :=
  run1_some.2 ⟨rest, rfl, count.filled, all_of_isCount count (by decide), ends, rfl⟩

/-- A count at the end of the text, with a space in front. -/
theorem blanks1_count :
    (do blanks1; run1 isDigit : Scan Text) (between before (' ' :: t)) = some (t, between (before ++ ' ' :: t) []) := by
  have solid := not_isBlank_of_isCount count []
  have found : run1 isDigit (between (before ++ [' ']) (t ++ [])) = some (t, between (before ++ [' '] ++ t) []) :=
    run1_count count rfl
  rw [List.append_nil] at solid found
  rw [List.append_assoc] at found
  exact (bind_of_some (blanks1_space solid)).trans found

/-- A second count is read behind a comma. -/
theorem second_comma :
    (do blanks; discard (char ','); blanks; run1 isDigit : Scan Text) (between before (',' :: ' ' :: t)) =
      some (t, between (before ++ ',' :: ' ' :: t) []) := by
  have start : blanks (between before (',' :: ' ' :: t)) = some ((), between before (',' :: ' ' :: t)) :=
    blanks_some.2 ⟨[], _, rfl, blank_nil, by rfl, by rw [List.append_nil]⟩
  have comma : (discard (char ',') : Scan Unit) (between before (',' :: ' ' :: t)) =
      some ((), between (before ++ [',']) (' ' :: t)) :=
    discard_some.2 ⟨',', one_some.2 ⟨' ' :: t, rfl, by decide, rfl⟩⟩
  have solid := not_isBlank_of_isCount count []
  have found : run1 isDigit (between (before ++ [','] ++ [' ']) (t ++ [])) =
      some (t, between (before ++ [','] ++ [' '] ++ t) []) := run1_count count rfl
  rw [List.append_nil] at solid found
  have gap : blanks (between (before ++ [',']) (' ' :: t)) = some ((), between (before ++ [','] ++ [' ']) t) :=
    blanks_some.2 ⟨[' '], t, rfl, by decide, solid, rfl⟩
  have place : before ++ ',' :: ' ' :: t = before ++ [','] ++ [' '] ++ t := by simp
  rw [place]
  exact (bind_of_some start).trans ((bind_of_some comma).trans ((bind_of_some gap).trans found))

/-- An offset is read behind its keyword. -/
theorem offset_count :
    (do blanks1; discard (letters "offset"); blanks1; run1 isDigit : Scan Text)
        (between before (' ' :: ("OFFSET".toList ++ ' ' :: t))) =
      some (t, between (before ++ ' ' :: ("OFFSET".toList ++ ' ' :: t)) []) := by
  have gap : blanks1 (between before (' ' :: ("OFFSET".toList ++ ' ' :: t))) =
      some ((), between (before ++ [' ']) ("OFFSET".toList ++ ' ' :: t)) := blanks1_space (by rfl)
  have word : (discard (letters "offset") : Scan Unit) (between (before ++ [' ']) ("OFFSET".toList ++ ' ' :: t)) =
      some ((), between (before ++ [' '] ++ "OFFSET".toList) (' ' :: t)) :=
    letters_between (by decide : sameFold "offset".toList "OFFSET".toList = true)
  have place : before ++ ' ' :: ("OFFSET".toList ++ ' ' :: t) = before ++ [' '] ++ "OFFSET".toList ++ ' ' :: t := by simp
  rw [place]
  exact (bind_of_some gap).trans ((bind_of_some word).trans (blanks1_count count))

end Count

/-- There is no second count in front of an offset. -/
theorem second_offset (t : Text) :
    (do blanks; discard (char ','); blanks; run1 isDigit : Scan Text)
      (between before (' ' :: ("OFFSET".toList ++ ' ' :: t))) = none := by
  have head : ("OFFSET".toList ++ ' ' :: t).head? = some 'O' := rfl
  have gap : blanks (between before (' ' :: ("OFFSET".toList ++ ' ' :: t))) =
      some ((), between (before ++ [' ']) ("OFFSET".toList ++ ' ' :: t)) := by
    refine blanks_some.2 ⟨[' '], "OFFSET".toList ++ ' ' :: t, rfl, by decide, ?_, rfl⟩
    rw [head]
    decide
  have comma : char ',' (between (before ++ [' ']) ("OFFSET".toList ++ ' ' :: t)) = none := by
    apply char_of_head
    rw [head]
    decide
  exact (bind_of_some gap).trans (bind_of_none (discard_none comma))

/-- **A limit is read count by count**: the first one, a second one behind a comma, and an offset. -/
theorem limit_count {t more : Text} {second offset : Option Text} {place stop : Cursor} (count : IsCount t)
    (ends : more.head?.any isDigit = false) (left : before.getLast?.any isWord = false)
    (next : opt (do blanks; discard (char ','); blanks; run1 isDigit : Scan Text)
      (between (before ++ ("LIMIT".toList ++ [' ']) ++ t) more) = some (second, place))
    (last : opt (do blanks1; discard (letters "offset"); blanks1; run1 isDigit : Scan Text) place = some (offset, stop)) :
    limit (between before ("LIMIT".toList ++ ' ' :: (t ++ more))) = some ((t, second, offset), stop) := by
  have lower : isLowerWord "limit".toList = true := by decide
  have same : sameFold "limit".toList "LIMIT".toList = true := by decide
  refine (keyword_space lower same left (not_isBlank_of_isCount count more)).trans ?_
  exact (bind_of_some (run1_count count ends)).trans ((bind_of_some next).trans (bind_of_some last))

/-- The digits of a number. -/
def digits (n : Nat) : Text := Nat.toDigits 10 n

theorem digits_ne_nil (n : Nat) : digits n ≠ [] := Nat.toDigits_ne_nil

theorem isCount_digits (n : Nat) : IsCount (digits n) where
  filled := digits_ne_nil n
  ascii := by
    intro c mem
    have digit := Nat.isDigit_of_mem_toDigits (by decide) (by decide) mem
    simpa [Char.isDigit, isAsciiDigit, Char.le_def] using digit

theorem isWord_digits (n : Nat) : ∀ c ∈ digits n, isWord c = true := isWord_of_isCount (isCount_digits n)

/-- A count is read back from its digits. -/
theorem rowCount_digits {n : Nat} (small : n ≤ Statement.maxCount) : Statement.rowCount (digits n) = n := by
  have value : digitsValue (digits n) = n := Nat.ofDigitChars_toDigits (by decide) (by decide)
  rw [Statement.rowCount, if_pos (List.all_eq_true.2 (isCount_digits n).ascii), value]
  exact min_eq_left small

/-- An offset with its keyword in front. -/
def offsetText : Option Nat → Text
  | some m => ' ' :: ("OFFSET".toList ++ ' ' :: digits m)
  | none => []

/-- There is no second count in front of an offset or at the end. -/
theorem opt_second (offset : Option Nat) :
    opt (do blanks; discard (char ','); blanks; run1 isDigit : Scan Text) (between before (offsetText offset)) =
      some (none, between before (offsetText offset)) := by
  apply opt_some.2
  refine .inl ⟨rfl, rfl, ?_⟩
  cases offset with
  | none => rfl
  | some m => exact second_offset (digits m)

theorem opt_offset (offset : Option Nat) :
    opt (do blanks1; discard (letters "offset"); blanks1; run1 isDigit : Scan Text) (between before (offsetText offset)) =
      some (offset.map digits, between (before ++ offsetText offset) []) := by
  apply opt_some.2
  cases offset with
  | none => exact .inl ⟨rfl, by simp [offsetText], rfl⟩
  | some m => exact .inr ⟨digits m, rfl, offset_count (isCount_digits m)⟩

/-- **The counts of a limit are read back.** -/
theorem limit_between {n : Nat} (offset : Option Nat) (left : before.getLast?.any isWord = false) :
    ∃ stop, limit (between before ("LIMIT".toList ++ ' ' :: (digits n ++ offsetText offset))) =
      some ((digits n, none, offset.map digits), stop) := by
  have ends : (offsetText offset).head?.any isDigit = false := by
    cases offset with
    | none => rfl
    | some m => rfl
  exact ⟨_, limit_count (isCount_digits n) ends left (opt_second offset) (opt_offset offset)⟩

end Pattern
end QueryCode
