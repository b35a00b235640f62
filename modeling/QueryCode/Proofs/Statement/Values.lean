import QueryCode.Proofs.Statement.Item
import QueryCode.Proofs.Statement.Strip
import QueryCode.Proofs.Statement.Total
import QueryCode.Proofs.Text.Split

/-!
# Insertions and updates

The columns and values of an insertion stand in parentheses, where the mask hides them: whatever the values are, the
keywords are found at their places, and the two lists are split at the commas between their items. The assignments of an
update are in the open, so they must not show the keywords that end them. Both statements are read back with their data:
`parse_insertion`, `parse_update`.
-/

namespace QueryCode
set_option autoImplicit false

open Text Text.Scan Text.Cursor Pattern

namespace Pattern

/-! ## The patterns of an insertion -/

variable {before rest t : Text} (left : before.getLast?.any isWord = false)
include left

theorem values_between :
    values (between before ("VALUES".toList ++ ' ' :: '(' :: rest)) =
      some (between (before ++ "VALUES".toList ++ [' ']) ('(' :: rest), between (before ++ "VALUES".toList ++ [' '] ++ ['(']) rest) := by
  have same : sameFold "values".toList "VALUES".toList = true := by decide
  have gap : blanks (between (before ++ "VALUES".toList) (' ' :: '(' :: rest)) =
      some ((), between (before ++ "VALUES".toList ++ [' ']) ('(' :: rest)) :=
    blanks_some.2 ⟨[' '], '(' :: rest, rfl, by decide, (by decide : isBlank '(' = false), rfl⟩
  refine (bind_of_some (edge_between left (head_of_sameFold (by decide) same _))).trans ?_
  refine (bind_of_some (letters_between same)).trans ((bind_of_some gap).trans ?_)
  exact (bind_of_some (p := here) rfl).trans (bind_of_some (Statement.char_between '(' _ rest))

variable (named : isTableWord t = true) (ticked : Bool)
include named

theorem intoTable_between (spaced : Spaced rest) :
    ∃ stop, intoTable (between before ("INTO".toList ++ ' ' :: (tickText ticked t ++ rest))) = some (t, stop) := by
  have found := keyword_space (k := do return (← tableName).1) (by decide : isLowerWord "into".toList = true)
    (by decide : sameFold "into".toList "INTO".toList = true) left (not_isBlank_tickText ticked named rest)
  exact ⟨_, found.trans (bind_of_some (tableName_between ticked named spaced))⟩

theorem insertColumns_between :
    ∃ stop, insertColumns (between before ("INTO".toList ++ ' ' :: (tickText ticked t ++ ' ' :: '(' :: rest))) =
      some (between (before ++ ("INTO".toList ++ [' ']) ++ tickText ticked t ++ [' ']) ('(' :: rest), stop) := by
  have spaced : Spaced (' ' :: '(' :: rest) := .inr ⟨_, rfl⟩
  have found := keyword_space (k := (do schema; insertColumns.tail) <|> insertColumns.tail)
    (by decide : isLowerWord "into".toList = true) (by decide : sameFold "into".toList "INTO".toList = true) left
    (not_isBlank_tickText ticked named (' ' :: '(' :: rest))
  generalize before ++ ("INTO".toList ++ [' ']) = lead at found ⊢
  have gap : blanks (between (lead ++ tickText ticked t) (' ' :: '(' :: rest)) =
      some ((), between (lead ++ tickText ticked t ++ [' ']) ('(' :: rest)) :=
    blanks_some.2 ⟨[' '], '(' :: rest, rfl, by decide, (by decide : isBlank '(' = false), rfl⟩
  have tail : insertColumns.tail (between lead (tickText ticked t ++ ' ' :: '(' :: rest)) =
      some (between (lead ++ tickText ticked t ++ [' ']) ('(' :: rest),
        between (lead ++ tickText ticked t ++ [' '] ++ ['(']) rest) := by
    rw [tickText_append]
    refine (bind_of_some (tick_tickMark ticked (head_ne_tick named _))).trans ?_
    refine (bind_of_some (word_tickMark ticked named spaced)).trans ?_
    refine (bind_of_some (tick_tickMark ticked (spaced.head_ne (by decide)))).trans ?_
    rw [append_tickText]
    refine (bind_of_some gap).trans ((bind_of_some (p := here) rfl).trans ?_)
    exact bind_of_some (Statement.char_between '(' _ rest)
  have missed : (do schema; insertColumns.tail : Scan Cursor) (between lead (tickText ticked t ++ ' ' :: '(' :: rest)) = none :=
    bind_of_none (schema_tickText ticked named spaced)
  refine ⟨between (lead ++ tickText ticked t ++ [' '] ++ ['(']) rest, found.trans ?_⟩
  rw [orElse_apply, missed]
  exact tail

omit left in
/-- The table of an update is read back. -/
theorem updateTable_between (ends : EndsTable rest) :
    ∃ m stop, updateTable (between [] ("UPDATE".toList ++ ' ' :: (tickText ticked t ++ rest))) = some (m, stop) ∧
      m.table = ⟨t, none⟩ := by
  have gap : blanks (between [] ("UPDATE".toList ++ ' ' :: (tickText ticked t ++ rest))) =
      some ((), between [] ("UPDATE".toList ++ ' ' :: (tickText ticked t ++ rest))) :=
    blanks_some.2 ⟨[], _, rfl, blank_nil, (by decide : isBlank 'U' = false), rfl⟩
  have word : (discard (letters "update") : Scan Unit)
      (between [] ("UPDATE".toList ++ ' ' :: (tickText ticked t ++ rest))) =
      some ((), between ([] ++ "UPDATE".toList) (' ' :: (tickText ticked t ++ rest))) :=
    letters_between (by decide : sameFold "update".toList "UPDATE".toList = true)
  have space : blanks1 (between ([] ++ "UPDATE".toList) (' ' :: (tickText ticked t ++ rest))) =
      some ((), between ([] ++ "UPDATE".toList ++ [' ']) (tickText ticked t ++ rest)) :=
    blanks1_space (not_isBlank_tickText ticked named rest)
  obtain ⟨m, spill, after, found, table, _⟩ :=
    @tableMatch_between ([] ++ "UPDATE".toList ++ [' ']) rest t none ticked named (by simp) ends
  exact ⟨m, _, (bind_of_some gap).trans ((bind_of_some word).trans ((bind_of_some space).trans found)), table⟩

end Pattern

namespace Statement

/-! ## Words with spaces between them -/

theorem two_words (a b x : Text) : a ++ ' ' :: (b ++ ' ' :: x) = a ++ ' ' :: (b ++ [' ']) ++ x := by simp

theorem three_words (a b c x : Text) :
    a ++ ' ' :: (b ++ ' ' :: (c ++ ' ' :: x)) = a ++ ' ' :: (b ++ ' ' :: (c ++ [' '])) ++ x := by simp

/-! ## Finding a keyword -/

section Find

variable {α : Type} {p : Scan α} {ks : List Key} (starts : Starts p ks) (lower : ∀ k ∈ ks, k.isLower = true) {u : Text}
include starts lower

/-- A keyword is found behind a text that does not show it. -/
theorem find_after (silent : ∀ k ∈ ks, ¬ k.Begins (mask .nested u)) (closed : isClosed u = true) {t : Text} {a : α}
    {stop : Cursor} (fits : p (between (mask .nested u ++ [' ']) (mask .nested t)) = some (a, stop)) :
    (Source.ofText (u ++ ' ' :: t)).find p = some ⟨between (mask .nested u ++ [' ']) (mask .nested t), a, stop⟩ := by
  have space : Plain [' '] := by decide
  have shown : mask .nested (u ++ ' ' :: t) = (mask .nested u ++ [' ']) ++ mask .nested t := by
    rw [mask_append _ closed (apart_of_head (by decide)), List.append_assoc]
    exact congrArg _ (mask_plain_append _ space)
  have misses : Misses p [] (mask .nested u ++ [' ']) (mask .nested t) := by
    refine starts.misses fun k mem => Key.silent_of_not_begins (lower k mem) ?_ (.inl ?_)
    · intro has
      rcases Key.begins_append (lower k mem) (parted_of_head (by decide)) has with front | gap
      · exact silent k mem front
      · exact Key.not_begins_space (lower k mem) gap
    · rw [List.getLast?_concat]
      exact not_isWord_of_isBlank (by decide)
  have text : (Source.ofText (u ++ ' ' :: t)).find p = Scan.find p (between [] (mask .nested (u ++ ' ' :: t))) := rfl
  rw [text, shown, find_of_misses misses, List.nil_append]
  exact find_of_some fits

/-- A pattern is not found in a text that shows none of its keys. -/
theorem find_absent (absent : ∀ k ∈ ks, ¬ k.Occurs (mask .nested u)) : (Source.ofText u).find p = none := by
  have misses : Misses p [] (mask .nested u) [] :=
    starts.misses fun k mem => Key.silent_of_not_occurs (lower k mem) (absent k mem) follows_nil
  exact find_none_of_misses misses (starts.none_nil lower _)

end Find

/-- The clauses behind the data of a statement are not there. -/
structure LacksClauses (t : Text) : Prop where
  groupBy : (Source.ofText t).groupBy = .ok []
  having : (Source.ofText t).clause (Scan.word "having") havingEnd = .ok none
  orderBy : (Source.ofText t).orderBy = .ok []
  limit : (Source.ofText t).limit? = none

/-- The keys with which these clauses start. -/
def laterKeys : List Key := [.by "group", .word "having", .by "order", .word "limit"]

section Absent

variable {t : Text}

theorem clause_absent {start stop : Scan Unit} {k : Key} (starts : Starts start [k]) (lower : k.isLower = true)
    (absent : ¬ k.Occurs (mask .nested t)) : (Source.ofText t).clause start stop = .ok none := by
  rw [Source.clause, find_absent starts (List.forall_mem_singleton.2 lower) (List.forall_mem_singleton.2 absent)]

theorem lacksClauses (absent : ∀ k ∈ laterKeys, ¬ k.Occurs (mask .nested t)) : LacksClauses t where
  groupBy := by
    rw [Source.groupBy, clause_absent (starts_phrase (by decide)) (by decide) (absent (.by "group") (by decide))]
    rfl
  having := clause_absent (starts_word (by decide)) (by decide) (absent (.word "having") (by decide))
  orderBy := by
    rw [Source.orderBy, clause_absent (starts_phrase (by decide)) (by decide) (absent (.by "order") (by decide))]
    rfl
  limit := by
    have missing : (Source.ofText t).find Pattern.limit = none := find_absent (starts_of_opens opens_limit) (by decide)
      (List.forall_mem_singleton.2 (absent (.word "limit") (by decide)))
    rw [Source.limit?, missing]
    rfl

/-- Without the word `JOIN` there are no joins. -/
theorem joins_absent (lacking : ¬ HasWord "join" (mask .nested t)) : (Source.ofText t).joins = .ok [] := by
  have absent : Scan.find Pattern.join (Cursor.start (Source.ofText t).mask) = none := find_join_eq_none lacking
  have nothing : Scan.findAll Pattern.join (Cursor.start (Source.ofText t).mask) = [] := by
    unfold Scan.findAll
    cases (Cursor.start (Source.ofText t).mask).rest.length with
    | zero => rfl
    | succ n => rw [Scan.findAll.go, absent]
  rw [Source.joins, nothing]
  rfl

end Absent

/-! ## Lists in parentheses -/

/-- The items of a list in parentheses are read where it starts. -/
theorem list_parens {q body rest : Text} {items : List Text} {cur : Cursor} (balanced : isBalanced body = true)
    (split : splitTop ',' body = .ok items) (place : cur.offset = size q) :
    (Source.ofText (q ++ ('(' :: body ++ ')' :: rest))).list cur = .ok (some items) := by
  have found : matchingParen? (q ++ ('(' :: body ++ ')' :: rest)) (size q) = some (size q + 1 + size body) := by
    rw [matchingParen?, cut_size]
    dsimp only
    rw [parenBody_of_isBalanced balanced]
    rfl
  have inner : slice (size q + 1) (size q + 1 + size body) (q ++ ('(' :: body ++ ')' :: rest)) = .ok body := by
    have cut := slice_append (q ++ ['(']) body (')' :: rest)
    have paren : size ['('] = 1 := by decide
    simp only [size_append, paren] at cut
    simpa using cut
  have text : (Source.ofText (q ++ ('(' :: body ++ ')' :: rest))).text = q ++ ('(' :: body ++ ')' :: rest) := rfl
  rw [Source.list, text, place, found]
  dsimp only
  rw [inner]
  change (splitTop ',' body >>= fun items => pure (some items)) = _
  rw [split]
  rfl

/-! ## Insertions -/

/-- An insertion up to its values, with the text between the parentheses of its columns. -/
def columnsText (t columns : Text) : Text :=
  "INSERT".toList ++ ' ' :: ("INTO".toList ++ ' ' :: (t ++ ' ' :: ('(' :: columns ++ [')'])))

/-- An insertion with the texts between its parentheses. -/
def rowText (t columns values : Text) : Text :=
  columnsText t columns ++ ' ' :: ("VALUES".toList ++ ' ' :: ('(' :: values ++ [')']))

/-- A row of values for the columns of a table. -/
def insertText (t : Text) (cs vs : List Text) : Text := rowText t (Text.join ", " cs) (Text.join ", " vs)

/-- The mask shows the parentheses of a list with spaces between them. -/
theorem mask_list {body : Text} (balanced : isBalanced body = true) :
    mask .nested ('(' :: body ++ [')']) = '(' :: (List.replicate (size body) ' ' ++ [')']) := mask_parens balanced

section Row

variable {t x columns values : Text} (spelled : IsSpelled t x) (balanced : isBalanced columns = true)
include spelled balanced

omit balanced in
theorem plain_lead : Plain ("INSERT".toList ++ ' ' :: ("INTO".toList ++ ' ' :: (x ++ [' ']))) := by
  exact plain_append.2 ⟨by decide, plain_cons.2 ⟨by decide, plain_append.2 ⟨by decide, plain_cons.2
    ⟨by decide, plain_append.2 ⟨spelled.plain, by decide⟩⟩⟩⟩⟩

theorem isClosed_columnsText : isClosed (columnsText x columns) = true := by
  have plain := plain_lead spelled
  have text : columnsText x columns =
      "INSERT".toList ++ ' ' :: ("INTO".toList ++ ' ' :: (x ++ [' '])) ++ ('(' :: columns ++ [')']) := three_words _ _ _ _
  rw [text]
  exact isClosed_append plain.isClosed (isClosed_of_isBalanced (isBalanced_parens balanced)) plain.apart_left

theorem mask_columnsText : mask .nested (columnsText x columns) =
    columnsText x (List.replicate (size columns) ' ') := by
  have plain := plain_lead spelled
  have text (body : Text) : columnsText x body =
      "INSERT".toList ++ ' ' :: ("INTO".toList ++ ' ' :: (x ++ [' '])) ++ ('(' :: body ++ [')']) := three_words _ _ _ _
  rw [text, mask_plain_append _ plain, mask_list balanced, text]
  rfl

variable (balanced' : isBalanced values = true)
include balanced'

theorem mask_rowText : mask .nested (rowText x columns values) =
    rowText x (List.replicate (size columns) ' ') (List.replicate (size values) ' ') := by
  have plain : Plain (' ' :: ("VALUES".toList ++ [' '])) := by decide
  have text (body : Text) : ' ' :: ("VALUES".toList ++ ' ' :: ('(' :: body ++ [')'])) =
      ' ' :: ("VALUES".toList ++ [' ']) ++ ('(' :: body ++ [')']) := two_words [] _ _
  rw [rowText, mask_append _ (isClosed_columnsText spelled balanced) (apart_of_head (by decide)),
    mask_columnsText spelled balanced, text, mask_plain_append _ plain, mask_list balanced', rowText, text]
  rfl

end Row

/-- Nothing is shown of a list but its parentheses. -/
theorem not_hasWord_list {w : Text} (lower : isLowerWord w = true) (n : Nat) :
    ¬ HasWord w ('(' :: (List.replicate n ' ' ++ [')'])) := by
  have space : isWord ' ' = false := not_isWord_of_isBlank (by decide)
  have first : isWord '(' = false := by decide
  have last : isWord ')' = false := by decide
  exact not_hasWord_of_edges lower (by simp [space, first, last])

/-- A keyword that is shown in an insertion is one of its own. -/
theorem not_hasWord_columnsText {t x : Text} (spelled : IsSpelled t x) {w : String} (listed : w ∈ keywords)
    (lower : isLowerWord w.toList = true)
    (other : Scan.occurs (Scan.word w.toList) ("INSERT".toList ++ ' ' :: ("INTO".toList ++ [' '])) = false) (n : Nat) :
    ¬ HasWord w.toList (columnsText x (List.replicate n ' ')) := by
  have text : columnsText x (List.replicate n ' ') = "INSERT".toList ++ ' ' :: ("INTO".toList ++ [' ']) ++
      (x ++ ([' '] ++ '(' :: (List.replicate n ' ' ++ [')']))) := two_words _ _ _
  intro has
  rw [text] at has
  rcases hasWord_append lower (.inl (by decide)) has with words | has
  · rw [← occurs_word_iff lower, other] at words
    cases words
  · rcases hasWord_append lower (parted_of_head (by decide)) has with name | has
    · exact spelled.not_hasWord listed name
    · rcases hasWord_append (u := [' ']) lower (.inl (by decide)) has with space | list
      · exact not_hasWord_of_edges lower (by decide) space
      · exact not_hasWord_list lower n list

/-- The words of an insertion show none of the other keywords. -/
theorem occurs_ownWords : ∀ w ∈ keywords, isLowerWord w.toList = true ∧ (w ∉ ["insert", "into", "values"] →
    Scan.occurs (Scan.word w.toList) ("INSERT".toList ++ ' ' :: ("INTO".toList ++ [' '])) = false ∧
    Scan.occurs (Scan.word w.toList) (' ' :: ("VALUES".toList ++ [' '])) = false) := by
  decide +kernel

section Insert

variable {t x columns values : Text}

theorem rowText_eq (x columns values : Text) :
    rowText x columns values = "INSERT".toList ++ ' ' :: ("INTO".toList ++ ' ' :: (x ++ ' ' ::
      ('(' :: columns ++ ')' :: ' ' :: ("VALUES".toList ++ ' ' :: ('(' :: values ++ [')']))))) := by
  have moved (a b y : Text) : a ++ ' ' :: (b ++ ' ' :: (x ++ ' ' :: ('(' :: columns ++ [')']))) ++ y =
      a ++ ' ' :: (b ++ ' ' :: (x ++ ' ' :: ('(' :: columns ++ ')' :: y))) := by simp
  exact moved _ _ _

variable (spelled : IsSpelled t x) (balanced : isBalanced columns = true)
include spelled balanced

/-- What is shown behind the first word of an insertion. -/
theorem mask_into (rest : Text) : ∃ more, mask .nested ("INTO".toList ++ ' ' :: (x ++ ' ' :: ('(' :: columns ++ ')' :: rest))) =
    "INTO".toList ++ ' ' :: (x ++ ' ' :: '(' :: more) := by
  have plain : Plain ("INTO".toList ++ ' ' :: (x ++ [' '])) :=
    plain_append.2 ⟨by decide, plain_cons.2 ⟨by decide, plain_append.2 ⟨spelled.plain, by decide⟩⟩⟩
  have text (rest : Text) : "INTO".toList ++ ' ' :: (x ++ ' ' :: rest) = "INTO".toList ++ ' ' :: (x ++ [' ']) ++ rest :=
    two_words _ _ _
  rw [text, mask_plain_append _ plain, mask_parens balanced, List.cons_append, ← text]
  exact ⟨_, rfl⟩

/-- A pattern that starts with `INTO` is found behind the first word. -/
theorem exists_find_into {α : Type} {p : Scan α} {P : Text → α → Prop} (opens : Opens p ["into".toList])
    (fits : ∀ before more, before.getLast?.any isWord = false →
      ∃ a stop, p (between before ("INTO".toList ++ ' ' :: (x ++ ' ' :: '(' :: more))) = some (a, stop) ∧ P before a)
    (values : Text) :
    ∃ hit, (Source.ofText (rowText x columns values)).find p = some hit ∧ P ("INSERT".toList ++ [' ']) hit.value := by
  obtain ⟨more, shown⟩ := mask_into spelled balanced (' ' :: ("VALUES".toList ++ ' ' :: ('(' :: values ++ [')'])))
  obtain ⟨a, stop, found, value⟩ := fits ("INSERT".toList ++ [' ']) more (by decide)
  have word : Plain "INSERT".toList := by decide
  rw [← shown, ← word.mask .nested] at found
  have here := find_after (starts_of_opens opens) (by decide) (Key.not_begins_of_all (by decide) (by decide)) word.isClosed found
  rw [← rowText_eq] at here
  exact ⟨_, here, value⟩

/-- The columns of an insertion are read back. -/
theorem insertColumns_rowText {cs : List Text} (split : splitTop ',' columns = .ok cs) (values : Text) :
    (Source.ofText (rowText x columns values)).insertColumns =
      .ok (cs.map fun c => { name := stripBackticks c, table := none }) := by
  obtain ⟨hit, found, place⟩ := exists_find_into (P := fun before cur =>
    cur.offset = size (before ++ ("INTO".toList ++ [' ']) ++ x ++ [' '])) spelled balanced opens_insertColumns (by
      intro before more left
      obtain ⟨ticked, rfl⟩ := spelled.marks
      obtain ⟨stop, fits⟩ := insertColumns_between left (isTableWord_of_isFreeName spelled.free) ticked
      exact ⟨_, stop, fits, rfl⟩) values
  have text : rowText x columns values = "INSERT".toList ++ [' '] ++ ("INTO".toList ++ [' ']) ++ x ++ [' '] ++
      ('(' :: columns ++ ')' :: ' ' :: ("VALUES".toList ++ ' ' :: ('(' :: values ++ [')']))) := by
    have moved (a b y : Text) : a ++ ' ' :: (b ++ ' ' :: (x ++ ' ' :: y)) = a ++ [' '] ++ (b ++ [' ']) ++ x ++ [' '] ++ y := by
      simp
    exact (rowText_eq x columns values).trans (moved _ _ _)
  have items : (Source.ofText (rowText x columns values)).list hit.value = .ok (some cs) := by
    rw [text]
    exact list_parens balanced split place
  rw [Source.insertColumns, found]
  dsimp only
  rw [items]
  rfl

variable (balanced' : isBalanced values = true)
include balanced'

/-- The only keywords that are shown in an insertion are its own. -/
theorem not_hasWord_rowText {w : String} (listed : w ∈ keywords) (other : w ∉ ["insert", "into", "values"]) :
    ¬ HasWord w.toList (mask .nested (rowText x columns values)) := by
  obtain ⟨lower, absent⟩ := occurs_ownWords w listed
  have absent := absent other
  rw [mask_rowText spelled balanced balanced']
  intro has
  rcases hasWord_append lower (parted_of_head (by decide)) has with front | row
  · exact not_hasWord_columnsText spelled listed lower absent.1 _ front
  · have text (n : Nat) : ' ' :: ("VALUES".toList ++ ' ' :: ('(' :: List.replicate n ' ' ++ [')'])) =
        ' ' :: ("VALUES".toList ++ [' ']) ++ '(' :: (List.replicate n ' ' ++ [')']) := two_words [] _ _
    rw [text] at row
    rcases hasWord_append lower (.inl (by decide)) row with word | list
    · rw [← occurs_word_iff lower, absent.2] at word
      cases word
    · exact not_hasWord_list lower _ list

/-- The table of an insertion is read back. -/
theorem main_rowText : (Source.ofText (rowText x columns values)).main? = some ⟨t, none⟩ := by
  have absent : (Source.ofText (rowText x columns values)).find fromTable = none := by
    refine find_absent (starts_of_opens opens_fromTable) (by decide) ?_
    rw [List.map_singleton, List.forall_mem_singleton]
    exact not_hasWord_rowText spelled balanced balanced' (w := "from") (by decide) (by decide)
  obtain ⟨hit, found, value⟩ := exists_find_into (P := fun _ name => name = t) spelled balanced opens_intoTable (by
    intro before more left
    obtain ⟨ticked, rfl⟩ := spelled.marks
    obtain ⟨stop, fits⟩ := intoTable_between left (isTableWord_of_isFreeName spelled.free) ticked (.inr ⟨'(' :: more, rfl⟩)
    exact ⟨t, stop, fits, rfl⟩) values
  rw [Source.main?, absent, found]
  exact congrArg (fun name => (some ⟨name, none⟩ : Option Table)) value

/-- An insertion has no joins. -/
theorem joins_rowText : (Source.ofText (rowText x columns values)).joins = .ok [] :=
  joins_absent (not_hasWord_rowText spelled balanced balanced' (w := "join") (by decide) (by decide))

/-- An insertion has none of the clauses of a selection. -/
theorem lacksClauses_rowText : LacksClauses (rowText x columns values) := by
  have absent {w : String} (listed : w ∈ keywords) (other : w ∉ ["insert", "into", "values"]) :=
    not_hasWord_rowText spelled balanced balanced' listed other
  refine lacksClauses ?_
  intro k mem has
  simp only [laterKeys, List.mem_cons, List.not_mem_nil, or_false] at mem
  rcases mem with rfl | rfl | rfl | rfl
  · exact absent (w := "group") (by decide) (by decide) has.begins
  · exact absent (w := "having") (by decide) (by decide) has
  · exact absent (w := "order") (by decide) (by decide) has.begins
  · exact absent (w := "limit") (by decide) (by decide) has

/-- The values of an insertion are read back. -/
theorem values_rowText {vs : List Text} (split : splitTop ',' values = .ok vs) :
    (Source.ofText (rowText x columns values)).values = .ok (some vs) := by
  have lower : isLowerWord "values".toList = true := by decide
  have shown : mask .nested ("VALUES".toList ++ ' ' :: ('(' :: values ++ [')'])) =
      "VALUES".toList ++ ' ' :: '(' :: (List.replicate (size values) ' ' ++ [')']) := by
    rw [mask_keyword (by decide), mask_list balanced']
  have left : (mask .nested (columnsText x columns) ++ [' ']).getLast?.any isWord = false := by
    rw [List.getLast?_concat]
    exact not_isWord_of_isBlank (by decide)
  have fits := @values_between _ (List.replicate (size values) ' ' ++ [')']) left
  rw [← shown] at fits
  have silent : ∀ k ∈ ["values".toList].map Key.word, ¬ k.Begins (mask .nested (columnsText x columns)) := by
    rw [mask_columnsText spelled balanced, List.map_singleton, List.forall_mem_singleton]
    exact not_hasWord_columnsText spelled (by decide : "values" ∈ keywords) lower (by decide) _
  have found := find_after (starts_of_opens opens_values) (by decide) silent (isClosed_columnsText spelled balanced) fits
  have place : size (mask .nested (columnsText x columns) ++ [' '] ++ "VALUES".toList ++ [' ']) =
      size (columnsText x columns ++ [' '] ++ "VALUES".toList ++ [' ']) := by
    simp only [size_append, size_mask]
  have text : columnsText x columns ++ ' ' :: ("VALUES".toList ++ ' ' :: ('(' :: values ++ [')'])) =
      columnsText x columns ++ [' '] ++ "VALUES".toList ++ [' '] ++ ('(' :: values ++ [')']) := by
    have moved (a b x : Text) : a ++ ' ' :: (b ++ ' ' :: x) = a ++ [' '] ++ b ++ [' '] ++ x := by simp
    exact moved _ _ _
  rw [Source.values, rowText, found, text]
  exact list_parens balanced' split place

end Insert

/-- An insertion ends with a parenthesis, so nothing is taken away from its end. -/
theorem strip_rowText (x columns values : Text) : strip (rowText x columns values) = rowText x columns values := by
  have text : rowText x columns values =
      columnsText x columns ++ ' ' :: ("VALUES".toList ++ ' ' :: ('(' :: values)) ++ [')'] := by
    have moved (a b x : Text) : a ++ ' ' :: (b ++ ' ' :: ('(' :: x ++ [')'])) = a ++ ' ' :: (b ++ ' ' :: '(' :: x) ++ [')'] := by
      simp
    exact moved _ _ _
  have last : (rowText x columns values).getLast? = some ')' := by rw [text, List.getLast?_concat]
  refine strip_eq_self (trim_eq_self rfl ?_) ?_
  · rw [last]
    decide
  · rw [last]
    decide

/-- A name is read from a list as it stands. -/
theorem isItem_of_isFreeName {name : Text} (free : isFreeName name = true) : IsItem name :=
  (isWrittenItem_of_isFreeName free).isItem

/-- A row of values for the columns of a table. -/
def insertion (t : Text) (cs vs : List Text) : Statement :=
  { kind := .insert
    main := some ⟨t, none⟩
    columns := cs.map fun c => { name := c, table := none }
    values := some vs }

/-- **An insertion is read back**, and nothing else is read from it. -/
theorem parse_insertion {t x : Text} {cs vs : List Text} (spelled : IsSpelled t x) (columns : ∀ c ∈ cs, isFreeName c = true)
    (values : ∀ v ∈ vs, IsItem v ∧ isBalanced v = true) : parse (insertText x cs vs) = .ok (insertion t cs vs) := by
  have balanced : isBalanced (Text.join ", " cs) = true :=
    isBalanced_join fun c mem => (isWrittenItem_of_isFreeName (columns c mem)).plain.isBalanced
  have balanced' : isBalanced (Text.join ", " vs) = true := isBalanced_join fun v mem => (values v mem).2
  have split : splitTop ',' (Text.join ", " cs) = .ok cs := by
    have parts := splitTop_join blank_nil blank_nil fun c mem => isItem_of_isFreeName (columns c mem)
    simpa using parts
  have split' : splitTop ',' (Text.join ", " vs) = .ok vs := by
    have parts := splitTop_join blank_nil blank_nil fun v mem => (values v mem).1
    simpa using parts
  have names : cs.map (fun c => ({ name := stripBackticks c, table := none } : Column)) =
      cs.map fun c => { name := c, table := none } := by
    apply List.map_congr_left
    intro c mem
    rw [stripBackticks_eq_self (not_mem_of_isFreeName (columns c mem) (by decide))]
  have unconditional : ¬ (Key.word "where").Occurs (mask .nested (insertText x cs vs)) :=
    not_hasWord_rowText spelled balanced balanced' (w := "where") (by decide) (by decide)
  have lacks : LacksClauses (insertText x cs vs) := lacksClauses_rowText spelled balanced balanced'
  have reads : ReadsAs (insertText x cs vs) (insertion t cs vs) := {
    main := main_rowText spelled balanced balanced'
    kind := by
      rw [insertText, rowText_eq]
      exact kindOf_insert _
    columns := by
      rw [insertText, insertion, Source.columns, insertColumns_rowText spelled balanced split, names]
      rfl
    joins := joins_rowText spelled balanced balanced'
    condition := ⟨none, clause_absent (starts_word (by decide)) (by decide) unconditional, rfl⟩
    values := (if_pos rfl).trans (values_rowText spelled balanced balanced' split')
    assignments := rfl
    groupBy := lacks.groupBy
    having := lacks.having
    orderBy := lacks.orderBy
    limit := lacks.limit }
  exact reads.parse rfl (strip_rowText _ _ _)

/-- An insertion is read back with its table, its columns and its values. -/
theorem parse_insertText {t : Text} {cs vs : List Text} (free : isFreeName t = true) (columns : ∀ c ∈ cs, isFreeName c = true)
    (values : ∀ v ∈ vs, IsItem v ∧ isBalanced v = true) :
    ∃ s, parse (insertText t cs vs) = .ok s ∧ s.kind = .insert ∧ s.main = some ⟨t, none⟩ ∧
      s.columns = cs.map (fun c => { name := c, table := none }) ∧ s.values = some vs :=
  ⟨insertion t cs vs, parse_insertion (isSpelled_of_isFreeName free) columns values, rfl, rfl, rfl, rfl⟩

/-! ## Updates -/

/-- An assignment as it is written. -/
def assignmentText (a : Assignment) : Text := a.name ++ (" = ".toList ++ a.value)

/-- An update up to its condition. -/
def setText (t pairs : Text) : Text := "UPDATE".toList ++ ' ' :: (t ++ ' ' :: ("SET".toList ++ ' ' :: pairs))

theorem setText_def (x pairs : Text) :
    setText x pairs = "UPDATE".toList ++ ' ' :: (x ++ ' ' :: ("SET".toList ++ ' ' :: pairs)) := rfl

/-- An update of a table where a condition holds. -/
def updateText (t : Text) (as : List Assignment) (w : Text) : Text :=
  setText t (Text.join ", " (as.map assignmentText)) ++ ' ' :: ("WHERE".toList ++ ' ' :: w)

/-- What the values and the condition of an update do not show. -/
def updateKeys : List Key :=
  [.word "from", .word "into", .word "where", .by "group", .by "order", .word "having", .word "limit", .semicolon]

/-- An assignment that can be written: its name is free, and its value is an item without the keywords of an update. -/
structure IsAssignment (a : Assignment) : Prop where
  name : isFreeName a.name = true
  value : IsItem a.value
  silent : ∀ k ∈ updateKeys, ¬ k.Occurs (mask .nested a.value)

section Assignment

variable {a : Assignment} (written : IsAssignment a)
include written

theorem plain_assigned : Plain (a.name ++ " = ".toList) :=
  plain_append.2 ⟨plain_of_class (by decide) (isWord_of_isFreeName written.name), by decide⟩

theorem mask_assignmentText : mask .nested (assignmentText a) = a.name ++ (" = ".toList ++ mask .nested a.value) := by
  rw [assignmentText, ← List.append_assoc, mask_plain_append _ (plain_assigned written), List.append_assoc]

theorem isItem_assignmentText : IsItem (assignmentText a) := by
  have solid := (isSolid_of_isFreeName written.name).append (isSolid_of_trim written.value.filled written.value.trimmed) " = ".toList
  have plain := plain_assigned written
  refine ⟨solid.filled, solid.trim, ?_, ?_⟩
  · rw [assignmentText, ← List.append_assoc]
    exact isClosed_append plain.isClosed written.value.closed plain.apart_left
  · rw [mask_assignmentText written, List.mem_append, List.mem_append]
    rintro (name | sign | value)
    · exact not_mem_of_isFreeName written.name (by decide) name
    · exact absurd sign (by decide)
    · exact written.value.whole value

/-- An assignment is read back. -/
theorem assignment_assignmentText : assignment? (assignmentText a) = .ok (some a) := by
  have sign : findTop? '=' (assignmentText a) = some (size (a.name ++ [' '])) := by
    have first : '=' ∉ a.name ++ [' '] := by
      rw [List.mem_append]
      rintro (name | space)
      · exact not_mem_of_isFreeName written.name (by decide) name
      · exact absurd space (by decide)
    have found := offsetOf_append first (' ' :: mask .nested a.value)
    have shown : a.name ++ [' '] ++ '=' :: ' ' :: mask .nested a.value = mask .nested (assignmentText a) := by
      rw [mask_assignmentText written]
      simp
    rwa [shown] at found
  have name : cut (size (a.name ++ [' '])) (assignmentText a) = .ok (a.name ++ [' '], '=' :: ' ' :: a.value) := by
    have parts := cut_size (a.name ++ [' ']) ('=' :: ' ' :: a.value)
    simpa [assignmentText] using parts
  have value : cut (size (a.name ++ [' ']) + 1) (assignmentText a) = .ok (a.name ++ [' ', '='], ' ' :: a.value) := by
    have parts := cut_size (a.name ++ [' ', '=']) (' ' :: a.value)
    have wide : size (a.name ++ [' ', '=']) = size (a.name ++ [' ']) + 1 := by
      have paren : size ['='] = 1 := by decide
      rw [← paren, ← size_append, List.append_assoc]
      rfl
    rw [wide] at parts
    simpa [assignmentText] using parts
  have trimName : trim (a.name ++ [' ']) = a.name := by
    have around := trim_append (t := a.name) blank_nil (by decide : Blank [' '])
    rw [List.nil_append] at around
    rw [around, (isSolid_of_isFreeName written.name).trim]
  have trimValue : trim (' ' :: a.value) = a.value := by
    have around := trim_append (t := a.value) (by decide : Blank [' ']) blank_nil
    rw [List.append_nil] at around
    exact Eq.trans around written.value.trimmed
  rw [assignment?, sign]
  dsimp only
  rw [name]
  dsimp only [bind, Except.bind]
  rw [value]
  dsimp only [pure, Except.pure]
  rw [trimName, trimValue, stripBackticks_eq_self (not_mem_of_isFreeName written.name (by decide))]

end Assignment

section Update

variable {t x : Text} {as : List Assignment} (written : ∀ a ∈ as, IsAssignment a)

section Pairs

include written

theorem isItem_pairs : ∀ item ∈ as.map assignmentText, IsItem item := by
  intro item mem
  obtain ⟨a, listed, rfl⟩ := List.mem_map.1 mem
  exact isItem_assignmentText (written a listed)

theorem isClosed_pairs : isClosed (Text.join ", " (as.map assignmentText)) = true :=
  isClosed_join fun item mem => (isItem_pairs written item mem).closed

/-- The assignments show a key only if one of the values does. -/
theorem not_occurs_pairs {k : Key} (mem : k ∈ clauseKeys) (absent : ∀ a ∈ as, ¬ k.Occurs (mask .nested a.value)) :
    ¬ k.Occurs (mask .nested (Text.join ", " (as.map assignmentText))) := by
  have lower := isLower_clauseKeys k mem
  rw [mask_join (fun item mem => (isItem_pairs written item mem).closed)]
  refine Key.not_occurs_of_silent lower (Key.silent_join lower ?_ follows_nil)
  intro shown listed rest follows
  obtain ⟨_, item, rfl⟩ := List.mem_map.1 listed
  obtain ⟨a, assigned, rfl⟩ := List.mem_map.1 item
  have name : ¬ k.Begins a.name := not_begins_of_isFreeName (written a assigned).name mem
  have sign : ¬ k.Begins " = ".toList := Key.not_begins_of_edges lower (by decide) (by decide)
  rw [mask_assignmentText (written a assigned)]
  refine (Key.silent_of_not_begins lower name (parted_of_head (by decide))).append ?_
  refine (Key.silent_of_not_begins lower sign (.inl (by decide))).append ?_
  exact Key.silent_of_not_occurs lower (absent a assigned) follows

theorem mapM_assignment : (as.map assignmentText).mapM assignment? = .ok (as.map some) := by
  induction as with
  | nil => rfl
  | cons a as ih =>
    rw [List.forall_mem_cons] at written
    rw [List.map_cons, List.mapM_cons, assignment_assignmentText written.1]
    change ((as.map assignmentText).mapM assignment? >>= fun found => pure (some a :: found)) = _
    rw [ih written.2]
    rfl

end Pairs

omit written

variable (spelled : IsSpelled t x)
include spelled

theorem plain_setText : Plain ("UPDATE".toList ++ ' ' :: (x ++ ' ' :: ("SET".toList ++ [' ']))) :=
  plain_append.2 ⟨by decide, plain_cons.2 ⟨by decide, plain_append.2 ⟨spelled.plain, by decide⟩⟩⟩

omit spelled in
theorem setText_eq (x pairs : Text) :
    setText x pairs = "UPDATE".toList ++ ' ' :: (x ++ ' ' :: ("SET".toList ++ [' '])) ++ pairs := three_words _ _ _ _

theorem mask_setText (pairs : Text) : mask .nested (setText x pairs) = setText x (mask .nested pairs) := by
  rw [setText_eq, mask_plain_append _ (plain_setText spelled), setText_eq]

theorem isClosed_setText {pairs : Text} (closed : isClosed pairs = true) : isClosed (setText x pairs) = true := by
  have plain := plain_setText spelled
  rw [setText_eq]
  exact isClosed_append plain.isClosed closed plain.apart_left

/-- The words of an update up to its assignments start no clause. -/
theorem not_begins_set {k : Key} (mem : k ∈ clauseKeys) :
    ¬ k.Begins ("UPDATE".toList ++ ' ' :: (x ++ ' ' :: ("SET".toList ++ [' ']))) := by
  have known : ∀ k ∈ clauseKeys, k.begins ("UPDATE".toList ++ [' ']) = false ∧
      k.begins (' ' :: ("SET".toList ++ [' '])) = false := by decide
  obtain ⟨first, second⟩ := known k mem
  have lower := isLower_clauseKeys k mem
  have text (a : Text) : a ++ ' ' :: (x ++ ' ' :: ("SET".toList ++ [' '])) =
      a ++ [' '] ++ (x ++ ' ' :: ("SET".toList ++ [' '])) := by simp
  rw [text]
  intro has
  rcases Key.begins_append lower (.inl (by decide)) has with word | has
  · rw [← Key.begins_iff lower, first] at word
    cases word
  · rcases Key.begins_append lower (parted_of_head (by decide)) has with name | word
    · exact spelled.not_begins mem name
    · rw [← Key.begins_iff lower, second] at word
      cases word

/-- The assignments of an update show no more keys than their texts. -/
theorem silent_setText {pairs rest : Text} {k : Key} (mem : k ∈ clauseKeys) (absent : ¬ k.Occurs (mask .nested pairs))
    (follows : Follows rest) : k.Silent (mask .nested (setText x pairs)) rest := by
  have lower := isLower_clauseKeys k mem
  rw [mask_setText spelled, setText_eq]
  refine (Key.silent_of_not_begins lower (not_begins_set spelled mem) (.inl ?_)).append ?_
  · have text (a b : Text) : a ++ ' ' :: (x ++ ' ' :: (b ++ [' '])) = a ++ ' ' :: (x ++ ' ' :: b) ++ [' '] := by simp
    rw [text, List.getLast?_concat]
    exact not_isWord_of_isBlank (by decide)
  · exact Key.silent_of_not_occurs lower absent follows

variable {pairs y : Text} (closed : isClosed pairs = true) (spaced : Spaced y)

omit spelled in
theorem mask_where (y : Text) : mask .nested (' ' :: ("WHERE".toList ++ y)) = ' ' :: ("WHERE".toList ++ mask .nested y) := by
  have plain : Plain (' ' :: "WHERE".toList) := by decide
  exact mask_plain_append _ plain

include closed

theorem mask_update : mask .nested (setText x pairs ++ ' ' :: ("WHERE".toList ++ y)) =
    mask .nested (setText x pairs) ++ (' ' :: "WHERE".toList ++ mask .nested y) := by
  rw [mask_append _ (isClosed_setText spelled closed) (apart_of_head (by decide)), mask_where]
  rfl

include spaced

/-- The keys that are shown in an update are `WHERE` and those of its assignments and its condition. -/
theorem not_occurs_update {k : Key} (mem : k ∈ clauseKeys) (other : k ≠ .word "where")
    (absent : ¬ k.Occurs (mask .nested pairs)) (absent' : ¬ k.Occurs (mask .nested y)) :
    ¬ k.Occurs (mask .nested (setText x pairs ++ ' ' :: ("WHERE".toList ++ y))) := by
  have known : ∀ k ∈ clauseKeys, k ≠ .word "where" → k.begins (' ' :: "WHERE".toList) = false := by decide
  have lower := isLower_clauseKeys k mem
  have word : ¬ k.Begins (' ' :: "WHERE".toList) := by
    rw [← Key.begins_iff lower, known k mem other]
    exact Bool.false_ne_true
  have follows (t : Text) : Follows (' ' :: "WHERE".toList ++ t) := follows_of_led (by decide : isWord 'W' = true) (by decide) _
  rw [mask_update spelled closed]
  refine Key.not_occurs_of_silent lower ((silent_setText spelled mem absent ?_).append ?_)
  · rw [List.append_nil]
    exact follows _
  · refine (Key.silent_of_not_begins lower word (.inr ?_)).append (Key.silent_of_not_occurs lower absent' follows_nil)
    rw [List.append_nil]
    exact (spaced_mask spaced).edge

/-- The table of an update is read back. -/
theorem main_setText (silent : ∀ k ∈ updateKeys, ¬ k.Occurs (mask .nested pairs))
    (silent' : ∀ k ∈ updateKeys, ¬ k.Occurs (mask .nested y)) :
    (Source.ofText (setText x pairs ++ ' ' :: ("WHERE".toList ++ y))).main? = some ⟨t, none⟩ := by
  have absent (k : Key) (mem : k ∈ clauseKeys) (other : k ≠ .word "where") (listed : k ∈ updateKeys) :=
    not_occurs_update spelled closed spaced mem other (silent k listed) (silent' k listed)
  have noFrom := find_absent (starts_of_opens opens_fromTable) (by decide)
    (List.forall_mem_singleton.2 (absent (.word "from") (by decide) (by decide) (by decide)))
  have noInto := find_absent (starts_of_opens opens_intoTable) (by decide)
    (List.forall_mem_singleton.2 (absent (.word "into") (by decide) (by decide) (by decide)))
  have ends (rest : Text) : EndsTable (' ' :: ("SET".toList ++ ' ' :: rest)) :=
    .inr ⟨"SET".toList, ' ' :: rest, rfl, by decide, by decide, by decide, .inr ⟨rest, rfl⟩⟩
  have moved (a b c z : Text) :
      a ++ ' ' :: (x ++ ' ' :: (b ++ ' ' :: c)) ++ z = a ++ ' ' :: (x ++ ' ' :: (b ++ ' ' :: (c ++ z))) := by simp
  have read : ∃ m stop, updateTable (start (mask .nested (setText x pairs ++ ' ' :: ("WHERE".toList ++ y)))) =
      some (m, stop) ∧ m.table = ⟨t, none⟩ := by
    rw [start_eq, mask_update spelled closed, mask_setText spelled, setText_def, moved]
    obtain ⟨ticked, rfl⟩ := spelled.marks
    exact updateTable_between (isTableWord_of_isFreeName spelled.free) ticked (ends _)
  obtain ⟨m, stop, found, table⟩ := read
  rw [Source.main?, noFrom, noInto]
  exact (congrArg (Option.map _) found).trans (congrArg some table)

/-- The assignments of an update are cut out. -/
theorem set_setText (silent : ∀ k ∈ updateKeys, ¬ k.Occurs (mask .nested pairs)) (filled : pairs ≠ [])
    (trimmed : trim pairs = pairs) :
    (Source.ofText (setText x pairs ++ ' ' :: ("WHERE".toList ++ y))).clause (Scan.word "set") setEnd = .ok (some pairs) := by
  have lower : isLowerWord "set".toList = true := by decide
  have plain : Plain ("UPDATE".toList ++ ' ' :: x) :=
    plain_append.2 ⟨by decide, plain_cons.2 ⟨by decide, spelled.plain⟩⟩
  have absent : ∀ k ∈ [Key.word "set"], ¬ k.Begins (mask .nested ("UPDATE".toList ++ ' ' :: x)) := by
    rw [plain.mask, List.forall_mem_singleton]
    intro has
    have text (a : Text) : a ++ ' ' :: x = a ++ [' '] ++ x := by simp
    rw [text] at has
    rcases hasWord_append lower (.inl (by decide)) has with word | name
    · exact absurd ((occurs_word_iff lower).2 word) (by decide)
    · exact spelled.not_hasWord (by decide : "set" ∈ keywords) name
  have left : (mask .nested ("UPDATE".toList ++ ' ' :: x) ++ [' ']).getLast?.any isWord = false := by
    rw [List.getLast?_concat]
    exact not_isWord_of_isBlank (by decide)
  have fits := reads_word lower (by decide : sameFold "set".toList "SET".toList = true) _
    (mask .nested (pairs ++ ' ' :: ("WHERE".toList ++ y))) left
  rw [← mask_keyword (by decide)] at fits
  have found := find_after (starts_word lower) (by decide) absent plain.isClosed fits
  have led : IsLed (' ' :: ("WHERE".toList ++ y)) := .inr ⟨'W', "HERE".toList ++ y, rfl, by decide, by decide⟩
  have meets : Meets setEnd (' ' :: ("WHERE".toList ++ y)) := by
    refine .inr ⟨"WHERE".toList ++ y, rfl, ?_⟩
    intro before left
    rw [mask_plain_append _ (by decide)]
    exact first_isSome (.head _) (Option.isSome_of_eq_some
      (word_between (by decide) (by decide : sameFold "where".toList "WHERE".toList = true) left (spaced_mask spaced).edge))
  have keys : ∀ k ∈ [Key.word "where", .semicolon], k.isLower = true ∧ ¬ k.Occurs (mask .nested pairs) := by
    have known : ∀ k ∈ [Key.word "where", .semicolon], k.isLower = true ∧ k ∈ updateKeys := by decide
    intro k mem
    exact ⟨(known k mem).1, silent k (known k mem).2⟩
  have front : Plain (' ' :: "SET".toList) := by decide
  have cut := body_spaced plain.isClosed front closed starts_setEnd keys led meets
  have moved (a b c z : Text) :
      a ++ ' ' :: (x ++ ' ' :: (b ++ ' ' :: c)) ++ z = a ++ ' ' :: x ++ ' ' :: (b ++ ' ' :: (c ++ z)) := by simp
  have place (a : Text) : a ++ [' '] ++ "SET".toList = a ++ ' ' :: "SET".toList := by
    rw [List.append_assoc]
    rfl
  rw [List.cons_append, trimmed] at cut
  rw [setText_def, moved, Source.clause, found]
  dsimp only
  rw [place, cut]
  change Except.ok (if pairs.isEmpty then none else some pairs) = _
  rw [if_neg (by simpa using filled)]

/-- The condition of an update is cut out. -/
theorem where_setText (silent : ∀ k ∈ updateKeys, ¬ k.Occurs (mask .nested pairs))
    (silent' : ∀ k ∈ updateKeys, ¬ k.Occurs (mask .nested y)) :
    (Source.ofText (setText x pairs ++ ' ' :: ("WHERE".toList ++ y))).clause (Scan.word "where") whereEnd =
      .ok (if (trim y).isEmpty then none else some (trim y)) := by
  have lower : isLowerWord "where".toList = true := by decide
  have same : sameFold "where".toList "WHERE".toList = true := by decide
  have shown : ¬ (Key.word "where").Occurs (mask .nested (setText x pairs)) :=
    Key.not_occurs_of_silent (k := .word "where") lower (silent_setText spelled (by decide) (silent _ (by decide)) follows_nil)
  have absent : ∀ k ∈ [Key.word "where"], ¬ k.Begins (mask .nested (setText x pairs)) := List.forall_mem_singleton.2 shown
  have left : (mask .nested (setText x pairs) ++ [' ']).getLast?.any isWord = false := by
    rw [List.getLast?_concat]
    exact not_isWord_of_isBlank (by decide)
  have fits := word_between lower same left (spaced_mask spaced).edge
  rw [← mask_plain_append _ (by decide)] at fits
  have found := find_after (starts_word lower) (by decide) absent (isClosed_setText spelled closed) fits
  have known : ∀ k ∈ [Key.by "group", .by "order", .word "having", .word "limit", .semicolon], k ∈ updateKeys := by decide
  have plain : Plain (' ' :: "WHERE".toList) := by decide
  have cut := body_end starts_whereEnd (by decide) (fun k mem => silent' k (known k mem))
    (setText x pairs ++ ' ' :: "WHERE".toList)
  rw [mask_append_plain _ (isClosed_setText spelled closed) plain, List.append_assoc, List.cons_append] at cut
  have place (a : Text) : a ++ [' '] ++ "WHERE".toList = a ++ ' ' :: "WHERE".toList := by
    rw [List.append_assoc]
    rfl
  rw [Source.clause, found]
  dsimp only
  rw [place, cut]
  rfl

/-- An update has none of the clauses of a selection but its condition. -/
theorem lacksClauses_setText (silent : ∀ k ∈ updateKeys, ¬ k.Occurs (mask .nested pairs))
    (silent' : ∀ k ∈ updateKeys, ¬ k.Occurs (mask .nested y)) :
    LacksClauses (setText x pairs ++ ' ' :: ("WHERE".toList ++ y)) := by
  have later : ∀ k ∈ laterKeys, k ∈ clauseKeys ∧ k ≠ .word "where" ∧ k ∈ updateKeys := by decide
  refine lacksClauses ?_
  intro k mem
  obtain ⟨clause, other, listed⟩ := later k mem
  exact not_occurs_update spelled closed spaced clause other (silent k listed) (silent' k listed)

end Update

/-- White space and semicolons are taken away from the end of the condition. -/
theorem strip_updateText (x : Text) (as : List Assignment) (w : Text) :
    strip (updateText x as w) =
      setText x (Text.join ", " (as.map assignmentText)) ++ ' ' :: ("WHERE".toList ++ stripEnd (' ' :: w)) :=
  strip_keyword (b := setText x (Text.join ", " (as.map assignmentText))) (by decide : isBlank 'U' = false)
    (List.cons_ne_nil _ _) (by decide) (' ' :: w)

theorem not_occurs_stripEnd {k : Key} (lower : k.isLower = true) {w : Text} (absent : ¬ k.Occurs (mask .nested w)) :
    ¬ k.Occurs (mask .nested (stripEnd (' ' :: w))) := by
  obtain ⟨trail, split, ends⟩ := exists_stripEnd (' ' :: w)
  intro has
  have shown := occurs_trail has ends
  rw [← split] at shown
  exact not_occurs_space lower absent shown

theorem trim_stripEnd_space (w : Text) : trim (stripEnd (' ' :: w)) = strip w := by
  have around := trim_append (t := w) (by decide : Blank [' ']) blank_nil
  rw [List.append_nil] at around
  rw [trim_stripEnd, strip, strip]
  rw [show trim (' ' :: w) = trim w from around]

/-- An update of a table. -/
def updated (t : Text) (as : List Assignment) (w : Text) : Statement :=
  { kind := .update
    main := some ⟨t, none⟩
    condition := strip w
    assignments := some as }

section Whole

variable {t x w : Text} {as : List Assignment} (spelled : IsSpelled t x) (filled : as ≠ [])
  (written : ∀ a ∈ as, IsAssignment a) (silent : ∀ k ∈ updateKeys, ¬ k.Occurs (mask .nested w))
include spelled filled written silent

/-- **An update is read back**, and nothing else is read from it but the joins that it shows. -/
theorem parse_update {js : List Join} (joins : (Source.ofText (strip (updateText x as w))).joins = .ok js) :
    parse (updateText x as w) = .ok { updated t as w with joins := js } := by
  have items := isItem_pairs written
  have closed := isClosed_pairs written
  have known : ∀ k ∈ updateKeys, k ∈ clauseKeys := by decide
  have hidden (k : Key) (mem : k ∈ updateKeys) :=
    not_occurs_pairs written (known k mem) fun a listed => (written a listed).silent k mem
  have solid : IsSolid (Text.join ", " (as.map assignmentText)) :=
    isSolid_join (by simpa using filled) (fun item mem => isSolid_of_trim (items item mem).filled (items item mem).trimmed) _
  have spaced : Spaced (stripEnd (' ' :: w)) := spaced_stripEnd (.inr ⟨w, rfl⟩)
  have silent' (k : Key) (mem : k ∈ updateKeys) := not_occurs_stripEnd (isLower_clauseKeys k (known k mem)) (silent k mem)
  have split : splitTop ',' (Text.join ", " (as.map assignmentText)) = .ok (as.map assignmentText) := by
    have parts := splitTop_join blank_nil blank_nil items
    simpa using parts
  have lacks := lacksClauses_setText spelled closed spaced hidden silent'
  have stripped := strip_updateText x as w
  rw [stripped] at joins
  have reads : ReadsAs (setText x (Text.join ", " (as.map assignmentText)) ++ ' ' ::
      ("WHERE".toList ++ stripEnd (' ' :: w))) { updated t as w with joins := js } := {
    main := main_setText spelled closed spaced hidden silent'
    kind := by
      have moved (a b y : Text) : a ++ ' ' :: (x ++ b) ++ y = a ++ ' ' :: (x ++ b ++ y) := by simp
      rw [setText_def, moved]
      exact kindOf_update _
    columns := rfl
    joins := joins
    condition := by
      refine ⟨_, where_setText spelled closed spaced hidden silent', ?_⟩
      rw [trim_stripEnd_space]
      by_cases empty : strip w = []
      · rw [empty, updated, empty]
        rfl
      · rw [if_neg (by simpa using empty), Option.getD_some]
        rfl
    values := rfl
    assignments := by
      change Source.assignments _ = .ok (some as)
      rw [Source.assignments, set_setText spelled closed spaced hidden solid.filled solid.trim]
      change (splitTop ',' (Text.join ", " (as.map assignmentText)) >>= fun items =>
        items.mapM assignment? >>= fun pairs => pure (some (pairs.filterMap id))) = _
      rw [split]
      change ((as.map assignmentText).mapM assignment? >>= fun pairs => pure (some (pairs.filterMap id))) = _
      rw [mapM_assignment written]
      change Except.ok (some ((as.map some).filterMap id)) = _
      rw [List.filterMap_map]
      simp
    groupBy := lacks.groupBy
    having := lacks.having
    orderBy := lacks.orderBy
    limit := lacks.limit }
  exact reads.parse rfl stripped

/-- An update that shows no `JOIN` is read back alone. -/
theorem parse_updated (unjoined : ∀ a ∈ as, ¬ HasWord "join" (mask .nested a.value))
    (unjoined' : ¬ HasWord "join" (mask .nested w)) : parse (updateText x as w) = .ok (updated t as w) := by
  have spaced : Spaced (stripEnd (' ' :: w)) := spaced_stripEnd (.inr ⟨w, rfl⟩)
  have shown := not_occurs_update (k := .word "join") spelled (isClosed_pairs written) spaced (by decide) (by decide)
    (not_occurs_pairs written (by decide) unjoined) (not_occurs_stripEnd (by decide) unjoined')
  have joins : (Source.ofText (strip (updateText x as w))).joins = .ok [] := by
    rw [strip_updateText]
    exact joins_absent shown
  exact parse_update spelled filled written silent joins

end Whole

/-- An update is read back with its table, its assignments and its condition. -/
theorem parse_updateText {t w : Text} {as : List Assignment} (free : isFreeName t = true) (filled : as ≠ [])
    (written : ∀ a ∈ as, IsAssignment a) (silent : ∀ k ∈ updateKeys, ¬ k.Occurs (mask .nested w)) :
    ∃ s, parse (updateText t as w) = .ok s ∧ s.kind = .update ∧ s.main = some ⟨t, none⟩ ∧ s.assignments = some as ∧
      s.condition = strip w := by
  obtain ⟨js, joins⟩ := Source.returns_joins (t := strip (updateText t as w))
  exact ⟨_, parse_update (isSpelled_of_isFreeName free) filled written silent joins, rfl, rfl, rfl, rfl⟩

/-- A trimmed condition is kept as it stands: its last character is no semicolon, which would be shown. -/
theorem strip_condition {w : Text} (trimmed : trim w = w) (closed : isClosed w = true)
    (silent : ∀ k ∈ updateKeys, ¬ k.Occurs (mask .nested w)) : strip w = w := by
  refine strip_eq_self trimmed fun last => ?_
  exact silent .semicolon (by decide) (last_mem_mask (by decide) last closed)

/-- **The data of insertions and updates is read back**: the columns and values of a row, and the assignments of an
update in their order with its condition. -/
theorem parse_written_data {t : Text} (free : isFreeName t = true) :
    (∀ cs vs : List Text, (∀ c ∈ cs, isFreeName c = true) → (∀ v ∈ vs, IsItem v ∧ isBalanced v = true) →
      ∃ s, parse (insertText t cs vs) = .ok s ∧ s.kind = .insert ∧ s.main = some ⟨t, none⟩ ∧
        s.columns = cs.map (fun c => { name := c, table := none }) ∧ s.values = some vs) ∧
    ∀ (as : List Assignment) (w : Text), as ≠ [] → (∀ a ∈ as, IsAssignment a) →
      (∀ k ∈ updateKeys, ¬ k.Occurs (mask .nested w)) →
      ∃ s, parse (updateText t as w) = .ok s ∧ s.kind = .update ∧ s.main = some ⟨t, none⟩ ∧ s.assignments = some as ∧
        s.condition = strip w ∧ (trim w = w → isClosed w = true → s.condition = w) := by
  constructor
  · intro cs vs columns values
    exact parse_insertText free columns values
  · intro as w filled written silent
    obtain ⟨s, parsed, kind, main, assigned, condition⟩ := parse_updateText free filled written silent
    refine ⟨s, parsed, kind, main, assigned, condition, ?_⟩
    intro trimmed closed
    rw [condition, strip_condition trimmed closed silent]

/-- Values and a condition with commas, parentheses, equals signs and keywords in their literals and calls. -/
theorem parse_written_data_hidden :
    let cs : List Text := ["name", "note"]
    let vs : List Text := ["'a, b) FROM \\' c'", "f(1, ')')"]
    let as : List Assignment := [⟨"name", "'x = 1, WHERE'"⟩, ⟨"age", "g(age, 1) = 2"⟩]
    let w : Text := "id = (1) AND note = 'a; LIMIT'"
    isFreeName "users" = true ∧
      ((∀ c ∈ cs, isFreeName c = true) ∧ ∀ v ∈ vs, IsItem v ∧ isBalanced v = true) ∧
      (as ≠ [] ∧ (∀ a ∈ as, IsAssignment a) ∧ ∀ k ∈ updateKeys, ¬ k.Occurs (mask .nested w)) ∧
      (∃ s, parse "INSERT INTO users (name, note) VALUES ('a, b) FROM \\' c', f(1, ')'))" = .ok s ∧ s.kind = .insert ∧
        s.main = some ⟨"users", none⟩ ∧ s.columns = [⟨⟨"name", none⟩, none⟩, ⟨⟨"note", none⟩, none⟩] ∧ s.values = some vs) ∧
      ∃ s, parse "UPDATE users SET name = 'x = 1, WHERE', age = g(age, 1) = 2 WHERE id = (1) AND note = 'a; LIMIT'" = .ok s ∧
        s.kind = .update ∧ s.main = some ⟨"users", none⟩ ∧ s.assignments = some as ∧ s.condition = w := by
  intro cs vs as w
  have free : isFreeName "users" = true := by decide
  have columns : ∀ c ∈ cs, isFreeName c = true := by decide
  have values : ∀ v ∈ vs, IsItem v ∧ isBalanced v = true := by
    rw [List.forall_mem_cons, List.forall_mem_singleton]
    exact ⟨⟨⟨by decide, by decide, by decide, by decide⟩, by decide⟩, ⟨by decide, by decide, by decide, by decide⟩, by decide⟩
  have lower : ∀ k ∈ updateKeys, k.isLower = true := by decide
  have written : ∀ a ∈ as, IsAssignment a := by
    rw [List.forall_mem_cons, List.forall_mem_singleton]
    constructor
    · exact ⟨by decide, ⟨by decide, by decide, by decide, by decide⟩, Key.not_occurs_of_all lower (by decide +kernel)⟩
    · exact ⟨by decide, ⟨by decide, by decide, by decide, by decide⟩, Key.not_occurs_of_all lower (by decide +kernel)⟩
  have silent : ∀ k ∈ updateKeys, ¬ k.Occurs (mask .nested w) := Key.not_occurs_of_all lower (by decide +kernel)
  obtain ⟨insert, update⟩ := parse_written_data free
  obtain ⟨s, parsed, kind, main, assigned, _, condition⟩ := update as w (by decide) written silent
  refine ⟨free, ⟨columns, values⟩, ⟨by decide, written, silent⟩, insert cs vs columns values, ?_⟩
  exact ⟨s, parsed, kind, main, assigned, condition (by decide) (by decide)⟩

/-- A condition that ends inside a literal loses the semicolon at its end, though it is hidden, and any condition loses
the white space around it. -/
theorem parse_written_data_unclosed :
    let as : List Assignment := [⟨"a", "1"⟩]
    let w : Text := "note = 'x;"
    let w' : Text := " b = 2 "
    (isFreeName "t" = true ∧ as ≠ [] ∧ ∀ a ∈ as, IsAssignment a) ∧
      ((∀ k ∈ updateKeys, ¬ k.Occurs (mask .nested w)) ∧ ∀ k ∈ updateKeys, ¬ k.Occurs (mask .nested w')) ∧
      (updateText "t" as w = "UPDATE t SET a = 1 WHERE note = 'x;".toList ∧
        ∃ s, parse (updateText "t" as w) = .ok s ∧ s.condition = "note = 'x".toList ∧ s.condition ≠ w) ∧
      updateText "t" as w' = "UPDATE t SET a = 1 WHERE  b = 2 ".toList ∧
        ∃ s, parse (updateText "t" as w') = .ok s ∧ s.condition = "b = 2".toList ∧ s.condition ≠ w' := by
  intro as w w'
  have free : isFreeName "t" = true := by decide
  have lower : ∀ k ∈ updateKeys, k.isLower = true := by decide
  have written : ∀ a ∈ as, IsAssignment a := by
    rw [List.forall_mem_singleton]
    exact ⟨by decide, ⟨by decide, by decide, by decide, by decide⟩, Key.not_occurs_of_all lower (by decide +kernel)⟩
  have silent : ∀ k ∈ updateKeys, ¬ k.Occurs (mask .nested w) := Key.not_occurs_of_all lower (by decide +kernel)
  have silent' : ∀ k ∈ updateKeys, ¬ k.Occurs (mask .nested w') := Key.not_occurs_of_all lower (by decide +kernel)
  have read {v : Text} (quiet : ∀ k ∈ updateKeys, ¬ k.Occurs (mask .nested v)) (changed : strip v ≠ v) :
      ∃ s, parse (updateText "t" as v) = .ok s ∧ s.condition = strip v ∧ s.condition ≠ v := by
    obtain ⟨s, parsed, -, -, -, condition⟩ := parse_updateText free (by decide) written quiet
    exact ⟨s, parsed, condition, condition ▸ changed⟩
  refine ⟨⟨free, by decide, written⟩, ⟨silent, silent'⟩, ⟨rfl, ?_⟩, rfl, ?_⟩
  · exact read silent (by decide)
  · exact read silent' (by decide)

end Statement
end QueryCode
