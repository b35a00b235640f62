import QueryCode.Proofs.Statement.RoundTrip

/-!
# `OFFSET` in front of `LIMIT`

An offset is looked for in the whole statement, so a limit has it wherever it stands. But of the patterns that end a
clause only that of `ORDER BY` lists `OFFSET`. If another clause, or the condition of a join, is the last one in front
of the offset, then its text goes on to `LIMIT`: the offset is read, and it is a part of that clause as well. So the order
of the two matters unless the selection is sorted, or has nothing behind its table: `parse_offsetFirst`.
-/

namespace QueryCode
set_option autoImplicit false

open Text Text.Scan Text.Cursor Pattern

namespace Pattern

/-- The count of an offset is read wherever it stands. -/
theorem offset_digits {before rest : Text} {m : Nat} (left : before.getLast?.any isWord = false)
    (ends : rest.head?.any isDigit = false) :
    ∃ stop, offset (between before ("OFFSET".toList ++ ' ' :: (digits m ++ rest))) = some (digits m, stop) := by
  have lower : isLowerWord "offset".toList = true := by decide
  have same : sameFold "offset".toList "OFFSET".toList = true := by decide
  have count := isCount_digits m
  exact ⟨_, (keyword_space lower same left (not_isBlank_of_isCount count rest)).trans (run1_count count ends)⟩

end Pattern

namespace Statement

/-! ## The two orders -/

/-- A count with its offset behind it. -/
def limitFirst (n m : Nat) : Text := " LIMIT ".toList ++ (digits n ++ (" OFFSET ".toList ++ digits m))

/-- A count with its offset in front of it. -/
def offsetFirst (n m : Nat) : Text := " OFFSET ".toList ++ (digits m ++ (" LIMIT ".toList ++ digits n))

theorem limitFirst_eq (n m : Nat) : limitFirst n m = limitClause (some ⟨n, some m⟩) := by
  have text : limitClause (some ⟨n, some m⟩) = ' ' :: ("LIMIT".toList ++ ' ' :: limitText ⟨n, some m⟩) :=
    clauseText_of_ne_nil (isSolid_limitText _).filled
  exact text.symm

theorem offsetFirst_eq (n m : Nat) : offsetFirst n m = offsetText (some m) ++ limitClause (some ⟨n, none⟩) := by
  have text : limitClause (some ⟨n, none⟩) = ' ' :: ("LIMIT".toList ++ ' ' :: (digits n ++ [])) :=
    clauseText_of_ne_nil (isSolid_limitText _).filled
  rw [text, List.append_nil]
  exact (List.append_assoc " OFFSET ".toList (digits m) (" LIMIT ".toList ++ digits n)).symm

theorem isPart_offsetText (m : Nat) : IsPart [.word "offset"] (offsetText (some m)) := by
  refine ⟨isQuiet_of_plain (plain_offsetText m) ?_, isLed_of_isLeading (by decide : isLeading "OFFSET".toList = true) _⟩
  intro k mem other
  exact not_begins_offsetText mem (by simpa using other) m

/-- **An offset in front of its count is found.** -/
theorem limit_offsetFirst {u : Text} {own : List Key} {n m : Nat} (others : .word "limit" ∉ own ∧ .word "offset" ∉ own)
    (before : IsQuiet own u) (small : n ≤ maxCount) (small' : m ≤ maxCount) :
    (Source.ofText (u ++ offsetFirst n m)).limit? = some ⟨n, some m⟩ := by
  have left (v : Text) : (v ++ [' ']).getLast?.any isWord = false := by
    rw [List.getLast?_concat]
    exact not_isWord_of_isBlank (by decide)
  have offset := isPart_offsetText m
  have starts : Starts Pattern.limit [.word "limit"] := starts_of_opens opens_limit
  have starts' : Starts Pattern.offset [.word "offset"] := starts_of_opens opens_offset
  have text : u ++ offsetFirst n m = u ++ offsetText (some m) ++ ' ' :: ("LIMIT".toList ++ ' ' :: digits n) := by
    rw [List.append_assoc]
    exact congrArg (u ++ ·) (List.append_assoc " OFFSET ".toList (digits m) (" LIMIT ".toList ++ digits n)).symm
  have text' : u ++ offsetFirst n m =
      u ++ ' ' :: ("OFFSET".toList ++ ' ' :: (digits m ++ (" LIMIT ".toList ++ digits n))) := rfl
  have count : ∃ hit, (Source.ofText (u ++ offsetFirst n m)).find Pattern.limit = some hit ∧
      hit.value = (digits n, none, none) := by
    have plain : Plain ("LIMIT".toList ++ ' ' :: digits n) :=
      plain_append.2 ⟨by decide, plain_cons.2 ⟨by decide, plain_digits n⟩⟩
    obtain ⟨stop, fits⟩ := limit_between (n := n) none (left (mask .nested (u ++ offsetText (some m))))
    rw [show offsetText none = [] from rfl, List.append_nil, ← plain.mask .nested] at fits
    rw [text]
    exact ⟨_, find_keyword starts (by simpa [clauseKeys] using others.1) (before.append offset.toIsQuiet offset.led)
      (isLed_of_isLeading (by decide : isLeading "LIMIT".toList = true) _) fits, rfl⟩
  have found : ∃ hit, (Source.ofText (u ++ offsetFirst n m)).find Pattern.offset = some hit ∧ hit.value = digits m := by
    have ends : (" LIMIT ".toList ++ digits n).head?.any isDigit = false := by
      exact (by decide : isDigit ' ' = false)
    have plain : Plain ("OFFSET".toList ++ ' ' :: (digits m ++ (" LIMIT ".toList ++ digits n))) :=
      plain_append.2 ⟨by decide, plain_cons.2 ⟨by decide, plain_append.2 ⟨plain_digits m,
        plain_append.2 ⟨by decide, plain_digits n⟩⟩⟩⟩
    obtain ⟨stop, fits⟩ := offset_digits (m := m) (left (mask .nested u)) ends
    rw [← plain.mask .nested] at fits
    rw [text']
    exact ⟨_, find_keyword starts' (by simpa [clauseKeys] using others.2) before
      (isLed_of_isLeading (by decide : isLeading "OFFSET".toList = true) _) fits, rfl⟩
  obtain ⟨hit, here, counts⟩ := count
  obtain ⟨hit', there, value⟩ := found
  rw [Source.limit?, here, there, Option.map_some, Option.map_some, counts, value]
  dsimp only
  rw [rowCount_digits small, rowCount_digits small']
  rfl

/-! ## What an offset does to the clause in front of it -/

/-- A clause that ends with an offset. It shows `OFFSET`, which does not end it. -/
theorem isClauseText_offset {t : Text} (text : IsClauseText textKeys t) (m : Nat) :
    IsClauseText bodyKeys (t ++ offsetText (some m)) := by
  have plain := plain_offsetText m
  have known : ∀ k ∈ bodyKeys, k ∈ textKeys ∧ k ∈ clauseKeys ∧ k ≠ .word "offset" := by decide
  refine ⟨text.solid.append (isSolid_digits m) " OFFSET ".toList, ?_, ?_⟩
  · exact isClosed_append text.closed plain.isClosed plain.apart_right
  · intro k mem
    obtain ⟨listed, mem, other⟩ := known k mem
    have lower := isLower_clauseKeys k mem
    have follows := (isPart_offsetText m).led.follows follows_nil
    rw [plain.mask] at follows
    rw [mask_append_plain _ text.closed plain]
    apply Key.not_occurs_of_silent lower
    refine (Key.silent_of_not_occurs lower (text.silent k listed) follows).append ?_
    exact Key.silent_of_not_begins lower (not_begins_offsetText mem other m) (parted_nil _)

theorem not_mem_offsetText {c : Char} (mark : isWord c = false) (solid : c ≠ ' ') (m : Nat) : c ∉ offsetText (some m) := by
  have words : " OFFSET ".toList.all (fun d => isWord d || d == ' ') = true := by decide
  rw [show offsetText (some m) = " OFFSET ".toList ++ digits m from rfl, List.mem_append]
  rintro (word | digit)
  · have either := List.all_eq_true.1 words c word
    rw [mark, Bool.false_or, beq_iff_eq] at either
    exact solid either
  · rw [isWord_digits m c digit] at mark
    cases mark

/-- An item that ends with an offset is one item. -/
theorem isItem_offset {t : Text} (item : IsWrittenItem t) (m : Nat) : IsItem (t ++ offsetText (some m)) := by
  have plain := plain_offsetText m
  have closed := item.isItem.closed
  refine ⟨List.append_ne_nil_of_left_ne_nil item.solid.filled _, ?_, isClosed_append closed plain.isClosed plain.apart_right, ?_⟩
  · exact (item.solid.append (isSolid_digits m) " OFFSET ".toList).trim
  · rw [mask_append_plain _ closed plain, List.mem_append, not_or]
    exact ⟨item.isItem.whole, not_mem_offsetText (by decide) (by decide) m⟩

theorem join_concat_append (items : List Text) (t x : Text) :
    Text.join ", " (items ++ [t ++ x]) = Text.join ", " (items ++ [t]) ++ x := by
  induction items with
  | nil => rw [List.nil_append, List.nil_append, join_singleton, join_singleton]
  | cons item items ih =>
    cases items with
    | nil => simp [join_cons_cons, join_singleton]
    | cons next items =>
      rw [List.cons_append, List.cons_append] at ih
      simp only [List.cons_append, join_cons_cons, ih, List.append_assoc]

/-- The list with its last element changed. -/
def mapLast {α : Type} (f : α → α) (l : List α) : List α := l.dropLast ++ (l.getLast?.map f).toList

theorem mapLast_concat {α : Type} (f : α → α) (l : List α) (a : α) : mapLast f (l ++ [a]) = l ++ [f a] := by
  simp [mapLast]

/-- A selection that has taken the text behind it for a part of its last clause. Only `ORDER BY` does not take it. -/
def absorb (x : Text) (s : Statement) : Statement :=
  if s.orderBy ≠ [] then s
  else if s.having ≠ none then { s with having := s.having.map (· ++ x) }
  else if s.groupBy ≠ [] then { s with groupBy := mapLast (fun c => ⟨c.qualified ++ x, none⟩) s.groupBy }
  else if s.condition ≠ [] then { s with condition := s.condition ++ x }
  else { s with joins := mapLast (fun j => { j with on := j.on ++ x }) s.joins }

/-- The selection is sorted, or has nothing behind its table: no clause takes what follows it. -/
def IsShut (s : Statement) : Prop :=
  s.orderBy ≠ [] ∨ s.joins = [] ∧ s.condition = [] ∧ s.groupBy = [] ∧ s.having = none

theorem clauseText_append {keyword body : Text} (filled : body ≠ []) (x : Text) :
    clauseText keyword body ++ x = clauseText keyword (body ++ x) := by
  rw [clauseText_of_ne_nil filled, clauseText_of_ne_nil (List.append_ne_nil_of_left_ne_nil filled x)]
  simp

section Read

variable {s : Statement} (select : IsSelect s) (unlimited : s.limit = none) {n m : Nat} (small : n ≤ maxCount)
  (small' : m ≤ maxCount)
include select unlimited small small'

/-- The selection is read from any joins and clauses that make up its text. -/
theorem parse_resection {ps : List Piece} {c : Clauses}
    (text : piecesText (s.joins.map (Piece.ofJoin false)) ++ (s.clauses (offsetFirst n m)).text = piecesText ps ++ c.text)
    (joins : ∀ p ∈ ps, p.IsJoin bodyKeys) (written : c.IsWritten) (ended : ps ≠ [] → c.Ends)
    (ends : EndsTable (mask .nested c.tail)) :
    parse (selectText s ++ offsetFirst n m) = .ok
      { s with
        joins := ps.map Piece.read
        condition := c.condition
        groupBy := c.groups.map columnName
        having := if c.having.isEmpty then none else some c.having
        orderBy := c.order.filterMap orderTerm?
        limit := some ⟨n, some m⟩ } := by
  have empty : limitClause s.limit = [] := by rw [unlimited]; rfl
  have whole : selectText s ++ offsetFirst n m = sectionsText s false ps c := by
    rw [selectText_sections select, empty, ← sectionsText_append]
    exact congrArg (fun t => selectListText s ++ (clauseText "FROM" _ ++ t)) text
  have limited := limit_offsetFirst (by decide) (isQuiet_sections false select (isJoin_joins select)) small small'
  rw [← empty, ← selectText_sections select, whole] at limited
  rw [whole]
  exact parse_sections false select joins written ended ends limited

omit unlimited small small' in
theorem isJoin_loose : ∀ p ∈ s.joins.map (Piece.ofJoin false), p.IsJoin bodyKeys :=
  fun p mem => (isJoin_joins select p mem).mono (by decide)

/-- `ORDER BY` ends at an offset, and so does a table. -/
theorem parse_offset_shut (shut : IsShut s) :
    parse (selectText s ++ offsetFirst n m) = .ok { s with limit := some ⟨n, some m⟩ } := by
  have tail := isTail_limitClause (some ⟨n, none⟩)
  have part : IsPart [.word "limit", .word "offset"] (offsetFirst n m) := by
    rw [offsetFirst_eq]
    exact ((isPart_offsetText m).append tail.part).mono (by decide)
  have last : (offsetFirst n m).getLast?.any isBlank = false := by
    have text : clauseText "OFFSET" (digits m) = offsetText (some m) := clauseText_of_ne_nil (digits_ne_nil m)
    rw [offsetFirst_eq, ← text]
    exact last_append (last_clauseText (isSolid_digits m).trim) tail.last
  have ordered : Meets orderEnd (offsetFirst n m) := by
    refine meets_keyword (by decide : isLeading "OFFSET".toList = true) ?_ _
    intro before rest left
    exact first_isSome (.tail _ (.head _)) ((reads_word (by decide) (by decide)).isSome left rest)
  have ends (nonempty : s.orderBy ≠ []) : (s.clauses (offsetFirst n m)).Ends := by
    intro ps _ mem
    have filled : s.orderBy.map orderText ≠ [] := by simpa using nonempty
    have order := isSolid_join filled (fun t mem => (isWrittenItem_orderBy select t mem).solid) ", ".toList
    have text : (s.clauses (offsetFirst n m)).fromOrder =
        ' ' :: ("ORDER BY".toList ++ ' ' :: (Text.join ", " (s.orderBy.map orderText) ++ offsetFirst n m)) := by
      rw [Clauses.fromOrder, clauses]
      dsimp only
      rw [clauseText_of_ne_nil order.filled, List.cons_append, List.append_assoc]
      rfl
    rw [text]
    refine meets_keyword (by decide) ?_ _
    intro before rest left
    exact first_isSome mem (reads_orderBy.isSome left rest)
  have written : (s.clauses (offsetFirst n m)).IsWritten := by
    refine isWritten_clauses select part last ordered ?_
    intro filled
    rcases shut with nonempty | ⟨_, condition, groups, having⟩
    · exact ends nonempty
    · rw [condition, groups, having] at filled
      simp at filled
  have ended (nonempty : s.joins.map (Piece.ofJoin false) ≠ []) : (s.clauses (offsetFirst n m)).Ends := by
    refine ends (shut.resolve_right fun missing => nonempty ?_)
    rw [missing.1]
    rfl
  have parsed := parse_resection select unlimited small small' rfl (isJoin_loose select) written ended
    (endsTable_keyword (by decide : isLeading "OFFSET".toList = true) (by decide) _)
  rw [parsed, map_read_joins select, map_groups select, filled_having select, filterMap_order select]
  rfl

variable (unsorted : s.orderBy = [])
include unsorted

/-- `HAVING` takes an offset behind it for a part of its text. -/
theorem parse_offset_having {h : Text} (given : s.having = some h) :
    parse (selectText s ++ offsetFirst n m) =
      .ok { s with having := some (h ++ offsetText (some m)), limit := some ⟨n, some m⟩ } := by
  have body := select.having h given
  have tail := isTail_limitClause (some ⟨n, none⟩)
  let c : Clauses := { s.clauses (limitClause (some ⟨n, none⟩)) with having := h ++ offsetText (some m) }
  have written : c.IsWritten :=
    { tail.isWritten select with having := fun _ => isClauseText_offset body m, ended := fun _ => tail.clauses }
  have text : (s.clauses (offsetFirst n m)).text = c.text := by
    simp only [c, Clauses.text, Clauses.fromGroup, Clauses.fromHaving, Clauses.fromOrder, clauses, unsorted, given,
      List.map_nil, Option.getD_some, show Text.join ", " [] = [] from rfl, clauseText_nil, List.nil_append]
    rw [offsetFirst_eq, ← clauseText_append body.solid.filled, List.append_assoc]
  have filled : (if c.having.isEmpty then none else some c.having) = some (h ++ offsetText (some m)) :=
    if_neg (by simp [c, body.solid.filled])
  have parsed := parse_resection select unlimited small small' (congrArg (_ ++ ·) text) (isJoin_loose select) written
    (fun _ => tail.clauses) tail.ends
  rw [parsed, map_read_joins select, map_groups select, filterMap_order select, filled]
  rfl

variable (unchosen : s.having = none)
include unchosen

/-- So does the last term of `GROUP BY`. -/
theorem parse_offset_groupBy {cs : List ColumnName} {last : ColumnName} (given : s.groupBy = cs ++ [last]) :
    parse (selectText s ++ offsetFirst n m) =
      .ok { s with
        groupBy := cs ++ [⟨last.qualified ++ offsetText (some m), none⟩]
        limit := some ⟨n, some m⟩ } := by
  have items := isWrittenItem_groupBy select
  have columns := select.groupBy
  rw [given] at items columns
  have tail := isTail_limitClause (some ⟨n, none⟩)
  let c : Clauses :=
    { s.clauses (limitClause (some ⟨n, none⟩)) with
      groups := cs.map ColumnName.qualified ++ [last.qualified ++ offsetText (some m)] }
  have joined : Text.join ", " c.groups = Text.join ", " ((cs ++ [last]).map ColumnName.qualified) ++ offsetText (some m) := by
    rw [List.map_append]
    exact join_concat_append _ _ _
  have body : IsClauseText textKeys (Text.join ", " ((cs ++ [last]).map ColumnName.qualified)) :=
    isClauseText_items items (by decide) (by simp)
  have written : c.IsWritten := by
    refine { tail.isWritten select with groups := ⟨?_, fun _ => ?_⟩, ended := fun _ => tail.clauses }
    · rw [List.map_append, List.forall_mem_append] at items
      refine List.forall_mem_append.2 ⟨fun t mem => (items.1 t mem).isItem, List.forall_mem_singleton.2 ?_⟩
      exact isItem_offset (items.2 _ (List.mem_singleton_self _)) m
    · rw [joined]
      exact isClauseText_offset body m
  have text : (s.clauses (offsetFirst n m)).text = c.text := by
    rw [Clauses.text, Clauses.text, Clauses.fromGroup, Clauses.fromGroup, joined, ← clauseText_append body.solid.filled]
    simp only [c, Clauses.fromHaving, Clauses.fromOrder, clauses, unsorted, unchosen, given, List.map_nil,
      Option.getD_none, show Text.join ", " [] = [] from rfl, clauseText_nil, List.nil_append]
    rw [offsetFirst_eq, List.append_assoc]
  have terms : c.groups.map columnName = cs ++ [⟨last.qualified ++ offsetText (some m), none⟩] := by
    have all (d : ColumnName) (mem : d ∈ cs) : (columnName ∘ ColumnName.qualified) d = d := by
      apply columnName_qualified
      rw [isColumn, columns d (List.mem_append_left _ mem), Bool.or_true]
    have one : columnName (last.qualified ++ offsetText (some m)) = ⟨last.qualified ++ offsetText (some m), none⟩ :=
      columnName_spaced (columns last (by simp)) fun mem =>
        not_mem_offsetText (by decide) (by decide) m (List.mem_cons_of_mem _ mem)
    rw [List.map_append, List.map_map, List.map_congr_left all, List.map_id', List.map_singleton]
    exact congrArg (cs ++ [·]) one
  have parsed := parse_resection select unlimited small small' (congrArg (_ ++ ·) text) (isJoin_loose select) written
    (fun _ => tail.clauses) tail.ends
  rw [parsed, map_read_joins select, terms, filled_having select, filterMap_order select]
  rfl

variable (ungrouped : s.groupBy = [])
include ungrouped

/-- So does `WHERE`. -/
theorem parse_offset_condition (filtered : s.condition ≠ []) :
    parse (selectText s ++ offsetFirst n m) =
      .ok { s with condition := s.condition ++ offsetText (some m), limit := some ⟨n, some m⟩ } := by
  have body := select.condition filtered
  have tail := isTail_limitClause (some ⟨n, none⟩)
  let c : Clauses := { s.clauses (limitClause (some ⟨n, none⟩)) with condition := s.condition ++ offsetText (some m) }
  have written : c.IsWritten :=
    { tail.isWritten select with condition := fun _ => isClauseText_offset body m, ended := fun _ => tail.clauses }
  have text : (s.clauses (offsetFirst n m)).text = c.text := by
    simp only [c, Clauses.text, Clauses.fromGroup, Clauses.fromHaving, Clauses.fromOrder, clauses, unsorted, unchosen,
      ungrouped, List.map_nil, Option.getD_none, show Text.join ", " [] = [] from rfl, clauseText_nil, List.nil_append]
    rw [offsetFirst_eq, ← clauseText_append filtered, List.append_assoc]
  have parsed := parse_resection select unlimited small small' (congrArg (_ ++ ·) text) (isJoin_loose select) written
    (fun _ => tail.clauses) tail.ends
  rw [parsed, map_read_joins select, map_groups select, filled_having select, filterMap_order select]

variable (unfiltered : s.condition = [])
include unfiltered

/-- So does the condition of the last join. -/
theorem parse_offset_joins {js : List Join} {last : Join} (given : s.joins = js ++ [last]) :
    parse (selectText s ++ offsetFirst n m) =
      .ok { s with
        joins := js ++ [{ last with on := last.on ++ offsetText (some m) }]
        limit := some ⟨n, some m⟩ } := by
  have joins := select.joins
  rw [given, List.forall_mem_append, List.forall_mem_singleton] at joins
  have body := isClauseText_offset joins.2.on m
  have tail := isTail_limitClause (some ⟨n, none⟩)
  let ps : List Piece := (js ++ [{ last with on := last.on ++ offsetText (some m) }]).map (Piece.ofJoin false)
  have pieces : ∀ p ∈ ps, p.IsJoin bodyKeys := by
    refine List.forall_mem_map.2 (List.forall_mem_append.2 ⟨?_, List.forall_mem_singleton.2 ?_⟩)
    · exact fun j mem => (isJoin_ofJoin false (joins.1 j mem)).mono (by decide)
    · exact ⟨joins.2.sides, joins.2.keyword, joins.2.table, body, rfl⟩
  have bare (t : Text) : (s.clauses t).text = t := by
    simp only [Clauses.text, Clauses.fromGroup, Clauses.fromHaving, Clauses.fromOrder, clauses, unsorted, unchosen,
      ungrouped, unfiltered, List.map_nil, Option.getD_none, show Text.join ", " [] = [] from rfl, clauseText_nil,
      List.nil_append]
  have text : piecesText (s.joins.map (Piece.ofJoin false)) ++ (s.clauses (offsetFirst n m)).text =
      piecesText ps ++ (s.clauses (limitClause (some ⟨n, none⟩))).text := by
    have more : clauseText "ON" (last.on ++ offsetText (some m)) = clauseText "ON" last.on ++ offsetText (some m) :=
      (clauseText_append joins.2.on.solid.filled _).symm
    rw [bare, bare, offsetFirst_eq, given]
    simp only [ps, List.map_append, List.map_singleton, piecesText_concat, Piece.ofJoin, more, List.append_assoc,
      List.cons_append]
    rfl
  have read : ps.map Piece.read = js ++ [{ last with on := last.on ++ offsetText (some m) }] := by
    have all (j : Join) (mem : j ∈ js ++ [{ last with on := last.on ++ offsetText (some m) }]) :
        (Piece.read ∘ Piece.ofJoin false) j = j :=
      read_ofJoin (pieces _ (List.mem_map_of_mem mem)).on (by decide)
    rw [List.map_map, List.map_congr_left all, List.map_id']
  have parsed := parse_resection select unlimited small small' text pieces (tail.isWritten select) (fun _ => tail.clauses)
    tail.ends
  rw [parsed, read, map_groups select, filled_having select, filterMap_order select]
  rfl

end Read

/-! ## The last clause -/

/-- Which clause stands at the end of a selection. -/
inductive LastClause (s : Statement) : Prop where
  | shut (shut : IsShut s)
  | having {h : Text} (unsorted : s.orderBy = []) (given : s.having = some h)
  | groupBy {cs : List ColumnName} {last : ColumnName} (unsorted : s.orderBy = []) (unchosen : s.having = none)
    (given : s.groupBy = cs ++ [last])
  | condition (unsorted : s.orderBy = []) (unchosen : s.having = none) (ungrouped : s.groupBy = [])
    (filtered : s.condition ≠ [])
  | joins {js : List Join} {last : Join} (unsorted : s.orderBy = []) (unchosen : s.having = none)
    (ungrouped : s.groupBy = []) (unfiltered : s.condition = []) (given : s.joins = js ++ [last])

theorem lastClause (s : Statement) : LastClause s := by
  by_cases unsorted : s.orderBy = []
  · cases having : s.having with
    | some h => exact .having unsorted having
    | none =>
      rcases List.eq_nil_or_concat s.groupBy with ungrouped | ⟨cs, last, groups⟩
      · by_cases unfiltered : s.condition = []
        · rcases List.eq_nil_or_concat s.joins with alone | ⟨js, last, joins⟩
          · exact .shut (.inr ⟨alone, unfiltered, ungrouped, having⟩)
          · exact .joins unsorted having ungrouped unfiltered (joins.trans List.concat_eq_append)
        · exact .condition unsorted having ungrouped unfiltered
      · exact .groupBy unsorted having (groups.trans List.concat_eq_append)
  · exact .shut (.inl unsorted)

section Absorb

variable {s : Statement} {x : Text}

theorem absorb_shut (shut : IsShut s) : absorb x s = s := by
  by_cases sorted : s.orderBy ≠ []
  · exact if_pos sorted
  · obtain ⟨alone, unfiltered, ungrouped, having⟩ := shut.resolve_left sorted
    have joins : mapLast (fun j : Join => { j with on := j.on ++ x }) s.joins = s.joins := by
      rw [alone]
      rfl
    rw [absorb, if_neg sorted, if_neg (by simp [having]), if_neg (by simp [ungrouped]), if_neg (by simp [unfiltered]), joins]

variable (unsorted : s.orderBy = [])
include unsorted

theorem absorb_having {h : Text} (given : s.having = some h) : absorb x s = { s with having := some (h ++ x) } := by
  rw [absorb, if_neg (by simp [unsorted]), if_pos (by simp [given]), given]
  rfl

variable (unchosen : s.having = none)
include unchosen

theorem absorb_groupBy {cs : List ColumnName} {last : ColumnName} (given : s.groupBy = cs ++ [last]) :
    absorb x s = { s with groupBy := cs ++ [⟨last.qualified ++ x, none⟩] } := by
  rw [absorb, if_neg (by simp [unsorted]), if_neg (by simp [unchosen]), if_pos (by simp [given]), given, mapLast_concat]

variable (ungrouped : s.groupBy = [])
include ungrouped

theorem absorb_condition (filtered : s.condition ≠ []) : absorb x s = { s with condition := s.condition ++ x } := by
  rw [absorb, if_neg (by simp [unsorted]), if_neg (by simp [unchosen]), if_neg (by simp [ungrouped]), if_pos filtered]

theorem absorb_joins (unfiltered : s.condition = []) {js : List Join} {last : Join} (given : s.joins = js ++ [last]) :
    absorb x s = { s with joins := js ++ [{ last with on := last.on ++ x }] } := by
  rw [absorb, if_neg (by simp [unsorted]), if_neg (by simp [unchosen]), if_neg (by simp [ungrouped]),
    if_neg (by simp [unfiltered]), given, mapLast_concat]

end Absorb

/-- A clause at the end changes by what it takes. -/
theorem absorb_eq_self_iff {s : Statement} {x : Text} (filled : x ≠ []) : absorb x s = s ↔ IsShut s := by
  have longer (t : Text) : t ++ x ≠ t := by simpa using filled
  refine ⟨?_, absorb_shut⟩
  intro same
  cases lastClause s with
  | shut shut => exact shut
  | having unsorted given =>
    rw [absorb_having unsorted given] at same
    have field := congrArg Statement.having same
    rw [given] at field
    exact absurd (Option.some.inj field) (longer _)
  | groupBy unsorted unchosen given =>
    rename_i cs last
    rw [absorb_groupBy unsorted unchosen given] at same
    have field := congrArg Statement.groupBy same
    rw [given, List.append_right_inj, List.singleton_inj] at field
    obtain ⟨name, table⟩ := last
    have unqualified : none = table := congrArg ColumnName.table field
    subst unqualified
    exact absurd (congrArg ColumnName.name field) (longer name)
  | condition unsorted unchosen ungrouped filtered =>
    rw [absorb_condition unsorted unchosen ungrouped filtered] at same
    exact absurd (congrArg Statement.condition same) (longer _)
  | joins unsorted unchosen ungrouped unfiltered given =>
    rw [absorb_joins unsorted unchosen ungrouped unfiltered given] at same
    have field := congrArg Statement.joins same
    rw [given, List.append_right_inj, List.singleton_inj] at field
    exact absurd (congrArg Join.on field) (longer _)

/-! ## Both orders are read -/

section Orders

variable {s : Statement} (select : IsSelect s) (unlimited : s.limit = none) {n m : Nat} (small : n ≤ maxCount)
  (small' : m ≤ maxCount)
include select unlimited small small'

theorem parse_limit_ahead :
    parse (selectText s ++ limitFirst n m) = .ok { s with limit := some ⟨n, some m⟩ } := by
  have select' : IsSelect { s with limit := some ⟨n, some m⟩ } := by
    refine { select with limit := ?_ }
    rintro _ ⟨⟩
    exact ⟨small, by rintro _ ⟨⟩; exact small'⟩
  have text : selectText s ++ limitFirst n m = sectionsText { s with limit := some ⟨n, some m⟩ } false
      (s.joins.map (Piece.ofJoin false)) (s.clauses (limitClause (some ⟨n, some m⟩))) := by
    rw [selectText_sections select, unlimited, limitFirst_eq, ← sectionsText_append]
    rfl
  have parsed := parse_spelled false select' (isJoin_joins select)
  rw [map_read_joins select] at parsed
  rw [text]
  exact parsed

theorem parse_offset_ahead :
    parse (selectText s ++ offsetFirst n m) = .ok (absorb (offsetText (some m)) { s with limit := some ⟨n, some m⟩ }) := by
  cases lastClause { s with limit := some ⟨n, some m⟩ } with
  | shut shut =>
    rw [parse_offset_shut select unlimited small small' shut]
    exact congrArg Except.ok (absorb_shut shut).symm
  | having unsorted given =>
    rw [parse_offset_having select unlimited small small' unsorted given]
    exact congrArg Except.ok (absorb_having unsorted given).symm
  | groupBy unsorted unchosen given =>
    rw [parse_offset_groupBy select unlimited small small' unsorted unchosen given]
    exact congrArg Except.ok (absorb_groupBy unsorted unchosen given).symm
  | condition unsorted unchosen ungrouped filtered =>
    rw [parse_offset_condition select unlimited small small' unsorted unchosen ungrouped filtered]
    exact congrArg Except.ok (absorb_condition unsorted unchosen ungrouped filtered).symm
  | joins unsorted unchosen ungrouped unfiltered given =>
    rw [parse_offset_joins select unlimited small small' unsorted unchosen ungrouped unfiltered given]
    exact congrArg Except.ok (absorb_joins unsorted unchosen ungrouped unfiltered given).symm

end Orders

/-- **The order of `LIMIT` and `OFFSET`.** Both orders give the same limit. They give the same selection exactly if it is
sorted or has nothing behind its table; else the last clause has taken the offset. -/
theorem parse_offsetFirst {s : Statement} (select : IsSelect s) (unlimited : s.limit = none) {n m : Nat}
    (small : n ≤ maxCount) (small' : m ≤ maxCount) :
    let r : Statement := { s with limit := some ⟨n, some m⟩ }
    parse (selectText s ++ limitFirst n m) = .ok r ∧
      parse (selectText s ++ offsetFirst n m) = .ok (absorb (" OFFSET ".toList ++ digits m) r) ∧
      (parse (selectText s ++ offsetFirst n m) = parse (selectText s ++ limitFirst n m) ↔ IsShut s) := by
  intro r
  have ahead := parse_limit_ahead select unlimited small small'
  have behind := parse_offset_ahead select unlimited small small'
  refine ⟨ahead, behind, ?_⟩
  have filled : offsetText (some m) ≠ [] := List.cons_ne_nil _ _
  have same : absorb (offsetText (some m)) r = r ↔ IsShut s := absorb_eq_self_iff filled
  rw [ahead, behind, ← same]
  exact ⟨Except.ok.inj, congrArg Except.ok⟩

/-- The offset behind a condition is a part of it. -/
theorem parse_offsetFirst_where :
    let s : Statement :=
      { kind := .select
        main := some ⟨"t".toList, none⟩
        columns := [⟨⟨"*".toList, none⟩, none⟩]
        condition := "a = 1".toList }
    (IsSelect s ∧ s.limit = none) ∧
      parse "SELECT * FROM t WHERE a = 1 LIMIT 3 OFFSET 5" = .ok { s with limit := some ⟨3, some 5⟩ } ∧
      parse "SELECT * FROM t WHERE a = 1 OFFSET 5 LIMIT 3" =
        .ok { s with condition := "a = 1 OFFSET 5".toList, limit := some ⟨3, some 5⟩ } ∧ ¬ IsShut s := by
  intro s
  have lower : ∀ k ∈ textKeys, k.isLower = true := by decide
  have condition : IsClauseText textKeys "a = 1".toList := (isClauseText_iff lower).2 (by decide)
  have select : IsSelect s := by
    constructor
    · rfl
    · exact ⟨_, rfl, by decide, by decide⟩
    · exact ⟨by decide, by decide⟩
    · simp [s]
    · exact fun _ => condition
    · rfl
    · rfl
    · simp [s]
    · simp [s]
    · simp [s]
    · simp [s]
  obtain ⟨ahead, behind, same⟩ := parse_offsetFirst select rfl (by decide : 3 ≤ maxCount) (by decide : 5 ≤ maxCount)
  have text : selectText s ++ limitFirst 3 5 = "SELECT * FROM t WHERE a = 1 LIMIT 3 OFFSET 5".toList := by decide
  have text' : selectText s ++ offsetFirst 3 5 = "SELECT * FROM t WHERE a = 1 OFFSET 5 LIMIT 3".toList := by decide
  rw [text] at ahead
  rw [text'] at behind
  refine ⟨⟨select, rfl⟩, ahead, behind, ?_⟩
  rintro (sorted | ⟨_, unfiltered, _⟩)
  · exact sorted rfl
  · cases unfiltered

end Statement
end QueryCode
