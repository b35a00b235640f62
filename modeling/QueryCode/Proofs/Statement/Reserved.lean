import QueryCode.Proofs.Statement.RoundTrip

/-!
# Aliases that are reserved

A reserved word behind a table is not its alias, also where no clause starts with that word. The condition of a join is
looked for right behind its table, so it is not found behind such a word either. This is all that is lost: with any free
names as aliases, a selection is read as `heard` tells it, whatever limit stands at its end: `parse_heard`.
-/

namespace QueryCode
set_option autoImplicit false

open Text Text.Scan Text.Cursor Pattern

namespace Pattern

/-- No condition is found where another word stands. -/
theorem on_of_word {before rest word : Text} (named : isTableWord word = true) (other : sameFold "on" word = false)
    (ends : rest.head?.any isWord = false) : on (between before (' ' :: (word ++ rest))) = none := by
  refine (bind_of_some (blanks1_space (not_isBlank_of_isTableWord named rest))).trans ?_
  by_contra fits
  rw [← ne_eq, Option.ne_none_iff_isSome] at fits
  obtain ⟨⟨_, stop⟩, found⟩ := Option.isSome_iff_exists.1 fits
  simp only [bind_some, discard_some] at found
  obtain ⟨_, _, ⟨first, read⟩, edge⟩ := found
  obtain ⟨after, split, same, rfl⟩ := letters_some.1 read
  have lower : isLowerWord "on".toList = true := by decide
  have right : after.head?.any isWord = false := by
    have bound := (edge_some.1 edge).1
    rw [atEdge_between, last_of_sameFold lower same] at bound
    simpa using bound
  have eq := eq_of_runs split (chars_of_isTableWord named) ends (isWord_of_sameFold lower same) right
  rw [eq.1, same] at other
  cases other

end Pattern

namespace Statement

/-! ## What is read -/

/-- A table as it is read: a reserved word is not its alias. -/
def heardTable (t : Table) : Table := { t with alias? := t.alias?.filter (!isReserved ·) }

/-- A join as it is read: a reserved word is not its alias, and hides its condition. -/
def heardJoin (j : Join) : Join :=
  { j with alias? := j.alias?.filter (!isReserved ·), on := if j.alias?.any isReserved then [] else j.on }

/-- A selection as it is read. -/
def heard (s : Statement) : Statement := { s with main := s.main.map heardTable, joins := s.joins.map heardJoin }

/-- A join that can be written with free names. -/
structure IsFreeJoin (j : Join) : Prop where
  sides : canBe j.kind j.outer = true
  keyword : j.keyword = joinText j.kind j.outer
  table : IsFreeTable ⟨j.table, j.alias?⟩
  on : IsClauseText textKeys j.on

/-- A selection that can be written with free names, among them reserved ones as aliases. -/
structure IsSelection (s : Statement) : Prop where
  main : ∃ t, s.main = some t ∧ IsFreeTable t
  joins : ∀ j ∈ s.joins, IsFreeJoin j
  others : IsSelect { s with main := s.main.map heardTable, joins := [] }

/-- The word that stands behind a table without being its alias, with a space in front. -/
def mutedText (alias? : Option Text) : Text := aliasText (alias?.filter isReserved)

theorem aliasText_muted (alias? : Option Text) :
    aliasText (alias?.filter (!isReserved ·)) ++ mutedText alias? = aliasText alias? := by
  cases alias? with
  | none => rfl
  | some word => cases kept : isReserved word <;> simp [mutedText, Option.filter, kept, aliasText]

theorem isAlias_of_kept {alias? : Option Text} (free : ∀ name ∈ alias?, isFreeName name = true) :
    ∀ name ∈ alias?.filter (!isReserved ·), isFreeAlias name = true := by
  intro name mem
  rw [Option.mem_filter_iff] at mem
  rw [isFreeAlias, free name mem.1, mem.2]
  rfl

theorem isTable_heard {t : Table} (free : IsFreeTable t) : IsTable (heardTable t) := ⟨free.name, isAlias_of_kept free.given⟩

theorem isJoinHead_heard {j : Join} (join : IsFreeJoin j) : IsJoinHead (heardJoin j) where
  sides := join.sides
  keyword := join.keyword
  table := isJoinable_of_isFreeName join.table.name
  given := by
    intro given mem
    have free := isAlias_of_kept join.table.given given mem
    exact ⟨isAlias_of_isFreeAlias free, isJoinable_of_isFreeName (isFreeName_of_isFreeAlias free)⟩

/-! ## Behind a table -/

theorem plain_space_of_isFreeName {name : Text} (free : isFreeName name = true) : Plain (' ' :: name) :=
  plain_cons.2 ⟨by decide, plain_of_class (by decide) (isWord_of_isFreeName free)⟩

/-- A table ends at a word that is not its alias. -/
theorem endsTable_muted {alias? : Option Text} (free : ∀ name ∈ alias?, isFreeName name = true) {y : Text}
    (ends : EndsTable (mask .nested y)) : EndsTable (mask .nested (mutedText alias? ++ y)) := by
  unfold mutedText
  cases muted : alias?.filter isReserved with
  | none => exact ends
  | some word =>
    obtain ⟨mem, kept⟩ := Option.mem_filter_iff.1 muted
    have listed : "as" ∈ keywords := by decide
    have shown : mask .nested (' ' :: word ++ y) = ' ' :: (word ++ mask .nested y) :=
      mask_plain_append _ (plain_space_of_isFreeName (free word mem))
    rw [show aliasText (some word) = ' ' :: word from rfl, shown]
    exact .inr ⟨word, mask .nested y, rfl, isTableWord_of_isFreeName (free word mem),
      sameFold_of_isFreeName (free word mem) listed, kept, ends.spaced⟩

/-- A join as it is read, with everything that stands behind its table. -/
def heardPiece (j : Join) : Piece := ⟨heardJoin j, false, mutedText j.alias? ++ clauseText "ON" j.on⟩

/-- The pieces are the joins as they are written. -/
theorem piecesText_heard (js : List Join) :
    piecesText (js.map heardPiece) = piecesText (js.map (Piece.ofJoin false)) := by
  rw [piecesText, piecesText, List.flatMap_map, List.flatMap_map]
  apply List.flatMap_congr
  intro j _
  have text : aliasText (heardJoin j).alias? ++ mutedText j.alias? = aliasText j.alias? := aliasText_muted j.alias?
  have head : (heardPiece j).head = joinText j.kind j.outer ++ ' ' :: (j.table ++ aliasText (heardJoin j).alias?) := rfl
  have head' : (Piece.ofJoin false j).head = joinText j.kind j.outer ++ ' ' :: (j.table ++ aliasText j.alias?) := rfl
  rw [head, head', ← text]
  simp [heardPiece, Piece.ofJoin]

section Join

variable {j : Join} (join : IsFreeJoin j)
include join

theorem isQuiet_on : IsQuiet otherKeys (' ' :: j.on) :=
  isQuiet_condition (isCondition_space join.on.closed fun k mem _ => join.on.silent k ((by decide : joinEndKeys ⊆ textKeys) mem))

theorem clauseText_on : clauseText "ON" j.on = " ON".toList ++ ' ' :: j.on := clauseText_of_ne_nil join.on.solid.filled

theorem isQuiet_onClause : IsQuiet otherKeys (clauseText "ON" j.on) := by
  have silent : ∀ k ∈ clauseKeys, k.begins (' ' :: ("ON".toList ++ [' '])) = false := by decide
  exact (isPart_text (fun _ => join.on) (by decide) (fun k mem _ => silent k mem) (by decide)).toIsQuiet

/-- Behind the table stand a word and a text without a join. -/
theorem exists_next : ∃ word y, (heardPiece j).tail = ' ' :: (word ++ y) ∧ isTableWord word = true ∧ Spaced y ∧
    IsQuiet otherKeys y := by
  unfold heardPiece mutedText
  cases muted : j.alias?.filter isReserved with
  | none => exact ⟨"ON".toList, ' ' :: j.on, clauseText_on join, by decide, .inr ⟨_, rfl⟩, isQuiet_on join⟩
  | some word =>
    obtain ⟨mem, _⟩ := Option.mem_filter_iff.1 muted
    refine ⟨word, clauseText "ON" j.on, rfl, isTableWord_of_isFreeName (join.table.given word mem), ?_, isQuiet_onClause join⟩
    rw [clauseText_on join]
    exact .inr ⟨_, rfl⟩

theorem isQuiet_heard : IsQuiet otherKeys (heardPiece j).tail := by
  unfold heardPiece mutedText
  cases muted : j.alias?.filter isReserved with
  | none => exact isQuiet_onClause join
  | some word =>
    obtain ⟨mem, _⟩ := Option.mem_filter_iff.1 muted
    have free := join.table.given word mem
    refine isQuiet_plain_append (plain_space_of_isFreeName free) ?_ (.inr ⟨_, clauseText_on join⟩) (isQuiet_onClause join)
    intro k mem _ has
    have lower := isLower_clauseKeys k mem
    rcases Key.begins_append (u := [' ']) lower (.inl (by decide)) has with space | name
    · exact Key.not_begins_space lower space
    · exact not_begins_of_isFreeName free mem name

theorem endsTable_heard (z : Text) : EndsTable (mask .nested ((heardPiece j).tail ++ z)) := by
  have ends : EndsTable (mask .nested (clauseText "ON" j.on ++ z)) := by
    rw [clauseText_of_ne_nil join.on.solid.filled, List.cons_append, List.append_assoc]
    exact endsTable_keyword (by decide : isLeading "ON".toList = true) (by decide) (j.on ++ z)
  have muted := endsTable_muted join.table.given ends
  rwa [← List.append_assoc] at muted

/-- A join without a reserved alias is heard as it is. -/
theorem heardPiece_eq (kept : j.alias?.any isReserved = false) :
    heardPiece j = Piece.ofJoin false j ∧ heardJoin j = j ∧ IsJoin j := by
  have split : j.alias?.filter (!isReserved ·) = j.alias? ∧ j.alias?.filter isReserved = none := by
    cases given : j.alias? with
    | none => exact ⟨rfl, rfl⟩
    | some word =>
      rw [given, Option.any_some] at kept
      rw [Option.filter_some, Option.filter_some, kept]
      exact ⟨rfl, rfl⟩
  have heard : heardJoin j = j := by
    rw [heardJoin, kept, split.1]
    rfl
  have free := isAlias_of_kept join.table.given
  rw [split.1] at free
  refine ⟨?_, heard, join.sides, join.keyword, ⟨join.table.name, free⟩, join.on⟩
  rw [heardPiece, heard, mutedText, split.2]
  rfl

/-- Where a reserved word stands behind the table, no condition is found. -/
theorem on_muted (muted : j.alias?.any isReserved = true) (before z : Text) :
    Pattern.on (between before (mask .nested ((heardPiece j).tail ++ z))) = none := by
  cases given : j.alias? with
  | none =>
    rw [given] at muted
    cases muted
  | some word =>
    rw [given, Option.any_some] at muted
    have free := join.table.given word given
    have listed : "on" ∈ keywords := by decide
    have text : (heardPiece j).tail ++ z = ' ' :: word ++ (clauseText "ON" j.on ++ z) := by
      rw [heardPiece, mutedText, given, Option.filter_some, muted, ← List.append_assoc]
      rfl
    have spaced : Spaced (clauseText "ON" j.on ++ z) := by
      rw [clauseText_on join]
      exact .inr ⟨_, rfl⟩
    rw [text, mask_plain_append _ (plain_space_of_isFreeName free)]
    exact on_of_word (isTableWord_of_isFreeName free) (sameFold_of_isFreeName free listed) (spaced_mask spaced).edge

section Read

variable {q z : Text} (closed : isClosed q = true) (led : IsLed z) (meets : Meets joinEnd z)
include closed led meets

/-- **A join is read from its match without a reserved alias**, and without its condition if there is one. -/
theorem read_heard {hit : Hit JoinMatch} (found : (heardPiece j).IsMatch q ((heardPiece j).tail ++ z) hit) :
    (Source.ofText (q ++ ' ' :: ((heardPiece j).head ++ ((heardPiece j).tail ++ z)))).join hit = .ok (heardJoin j) := by
  cases muted : j.alias?.any isReserved with
  | false =>
    obtain ⟨piece, heard, kept⟩ := heardPiece_eq join muted
    have written : (Piece.ofJoin false j).IsWritten := (isJoin_ofJoin false kept).isWritten (by decide)
    have alone : (Piece.ofJoin false j).tail = [] → ∃ ps, z = piecesText ps := by
      intro empty
      rw [Piece.ofJoin, clauseText_on join] at empty
      cases empty
    rw [piece] at found ⊢
    rw [heard, read_piece written closed led meets alone found, read_ofJoin join.on (by decide)]
  | true =>
    have finish : hit.value.table.finish = between (mask .nested q ++ [' '] ++ (heardPiece j).head)
        (mask .nested ((heardPiece j).tail ++ z)) := found.finish
    have missed : Pattern.on hit.value.table.finish = none := by
      rw [finish]
      exact on_muted join muted _ z
    have unjoined : (heardJoin j).on = [] := by
      rw [heardJoin, muted]
      rfl
    have read : _ = Except.ok { heardJoin j with on := (heardJoin j).on } :=
      read_match (isJoinHead_heard join) found (.inl ⟨missed, unjoined⟩)
    exact read

omit closed meets in
/-- Where the search goes on after a join: in the text behind its table, or behind the first word of it. -/
theorem resume_heard {spill after : Text} (split : mask .nested ((heardPiece j).tail ++ z) = spill ++ after)
    (kept : Spill (heardJoin j).alias? spill after) :
    ∃ x, (heardPiece j).tail ++ z = spill ++ (x ++ z) ∧ Plain spill ∧ after = mask .nested (x ++ z) ∧
      IsQuiet otherKeys x := by
  generalize (heardJoin j).alias? = alias? at kept
  cases alias? with
  | some name =>
    cases kept
    exact ⟨_, rfl, plain_nil, split.symm, isQuiet_heard join⟩
  | none =>
    obtain ⟨word, y, text, named, spaced, quiet⟩ := exists_next join
    have plain : Plain (' ' :: word) := plain_cons.2 ⟨by decide, plain_of_class (by decide) (chars_of_isTableWord named)⟩
    have whole : (heardPiece j).tail ++ z = ' ' :: word ++ (y ++ z) := by
      rw [text]
      simp
    rw [whole, mask_plain_append _ plain] at split
    obtain ⟨rfl, rfl⟩ := kept.eq_word named (spaced_mask (spaced.append led.spaced)) split
    exact ⟨y, whole, plain, rfl, quiet⟩

end Read

end Join

/-! ## All joins -/

section Joins

variable {t : Text} {own : List Key} (after : IsPart own t) (unjoined : noJoin own = true) {js : List Join}
  (joins : ∀ j ∈ js, IsFreeJoin j) (meets : js ≠ [] → Meets joinEnd t)
include after unjoined joins meets

/-- **The joins are found one after the other**, each with its own search. -/
theorem mapM_heard {p x : Text} (closed : isClosed p = true) (apart : ∀ v, Apart p v) (quiet : IsQuiet otherKeys x) {n : Nat}
    (enough : js.length ≤ n) :
    (findAll.go Pattern.join n (between (mask .nested p) (mask .nested (x ++ (piecesText (js.map heardPiece) ++ t))))).mapM
      (Source.ofText (p ++ (x ++ (piecesText (js.map heardPiece) ++ t)))).join = .ok (js.map heardJoin) := by
  induction js generalizing p x n with
  | nil =>
    cases n with
    | zero => rfl
    | succ n =>
      have text : piecesText (([] : List Join).map heardPiece) ++ t = t := rfl
      rw [text, findAll.go, find_last after unjoined quiet]
      rfl
  | cons j js ih =>
    obtain ⟨n, rfl⟩ : ∃ m, n = m + 1 := Nat.exists_eq_succ_of_ne_zero (by rintro rfl; cases enough)
    rw [List.forall_mem_cons] at joins
    have ends : Meets joinEnd t := meets (by simp)
    have led : IsLed (piecesText (js.map heardPiece) ++ t) := isLed_piecesText _ after.led
    have closedFront : isClosed (p ++ x) = true := isClosed_append closed quiet.closed (apart x)
    rw [List.map_cons, piecesText_cons]
    refine mapM_piece (isJoinHead_heard joins.1) closed apart quiet (endsTable_heard joins.1 _) ?_ ?_
    · intro hit found
      exact read_heard joins.1 closedFront led (meets_piecesText _ ends) found
    · intro spill rest split kept
      obtain ⟨y, text, plain, rfl, quiet'⟩ := resume_heard joins.1 led split kept
      refine ⟨_, text, plain, rfl, ?_⟩
      intro q closed' apart'
      exact ih joins.2 (fun _ => ends) closed' apart' quiet' (Nat.le_of_succ_le_succ enough)

theorem joins_heard {u : Text} {own' : List Key} (before : IsQuiet own' u) (unjoined' : noJoin own' = true) :
    (Source.ofText (u ++ (piecesText (js.map heardPiece) ++ t))).joins = .ok (js.map heardJoin) := by
  have enough : js.length ≤ (mask .nested (u ++ (piecesText (js.map heardPiece) ++ t))).length := by
    have shown := length_le_mask .nested (u ++ (piecesText (js.map heardPiece) ++ t))
    have each := length_piecesText (js.map heardPiece)
    rw [List.length_append, List.length_append] at shown
    rw [List.length_map] at each
    omega
  exact mapM_heard after unjoined joins meets (p := []) rfl (fun v => plain_nil.apart_left) (isQuiet_of_noJoin before unjoined') enough

end Joins

/-! ## The selection -/

/-- **The table of a statement is read without a reserved alias.** -/
theorem main_heard {t : Table} (free : IsFreeTable t) {u y : Text} {own : List Key} (before : IsQuiet own u)
    (others : .word "from" ∉ own) (ends : EndsTable (mask .nested y)) :
    (Source.ofText (u ++ (clauseText "FROM" (tableText (spelledTable false t)) ++ y))).main? = some (heardTable t) := by
  have table := isTable_heard free
  have filled : tableText (spelledTable false t) ≠ [] := (isLabel_free false free).solid.filled
  have filled' : tableText (spelledTable false (heardTable t)) ≠ [] := (isLabel_table false table).solid.filled
  have text : tableText (spelledTable false t) = tableText (spelledTable false (heardTable t)) ++ mutedText t.alias? := by
    rw [tableText, tableText, List.append_assoc]
    exact congrArg (t.name ++ ·) (aliasText_muted t.alias?).symm
  have whole : clauseText "FROM" (tableText (spelledTable false t)) ++ y =
      clauseText "FROM" (tableText (spelledTable false (heardTable t))) ++ (mutedText t.alias? ++ y) := by
    rw [clauseText_of_ne_nil filled, clauseText_of_ne_nil filled', text]
    simp
  rw [whole]
  exact read_main false table before others (endsTable_muted free.given ends)

/-- A text that is read as this limit behind all clauses. -/
def IsLimit (t : Text) (limit : Option Limit) : Prop :=
  ∀ (u : Text) (own : List Key), .word "limit" ∉ own ∧ .word "offset" ∉ own → IsQuiet own u →
    (Source.ofText (u ++ t)).limit? = limit

section Selection

variable {s : Statement} (selection : IsSelection s)
include selection

theorem isSpelled_joins : ∀ p ∈ s.joins.map (Piece.ofJoin false), p.IsSpelled textKeys :=
  List.forall_mem_map.2 fun j mem => ⟨(selection.joins j mem).table, (selection.joins j mem).on, rfl⟩

/-- **A selection is read as it is heard**, with the limit that is written at its end. -/
theorem parse_heard (unlimited : s.limit = none) {tail : Text} (last : IsTail tail) {limit : Option Limit}
    (limited : IsLimit tail limit) : parse (selectText s ++ tail) = .ok { heard s with limit := limit } := by
  obtain ⟨t, main, free⟩ := selection.main
  have select := selection.others
  have spelled := isSpelled_joins selection
  have label : IsLabel (tableText (spelledTable false t)) := isLabel_free false free
  have part : IsPart joinKeys (piecesText (s.joins.map (Piece.ofJoin false))) :=
    isPart_piecesText spelled (by decide) fun _ mem => mem
  have written : (s.clauses tail).IsWritten := (last.isWritten select :)
  have list : IsQuiet [] (selectListText s) := (isQuiet_selectListText select :)
  have front : selectText s = selectListText s ++ (clauseText "FROM" (tableText (spelledTable false t)) ++
      (piecesText (s.joins.map (Piece.ofJoin false)) ++ (s.clauses []).text)) := by
    rw [selectText_of_words fun j mem => (selection.joins j mem).keyword, sectionsText_of_main false main, unlimited]
    rfl
  have text : selectText s ++ tail = selectListText s ++ (clauseText "FROM" (tableText (spelledTable false t)) ++
      (piecesText (s.joins.map (Piece.ofJoin false)) ++ (s.clauses tail).text)) := by
    have clauses : (s.clauses tail).text = (s.clauses []).text ++ tail := (s.clauses []).text_append tail
    rw [front, clauses]
    simp only [List.append_assoc]
  have readLimit : (Source.ofText (selectText s ++ tail)).limit? = limit := by
    rw [front]
    exact limited _ _ (by decide) (isQuiet_layout select label part :)
  generalize selectText s ++ tail = whole at text readLimit ⊢
  have readMain : (Source.ofText whole).main? = s.main.map heardTable := by
    rw [text, main]
    exact main_heard free list (by decide) (endsTable_piecesText _ (Clauses.endsTable last.ends))
  have readJoins : (Source.ofText whole).joins = .ok (s.joins.map heardJoin) := by
    have from' := isPart_from label
    rw [text, ← List.append_assoc, ← piecesText_heard]
    exact joins_heard (Clauses.isPart written) (by decide) selection.joins (fun _ => meets_joinEnd last.clauses)
      (list.append from'.toIsQuiet from'.led) (by decide)
  have parsed := parse_layout select label (part.mono (by decide)) (last_piecesText spelled) written text readMain readJoins
    readLimit
  have groups : (s.clauses tail).groups.map columnName = s.groupBy := (map_groups select tail :)
  have having : (if (s.clauses tail).having.isEmpty then none else some (s.clauses tail).having) = s.having :=
    (filled_having select tail :)
  have order : (s.clauses tail).order.filterMap orderTerm? = s.orderBy := (filterMap_order select tail :)
  rw [parsed, groups, having, order]
  rfl

end Selection

end Statement
end QueryCode
