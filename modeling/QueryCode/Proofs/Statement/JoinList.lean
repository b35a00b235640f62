import QueryCode.Proofs.Statement.Joins
import QueryCode.Proofs.Statement.Strip
import QueryCode.Proofs.Statement.Total

/-!
# Joins after a table

A selection of all columns with any joins, each with any condition that no other clause or join ends. White space and
semicolons at the end of the statement are taken away before it is read, so the last condition may be cut, and the
conditions are read up to a semicolon. Then `parse_joinedText` tells which joins are read, and that they are the ones
that were written exactly if the conditions are trimmed and without a semicolon, and every join but the last has an alias
or a condition: the match of a join with nothing behind its table takes the first word of the next one.
-/

namespace QueryCode
set_option autoImplicit false

open Text Text.Scan Text.Cursor Pattern

namespace Statement

/-! ## The last condition -/

/-- Up to the first semicolon there is only white space at the end of a statement. -/
theorem blank_trail {trail : Text} (ends : ∀ c ∈ trail, isBlank c = true ∨ c = ';') :
    Blank (((cells trail).takeWhile (!shows ';' ·)).map Cell.char) := by
  induction trail with
  | nil => exact blank_nil
  | cons c trail ih =>
    rw [List.forall_mem_cons] at ends
    rcases ends.1 with blank | rfl
    · have other : c ≠ ';' := by
        rintro rfl
        cases blank
      have hidden : (!shows ';' ⟨c, false, false⟩) = true := by simp [shows, other]
      rw [cells_cons_plain (isMark_of_class (by decide) blank), List.takeWhile_cons_of_pos (p := (!shows ';' ·)) hidden,
        List.map_cons]
      exact List.forall_mem_cons.2 ⟨blank, ih ends.2⟩
    · rw [cells_cons_plain (by decide), List.takeWhile_cons_of_neg (by decide)]
      exact blank_nil

/-- The end of a statement does not change its last condition. -/
theorem readCondition_trail {x trail : Text} (closed : isClosed x = true) (ends : ∀ c ∈ trail, isBlank c = true ∨ c = ';') :
    readCondition (x ++ trail) = readCondition x := by
  obtain ⟨a, b, rfl, closed', absent, rest, read⟩ := exists_condition closed
  rcases rest with rfl | ⟨more, rfl⟩
  · have trimmed := trim_append (t := a) blank_nil (blank_trail ends)
    rw [read, List.append_nil, readCondition_append closed' (plain_trail ends).apart_right absent]
    exact trimmed
  · rw [read, List.append_assoc, List.cons_append, readCondition_semicolon closed' absent]

/-- A condition is read back exactly if it is trimmed and no semicolon ends it. -/
theorem readCondition_eq_self_iff {x : Text} (closed : isClosed x = true) :
    readCondition x = x ↔ trim x = x ∧ ';' ∉ mask .nested x := by
  constructor
  · intro same
    obtain ⟨a, b, rfl, closed', absent, rest, read⟩ := exists_condition closed
    rcases rest with rfl | ⟨more, rfl⟩
    · rw [List.append_nil] at read same ⊢
      exact ⟨read.symm.trans same, absent⟩
    · -- what is read would be shorter
      obtain ⟨lead, trail, _, _, split⟩ := exists_trim a
      have shorter := congrArg List.length (same.symm.trans read)
      have longer := congrArg List.length split
      simp only [List.length_append, List.length_cons] at shorter longer
      omega
  · rintro ⟨trimmed, absent⟩
    rw [readCondition_of_not_mem closed absent, trimmed]

theorem isCondition_stripEnd {on y : Text} (written : IsCondition on y) : IsCondition on (stripEnd y) := by
  obtain ⟨trail, split, ends⟩ := exists_stripEnd y
  obtain ⟨spaced, closed, silent, read⟩ := written
  have kept := spaced_stripEnd spaced
  generalize stripEnd y = x at split kept ⊢
  subst split
  have closed' := isClosed_of_append_plain closed (plain_trail ends)
  refine ⟨kept, closed', ?_, (readCondition_trail closed' ends).symm.trans read⟩
  intro k mem other has
  exact silent k mem other (occurs_trail has ends)

/-! ## A selection with joins -/

/-- A join that can be written, with a condition that ends outside literals and parentheses and shows no keyword of another
clause or join outside them. -/
structure IsJoinClause (j : Join) : Prop extends IsJoinHead j where
  on : j.on ≠ [] → isClosed j.on = true ∧ ∀ k ∈ joinEndKeys, k ≠ .semicolon → ¬ k.Occurs (mask .nested j.on)

/-- The start of a selection of all columns. -/
def selectAll : Text := "SELECT * FROM "

/-- All columns of a table with joins. -/
def joinedText (main : Text) (js : List Join) : Text :=
  selectAll ++ (main ++ ' ' :: Text.join " " (js.map Join.text))

theorem join_eq_joinsText {js : List Join} (filled : js ≠ []) : ' ' :: Text.join " " (js.map Join.text) = joinsText js := by
  induction js with
  | nil => exact absurd rfl filled
  | cons j js ih =>
    cases js with
    | nil => simp [join_singleton, joinsText]
    | cons k js =>
      have later := ih (by simp)
      rw [List.map_cons, List.map_cons, join_cons_cons, joinsText, List.flatMap_cons]
      rw [List.map_cons, joinsText] at later
      rw [← later]
      rfl

theorem IsJoinClause.isWritten {j : Join} (join : IsJoinClause j) : (Piece.ofJoin false j).IsWritten :=
  isWritten_ofJoin false join.toIsJoinHead fun filled => isCondition_space (join.on filled).1 (join.on filled).2

theorem last_joinHead {j : Join} (head : IsJoinHead j) (before : Text) :
    (before ++ joinHead j).getLast?.any (fun c => isBlank c || c == ';') = false := by
  cases given : j.alias? with
  | none =>
    have text : before ++ joinHead j = before ++ (joinText j.kind j.outer ++ [' ']) ++ j.table := by
      simp [joinHead, given, aliasText]
    rw [text]
    exact last_word (isTableWord_of_isJoinable head.table) _
  | some name =>
    have text : before ++ joinHead j = before ++ (joinText j.kind j.outer ++ ' ' :: (j.table ++ [' '])) ++ name := by
      simp [joinHead, given, aliasText]
    rw [text]
    exact last_word (isTableWord_of_isJoinable (head.given name given).2) _

/-- The end of a statement is taken away from its last join. -/
theorem exists_stripped {j : Join} (join : IsJoinClause j) {b : Text} (first : b.head?.any isBlank = false) (filled : b ≠ []) :
    ∃ tail, strip (b ++ ' ' :: (joinHead j ++ clauseText "ON" j.on)) = b ++ ' ' :: (joinHead j ++ tail) ∧
      Piece.IsWritten ⟨j, false, tail⟩ := by
  have solid (t : Text) : (b ++ t).head?.any isBlank = false := by
    obtain ⟨c, more, rfl⟩ := List.exists_cons_of_ne_nil filled
    exact first
  by_cases empty : j.on = []
  · have cut := strip_append (solid (' ' :: joinHead j)) (by
      have last := last_joinHead join.toIsJoinHead (b ++ [' '])
      simpa using last) (by simp) []
    refine ⟨[], ?_, join.toIsJoinHead, .inl ⟨empty, rfl⟩⟩
    rw [show stripEnd [] = [] from rfl] at cut
    rw [empty, clauseText_nil]
    simpa using cut
  · have cut := strip_keyword (solid (' ' :: joinHead j)) (by simp) (by decide : isTableWord "ON".toList = true) (' ' :: j.on)
    have condition := isCondition_space (join.on empty).1 (join.on empty).2
    refine ⟨" ON".toList ++ stripEnd (' ' :: j.on), ?_, join.toIsJoinHead,
      .inr ⟨empty, _, rfl, isCondition_stripEnd condition⟩⟩
    rw [clauseText_of_ne_nil empty]
    simpa using cut

section Joined

variable {main : Text} {js : List Join} (named : isJoinable main = true) (joins : ∀ j ∈ js, IsJoinClause j)
include named joins

/-- A selection without its end is still made of its joins. -/
theorem exists_pieces :
    ∃ ps, strip (joinedText main js) = selectAll ++ main ++ piecesText ps ∧ ps.map Piece.join = js ∧
      (∀ c ∈ ps, c.IsWritten) ∧ ∀ c ∈ ps, c.ticked = false := by
  have first (t : Text) : (selectAll ++ t).head?.any isBlank = false := rfl
  have filled (t : Text) : selectAll ++ t ≠ [] := List.append_ne_nil_of_left_ne_nil (by decide) t
  rcases List.eq_nil_or_concat js with rfl | ⟨init, last, eq⟩
  · have cut := strip_append (first main) (last_word (isTableWord_of_isJoinable named) _) (filled main) [' ']
    refine ⟨[], ?_, rfl, by simp, by simp⟩
    rw [List.append_assoc] at cut
    exact cut
  · rw [List.concat_eq_append] at eq
    subst eq
    have front : ∀ j ∈ init, IsJoinClause j := fun j mem => joins j (List.mem_append_left _ mem)
    have join := joins last (List.mem_append_right _ (List.mem_singleton_self last))
    have text : joinedText main (init ++ [last]) = selectAll ++ (main ++ piecesText (init.map (Piece.ofJoin false))) ++
        ' ' :: (joinHead last ++ clauseText "ON" last.on) := by
      have joined := piecesText_ofJoin fun j mem => (joins j mem).keyword
      have last' : piecesText ((init ++ [last]).map (Piece.ofJoin false)) = piecesText (init.map (Piece.ofJoin false)) ++
          ' ' :: (joinHead last ++ clauseText "ON" last.on) := by
        rw [List.map_append, List.map_singleton, piecesText_concat]
        rfl
      rw [joinedText, join_eq_joinsText (by simp), ← joined, last', List.append_assoc, List.append_assoc]
    obtain ⟨tail, cut, written⟩ := exists_stripped join
      (first (main ++ piecesText (init.map (Piece.ofJoin false)))) (filled _)
    refine ⟨init.map (Piece.ofJoin false) ++ [⟨last, false, tail⟩], ?_, ?_, ?_, ?_⟩
    · rw [text, cut, piecesText_concat, ← List.append_assoc, ← List.append_assoc]
      rfl
    · rw [List.map_append, map_join_ofJoin]
      rfl
    · intro c mem
      rcases List.mem_append.1 mem with early | late
      · obtain ⟨j, listed, rfl⟩ := List.mem_map.1 early
        exact (front j listed).isWritten
      · obtain rfl := List.mem_singleton.1 late
        exact written
    · exact List.forall_mem_append.2 ⟨List.forall_mem_map.2 fun _ _ => rfl, List.forall_mem_singleton.2 rfl⟩

omit joins in
/-- The table after `FROM` is found. -/
theorem isSome_main (ps : List Piece) :
    (Source.ofText (selectAll ++ main ++ piecesText ps)).main?.isSome = true := by
  have plain : Plain (selectAll ++ main) :=
    plain_append.2 ⟨by decide, plain_of_class (by decide) (chars_of_isTableWord (isTableWord_of_isJoinable named))⟩
  have ends : EndsTable (mask .nested (piecesText ps)) := by
    have all := endsTable_piecesText (t := []) ps (.inl rfl)
    rwa [List.append_nil] at all
  obtain ⟨m, spill, after, read, _⟩ := @tableMatch_between ("SELECT * ".toList ++ ("FROM".toList ++ [' ']))
    (mask .nested (piecesText ps)) main none false (isTableWord_of_isJoinable named) (by simp) ends
  have lower : isLowerWord "from".toList = true := by decide
  have same : sameFold "from".toList "FROM".toList = true := by decide
  have left : "SELECT * ".toList.getLast?.any isWord = false := by decide
  have fits := (keyword_space lower same left (not_isBlank_of_isTableWord (isTableWord_of_isJoinable named) _)).trans read
  have text : mask .nested (selectAll ++ main ++ piecesText ps) =
      "SELECT * ".toList ++ ("FROM".toList ++ ' ' :: (main ++ (aliasText none ++ mask .nested (piecesText ps)))) := by
    have lead : selectAll = "SELECT * ".toList ++ ("FROM".toList ++ [' ']) := by decide
    rw [mask_plain_append _ plain, lead]
    simp [aliasText]
  have found : ((Source.ofText (selectAll ++ main ++ piecesText ps)).find fromTable).isSome = true := by
    have place : (fromTable (between ([] ++ "SELECT * ".toList)
        ("FROM".toList ++ ' ' :: (main ++ (aliasText none ++ mask .nested (piecesText ps)))))).isSome = true :=
      Option.isSome_of_eq_some fits
    have present := find_isSome_iff.2 ⟨_, _, text, place⟩
    exact present
  obtain ⟨hit, here⟩ := Option.isSome_iff_exists.1 found
  rw [Source.main?, here]
  rfl

omit joins in
/-- Nothing in front of the joins looks like one. -/
theorem isQuiet_lead : IsQuiet otherKeys (selectAll ++ main) := by
  have silent : ∀ k ∈ joinOpeners.map Key.word, k.begins selectAll = false := by decide
  refine isQuiet_of_plain (plain_append.2 ⟨by decide, plain_of_class (by decide) (chars_of_isTableWord
    (isTableWord_of_isJoinable named))⟩) ?_
  intro k mem other has
  have listed := mem_of_not_mem_otherKeys k mem other
  have lower := isLower_clauseKeys k mem
  rcases Key.begins_append lower (.inl (by decide)) has with words | name
  · rw [← Key.begins_iff lower, silent k listed] at words
    cases words
  · exact not_begins_of_isJoinable named listed name

/-- **The joins of a selection that are read**, and when they are the ones that were written. -/
theorem parse_joinedText :
    ∃ s, parse (joinedText main js) = .ok s ∧ s.joins = readBack false js ∧
      (s.joins = js ↔ (∀ j ∈ js, trim j.on = j.on ∧ ';' ∉ mask .nested j.on) ∧ ∀ j ∈ js.dropLast, isBare j = false) := by
  obtain ⟨ps, text, same, written, bare⟩ := exists_pieces named joins
  have read : (Source.ofText (strip (joinedText main js))).joins = .ok (readBack false js) := by
    have nothing : IsPart [] [] := isPart_nil
    have all := joins_piecesText written (.inl rfl) (isQuiet_lead named) (by decide) nothing (by decide) fun _ => .inl rfl
    rwa [List.append_nil, readPieces_eq_readBack bare, same, ← text] at all
  have closed : ∀ j ∈ js, isClosed j.on = true := by
    intro j mem
    by_cases empty : j.on = []
    · rw [empty]
      rfl
    · exact ((joins j mem).on empty).1
  rcases parse_cases (joinedText main js) with ⟨_, empty⟩ | ⟨s, parsed, _, reads⟩
  · have main := isSome_main named ps
    rw [← text, empty] at main
    cases main
  · have value : s.joins = readBack false js := Except.ok.inj (reads.joins.symm.trans read)
    refine ⟨s, parsed, value, ?_⟩
    rw [value, readBack_eq_self_iff]
    exact and_congr_left fun _ => forall₂_congr fun j mem => readCondition_eq_self_iff (closed j mem)

end Joined

/-- A `CROSS JOIN` without an alias, and behind it a `LEFT JOIN`, which is read as a plain one. -/
theorem parse_joinedText_crossed :
    let js : List Join := [⟨.cross, false, "CROSS JOIN", "a", none, []⟩, ⟨.left, false, "LEFT JOIN", "b", none, "m.id = b.m_id"⟩]
    (isJoinable "m" = true ∧ ∀ j ∈ js, IsJoinClause j) ∧
      ∃ s, parse "SELECT * FROM m CROSS JOIN a LEFT JOIN b ON m.id = b.m_id" = .ok s ∧ s.joins ≠ js ∧
        s.joins = [⟨.cross, false, "CROSS JOIN", "a", none, []⟩, ⟨.plain, false, "JOIN", "b", none, "m.id = b.m_id"⟩] := by
  intro js
  have named : isJoinable "m" = true := by decide
  have joins : ∀ j ∈ js, IsJoinClause j := by
    rw [List.forall_mem_cons, List.forall_mem_singleton]
    constructor
    · exact ⟨⟨by decide, by decide, by decide, by simp⟩, by simp⟩
    · have shown : ∀ k ∈ joinEndKeys, ¬ k.Occurs (mask .nested "m.id = b.m_id") :=
        Key.not_occurs_of_all isLower_joinEndKeys (by decide +kernel)
      exact ⟨⟨by decide, by decide, by decide, by simp⟩, fun _ => ⟨by decide, fun k mem _ => shown k mem⟩⟩
  have text : joinedText "m" js = "SELECT * FROM m CROSS JOIN a LEFT JOIN b ON m.id = b.m_id".toList := by decide
  have back : readBack false js =
      [⟨.cross, false, "CROSS JOIN", "a", none, []⟩, ⟨.plain, false, "JOIN", "b", none, "m.id = b.m_id"⟩] := by
    decide +kernel
  obtain ⟨s, parsed, read, _⟩ := parse_joinedText named joins
  rw [text] at parsed
  rw [back] at read
  refine ⟨⟨named, joins⟩, s, parsed, ?_, read⟩
  rw [read]
  decide

end Statement
end QueryCode
