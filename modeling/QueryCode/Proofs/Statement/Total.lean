import QueryCode.Proofs.Statement.Clause
import QueryCode.Proofs.Statement.Places
import QueryCode.Statement.Parser

/-!
# Every text is read

The places at which a statement is cut are places of its mask next to a letter or a semicolon, or in front of what
follows white space, and a list is cut at its parentheses. So each clause can be cut out, whatever characters the
statement has, and a statement with a table is what is read clause by clause: `parse_cases`.
-/

namespace QueryCode
set_option autoImplicit false

namespace Statement

open Text Text.Cursor Text.Scan Pattern

/-- An assignment is cut before and after its equals sign, if one shows. -/
theorem assignment_spec (pair : Text) :
    ∃ found, assignment? pair = .ok found ∧ (found.isSome = true ↔ '=' ∈ mask .nested pair) := by
  unfold assignment?
  cases sign : findTop? '=' pair with
  | none => exact ⟨none, rfl, by simpa using offsetOf_none.1 sign⟩
  | some eq =>
    obtain ⟨u, v, split, rfl⟩ := offsetOf_some sign
    have after : mask .nested pair = (u ++ ['=']) ++ v := by rw [split, List.append_assoc]; rfl
    have wide : size (u ++ ['=']) = size u + 1 := by rw [size_append]; rfl
    obtain ⟨_, _, _, _, name⟩ := exists_cut (isBoundary_of_mask split (.inr (by simp)))
    obtain ⟨_, _, _, _, value⟩ := exists_cut (isBoundary_of_mask after (.inl (by simp)))
    rw [wide] at value
    dsimp only
    rw [name, value]
    exact ⟨_, rfl, by simp [split]⟩

namespace Source

variable {t : Text} {n : Nat} {stop : Scan Unit} {ks : List Key}

/-- The text `x` of a clause: it starts at a place outside literals and parentheses, and so does what follows it. -/
structure IsCut (t u x v : Text) (cur : Cursor) : Prop where
  whole : t = u ++ (x ++ v)
  closed : isClosed u = true
  apart : Apart u (x ++ v)
  place : cur = between (Text.mask .nested u) (Text.mask .nested (x ++ v))
  ends : v = [] ∨ isClosed x = true ∧ Apart x v

theorem IsCut.slice {u x v : Text} {cur : Cursor} (cut : IsCut t u x v cur) :
    Text.slice cur.offset (Text.size (u ++ x)) t = .ok x := by
  have sliced := slice_append u x v
  rwa [List.append_assoc, ← cut.whole, show Text.size u = cur.offset by rw [cut.place, offset_between, size_mask]] at sliced

/-- What is cut out from a place outside to the end of a clause. -/
theorem exists_isCut (starts : Starts stop ks) (lower : ∀ k ∈ ks, k.isLower = true) {cur : Cursor} (top : Top t n cur) :
    ∃ u x v, IsCut t u x v cur ∧ (ofText t).endFrom stop cur = Text.size (u ++ x) := by
  obtain ⟨u, w, rfl, closed, apart, rfl⟩ := top.outside
  unfold endFrom
  split
  · rename_i hit found
    obtain ⟨place, fits⟩ := find_ahead ⟨top.toAhead.within, le_refl _⟩ found
    obtain ⟨⟨u', v, whole, closed', apart', start⟩, late⟩ := starts.top lower place (Option.isSome_of_eq_some fits)
    rw [start, offset_between, offset_between, size_mask, size_mask] at late
    obtain ⟨x, rfl, rfl⟩ := append_of_size_le whole late
    refine ⟨u, x, v, ⟨rfl, closed, apart, rfl, .inr ⟨?_, apart'.of_append⟩⟩, ?_⟩
    · exact isClosed_of_append closed apart.left closed'
    · rw [start, offset_between, size_mask]
  · refine ⟨u, w, [], ⟨by rw [List.append_nil], closed, by rwa [List.append_nil], by rw [List.append_nil], .inl rfl⟩, ?_⟩
    exact size_mask .nested _

theorem returns_slice (starts : Starts stop ks) (lower : ∀ k ∈ ks, k.isLower = true) {cur : Cursor} (top : Top t n cur) :
    Returns (Text.slice cur.offset ((ofText t).endFrom stop cur) (ofText t).text) := by
  obtain ⟨u, x, v, cut, stop⟩ := exists_isCut starts lower top
  exact ⟨x, stop ▸ cut.slice⟩

theorem returns_body (starts : Starts stop ks) (lower : ∀ k ∈ ks, k.isLower = true) {cur : Cursor} (top : Top t n cur) :
    Returns ((ofText t).body cur stop) :=
  (returns_slice starts lower top).bind fun _ => returns_pure _

theorem returns_clause {start : Scan Unit} (leads : Leads (Ahead (Text.mask .nested t) 0) start fun _ => Top t 1)
    (starts : Starts stop ks) (lower : ∀ k ∈ ks, k.isLower = true) : Returns ((ofText t).clause start stop) := by
  unfold clause
  split
  · exact returns_ok none
  · rename_i hit found
    obtain ⟨place, fits⟩ := find_ahead (ahead_start _) found
    exact (returns_body starts lower (leads _ _ _ place fits)).bind fun _ => returns_pure _

theorem returns_list (start : Cursor) : Returns ((ofText t).list start) := by
  unfold list
  split
  · exact returns_ok none
  · rename_i stop found
    unfold Text.matchingParen? at found
    split at found
    · rename_i before tail split
      obtain ⟨⟨inner, rest⟩, closed, rfl⟩ := Option.map_eq_some_iff.1 found
      -- the two boundaries are those after the opening and before the closing parenthesis
      have whole : (ofText t).text = before ++ ['('] ++ inner ++ ')' :: rest := by
        rw [Text.cut_append split, parenBody_append closed]
        simp
      have sliced := slice_append (before ++ ['(']) inner (')' :: rest)
      have wide : Text.size (before ++ ['(']) = start.offset + 1 := by rw [size_append, size_of_cut split]; rfl
      rw [← whole, size_append (before ++ _), wide] at sliced
      exact Returns.bind ⟨inner, sliced⟩ fun items => (returns_splitTop (by decide) items).bind fun _ => returns_pure _
    · cases found

theorem returns_selectColumns : Returns (ofText t).selectColumns := by
  unfold selectColumns
  split
  · exact returns_ok _
  · rename_i distinct start found
    have top := leads_selectList _ _ _ (top_start t) found
    refine (returns_slice (starts_word (by decide)) (by decide) top).bind fun items => ?_
    exact (returns_splitTop (by decide) items).bind fun _ => returns_pure _

theorem returns_insertColumns : Returns (ofText t).insertColumns := by
  unfold insertColumns
  split
  · exact returns_ok _
  · exact (returns_list _).bind fun _ => returns_pure _

theorem returns_columns (kind : Kind) : Returns ((ofText t).columns kind) := by
  unfold columns
  split
  · exact returns_selectColumns
  · exact returns_insertColumns.bind fun _ => returns_pure _
  · exact returns_ok _

theorem returns_join {hit : Hit JoinMatch} (place : Ahead (Text.mask .nested t) 0 hit.start)
    (fits : Pattern.join hit.start = some (hit.value, hit.stop)) : Returns ((ofText t).join hit) := by
  have here : Ahead (Text.mask .nested t) hit.start.offset hit.start := ⟨place.within, le_refl _⟩
  obtain ⟨placed, -⟩ := leads_join _ _ _ here fits
  have start : Top t 0 hit.start :=
    (starts_of_opens opens_join).top (by decide) place (Option.isSome_of_eq_some fits)
  obtain ⟨_, keyword, _, _, _, _, sliced⟩ := exists_slice start.isBoundary placed.words.isBoundary
    (Nat.le_of_succ_le placed.words.late)
  unfold Source.join
  refine Returns.bind ⟨keyword, sliced⟩ fun _ => ?_
  dsimp only
  split
  · rename_i u after found
    have top := leads_on _ _ _ placed.table.finish found
    exact (returns_body starts_joinEnd (by decide) top).bind fun _ => returns_pure _
  · exact returns_pure _

theorem returns_joins : Returns (ofText t).joins := by
  refine Returns.mapM fun hit mem => ?_
  obtain ⟨place, fits⟩ := findAll_ahead (leads_join.mono fun _ _ both => both.2.toAhead.mono (Nat.zero_le _)) hit mem
  exact returns_join place fits

theorem returns_groupBy : Returns (ofText t).groupBy := by
  refine (returns_clause (leads_phrase (by decide) (by decide)) starts_groupEnd (by decide)).bind fun found => ?_
  split
  · exact returns_pure _
  · rename_i terms
    exact (returns_splitTop (by decide) terms).bind fun _ => returns_pure _

theorem returns_orderBy : Returns (ofText t).orderBy := by
  refine (returns_clause (leads_phrase (by decide) (by decide)) starts_orderEnd (by decide)).bind fun found => ?_
  split
  · exact returns_pure _
  · rename_i terms
    exact (returns_splitTop (by decide) terms).bind fun _ => returns_pure _

theorem returns_values : Returns (ofText t).values := by
  unfold values
  split
  · exact returns_ok none
  · exact returns_list _

theorem returns_assignments : Returns (ofText t).assignments := by
  refine (returns_clause (leads_word (by decide)) starts_setEnd (by decide)).bind fun found => ?_
  split
  · exact returns_pure none
  · rename_i pairs
    refine (returns_splitTop (by decide) pairs).bind fun items => ?_
    refine (Returns.mapM fun item _ => ?_).bind fun _ => returns_pure _
    obtain ⟨found, read, -⟩ := assignment_spec item
    exact ⟨found, read⟩

end Source

/-- **Every text is read.** One without a table is no statement, and each part of the others is what is read for it. -/
theorem parse_cases (t : Text) :
    (parse t = .ok {} ∧ (Source.ofText (strip t)).main? = none) ∨
      ∃ s, parse t = .ok s ∧ s.main.isSome = true ∧ ReadsAs (strip t) s := by
  cases table : (Source.ofText (strip t)).main? with
  | none =>
    refine .inl ⟨?_, rfl⟩
    rw [parse]
    dsimp only
    rw [table]
    rfl
  | some main =>
    obtain ⟨kind, readKind⟩ : ∃ kind, kindOf (strip t) = kind := ⟨_, rfl⟩
    obtain ⟨⟨columns, distinct⟩, readColumns⟩ := Source.returns_columns (t := strip t) kind
    obtain ⟨joins, readJoins⟩ := Source.returns_joins (t := strip t)
    obtain ⟨condition, readCondition⟩ : Returns ((Source.ofText (strip t)).clause (Scan.word "where") whereEnd) :=
      Source.returns_clause (leads_word (by decide)) starts_whereEnd (by decide)
    obtain ⟨values, readValues⟩ :
        Returns (if kind == .insert then (Source.ofText (strip t)).values else .ok none) := by
      split
      · exact Source.returns_values
      · exact returns_ok none
    obtain ⟨assignments, readAssignments⟩ :
        Returns (if kind == .update then (Source.ofText (strip t)).assignments else .ok none) := by
      split
      · exact Source.returns_assignments
      · exact returns_ok none
    obtain ⟨groupBy, readGroup⟩ := Source.returns_groupBy (t := strip t)
    obtain ⟨having, readHaving⟩ : Returns ((Source.ofText (strip t)).clause (Scan.word "having") havingEnd) :=
      Source.returns_clause (leads_word (by decide)) starts_havingEnd (by decide)
    obtain ⟨orderBy, readOrder⟩ := Source.returns_orderBy (t := strip t)
    let s : Statement := {
      kind, main := some main, distinct, columns, joins, condition := condition.getD [], values,
      assignments, groupBy, having, orderBy, limit := (Source.ofText (strip t)).limit? }
    have reads : ReadsAs (strip t) s :=
      ⟨table, readKind, readColumns, readJoins, ⟨condition, readCondition, rfl⟩, readValues, readAssignments, readGroup,
        readHaving, readOrder, rfl⟩
    exact .inr ⟨s, reads.parse rfl rfl, rfl, reads⟩

/-- What a text is read as. -/
theorem reads_of_parse {t : Text} {s : Statement} (read : parse t = .ok s) : s = {} ∨ ReadsAs (strip t) s := by
  rcases parse_cases t with ⟨read', -⟩ | ⟨s', read', -, reads⟩
  · exact .inl (Except.ok.inj (read.symm.trans read'))
  · exact .inr (Except.ok.inj (read.symm.trans read') ▸ reads)

theorem returns_parse (t : Text) : Returns (parse t) := by
  rcases parse_cases t with ⟨read, -⟩ | ⟨s, read, -⟩
  · exact ⟨{}, read⟩
  · exact ⟨s, read⟩

end Statement
end QueryCode
