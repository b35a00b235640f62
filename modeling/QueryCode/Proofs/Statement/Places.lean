import QueryCode.Proofs.Statement.Keyword
import QueryCode.Proofs.Text.Top

/-!
# Where the patterns of clauses stop

Each pattern starts with a keyword, which the mask shows only outside literals and parentheses, and then passes over
letters, digits, white space, points and backticks. So it starts and stops outside of them. These are the places at
which the statement is cut.
-/

namespace QueryCode
set_option autoImplicit false

namespace Pattern

open Text Text.Scan Text.Cursor

variable {t : Text} {n : Nat}

theorem leads_here {P : Cursor → Prop} : Leads P here fun a cur => P a ∧ P cur := by
  rintro cur _ _ place ⟨⟩
  exact ⟨place, place⟩

/-! ## Keywords -/

/-- The first keyword of a pattern. -/
theorem leads_opening {w : Text} (lower : isLowerWord w = true) :
    Leads (Ahead (mask .nested t) n) (discard (letters w)) fun _ => Top t (n + 1) := (leads_letters lower).discard

theorem leads_word {w : Text} (lower : isLowerWord w = true) :
    Leads (Ahead (mask .nested t) n) (word w) fun _ => Top t (n + 1) :=
  leads_edge.bind fun _ => (leads_opening lower).bind fun _ => leads_edge

theorem leads_phrase {v w : Text} (first : isLowerWord v = true) (second : isLowerWord w = true) :
    Leads (Ahead (mask .nested t) n) (phrase v w) fun _ => Top t (n + 1) := by
  refine leads_edge.bind fun _ => (leads_opening first).bind fun _ => leads_blanks1.bind fun _ => ?_
  exact (leads_keyword second).bind fun _ => leads_edge

theorem leads_selectList : Leads (Top t n) selectList fun _ => Top t n := by
  refine leads_blanks.bind fun _ => (leads_keyword (by decide)).bind fun _ => leads_blanks1.bind fun _ => ?_
  refine (Leads.opt (R := fun _ => Top t n) ?_ fun _ top => top).bind fun _ => leads_pure fun _ top => top
  exact (leads_keyword (by decide)).bind fun _ => leads_blanks1

theorem leads_on : Leads (Top t n) on fun _ => Top t n :=
  leads_blanks1.bind fun _ => (leads_keyword (by decide)).bind fun _ => leads_edge

/-! ## Names -/

theorem leads_name : Leads (Top t n) name fun _ => Top t n := by
  refine ((leads_one (by decide)).of fun _ => Top.toAhead).bind fun _ => ?_
  exact (leads_run (by decide)).bind fun _ => leads_pure fun _ top => top

theorem leads_char {c : Char} (unlisted : [' ', '\'', '"', '(', ')'].any (· == c) = false) :
    Leads (Top t n) (discard (char c)) fun _ => Top t n := ((leads_one unlisted).of fun _ => Top.toAhead).discard

theorem leads_tick : Leads (Top t n) tick fun _ => Top t n :=
  (((leads_one (by decide)).of fun _ => Top.toAhead).opt fun _ top => top).discard

theorem leads_schema : Leads (Top t n) schema fun _ => Top t n := by
  refine leads_tick.bind fun _ => (leads_run1 (by decide)).discard.bind fun _ => leads_tick.bind fun _ => ?_
  exact leads_char (by decide)

theorem leads_tickedName : Leads (Top t n) tickedName fun found cur => Top t n found.2 ∧ Top t n cur := by
  refine leads_tick.bind fun _ => leads_name.bind fun _ => leads_here.bind fun stop => ?_
  exact (leads_tick.frame (Top t n stop)).bind fun _ => leads_pure fun _ both => both

theorem leads_tableName : Leads (Top t n) tableName fun found cur => Top t n found.2 ∧ Top t n cur :=
  (leads_schema.bind fun _ => leads_tickedName).orElse leads_tickedName

theorem leads_nextName : Leads (Top t n) nextName fun found cur => Top t n found.2 ∧ Top t n cur := by
  have bare : Leads (Top t n) nextName.bare fun found cur => Top t n found.2 ∧ Top t n cur :=
    leads_name.bind fun _ => leads_here.bind fun _ => leads_pure fun _ both => both
  refine leads_blanks1.bind fun _ => .orElse ?_ bare
  exact (leads_keyword (by decide)).bind fun _ => leads_blanks1.bind fun _ => bare

/-- The places at which a table and its alias end. -/
structure TableMatch.Placed (t : Text) (n : Nat) (found : TableMatch) : Prop where
  stop : Top t n found.stop
  next : ∀ next ∈ found.next, Top t n next.2

theorem TableMatch.Placed.finish {found : TableMatch} (placed : found.Placed t n) : Top t n found.finish := by
  unfold TableMatch.finish TableMatch.alias?
  split
  · rename_i word stop kept
    exact placed.next _ (Option.filter_eq_some_iff.1 kept).1
  · exact placed.stop

theorem leads_tableMatch : Leads (Top t n) tableMatch fun found cur => found.Placed t n ∧ Top t n cur := by
  have next : Leads (Top t n) (opt nextName) fun next cur => (∀ word ∈ next, Top t n word.2) ∧ Top t n cur := by
    refine (leads_nextName.mono fun a cur both => ?_).opt fun cur top => ⟨fun _ => nofun, top⟩
    exact ⟨fun _ same => Option.some.inj same ▸ both.1, both.2⟩
  refine leads_tableName.bind fun found => (next.frame (Top t n found.2)).bind fun _ => leads_pure fun _ all => ?_
  exact ⟨⟨all.1, all.2.1⟩, all.2.2⟩

/-! ## Joins -/

/-- The words of a join are keywords with white space between them. -/
theorem leads_joinWords_of {P Q : Cursor → Prop}
    (opening : ∀ w, isLowerWord w = true → Leads P (letters w) fun _ => Q) (gap : Leads Q blanks1 fun _ => Q)
    (keyword : ∀ w, isLowerWord w = true → Leads Q (letters w) fun _ => Q) : Leads P joinWords fun _ => Q := by
  have words (ws : List Text) (lower : ∀ w ∈ ws, isLowerWord w = true) : Leads P (first (ws.map letters)) fun _ => Q := by
    refine leads_first fun p mem => ?_
    obtain ⟨w, listed, rfl⟩ := List.mem_map.1 mem
    exact opening w (lower w listed)
  have outer : Leads Q (opt (do blanks1; discard (letters "outer"))) fun _ => Q :=
    (gap.bind fun _ => (keyword _ (by decide)).discard).opt fun _ place => place
  refine .orElse ?_ (.orElse ?_ ?_)
  · refine (words ["inner".toList, "cross".toList] (by decide)).bind fun _ => gap.bind fun _ => ?_
    exact (keyword _ (by decide)).discard.bind fun _ => leads_pure fun _ place => place
  · refine (words ["left".toList, "right".toList, "full".toList] (by decide)).bind fun _ => outer.bind fun _ => ?_
    exact gap.bind fun _ => (keyword _ (by decide)).discard.bind fun _ => leads_pure fun _ place => place
  · exact (opening _ (by decide)).discard.bind fun _ => leads_pure fun _ place => place

theorem leads_joinWords : Leads (Ahead (mask .nested t) n) joinWords fun _ => Top t (n + 1) := by
  refine leads_joinWords_of (fun w lower => leads_letters lower) leads_blanks1 fun w lower => ?_
  exact ((leads_letters lower).mono fun _ _ top => top.mono (Nat.le_succ _)).of fun _ => Top.toAhead

/-- The places in a join at which the statement is cut. -/
structure JoinMatch.Placed (t : Text) (n : Nat) (found : JoinMatch) : Prop where
  words : Top t n found.wordsEnd
  table : found.table.Placed t n

theorem leads_join :
    Leads (Ahead (mask .nested t) n) join fun found cur => found.Placed t (n + 1) ∧ Top t (n + 1) cur := by
  refine leads_edge.bind fun _ => leads_joinWords.bind fun _ => leads_here.bind fun wordsEnd => ?_
  refine (leads_blanks1.frame (Top t (n + 1) wordsEnd)).bind fun _ => ?_
  refine (leads_tableMatch.frame (Top t (n + 1) wordsEnd)).bind fun _ => leads_pure fun _ all => ?_
  exact ⟨⟨all.1, all.2.1⟩, all.2.2⟩

/-! ## Starts -/

/-- A pattern that starts with a keyword or a semicolon fits only outside. -/
theorem Starts.top {α : Type} {p : Scan α} {ks : List Key} (starts : Starts p ks) (lower : ∀ k ∈ ks, k.isLower = true)
    {cur : Cursor} (ahead : Ahead (mask .nested t) n cur) (fits : (p cur).isSome = true) : Top t n cur := by
  refine ahead.top (.inr ?_)
  obtain ⟨⟨before, rest, -, rfl⟩, -⟩ := ahead
  obtain ⟨k, mem, stands⟩ := starts before rest fits
  have word {w : Text} (lower : isLowerWord w = true) (stands : WordAt w before rest) : rest.head?.any isInk = true := by
    obtain ⟨found, after, rfl, same, -⟩ := stands
    obtain ⟨c, tail, rfl⟩ := List.exists_cons_of_ne_nil (ne_nil_of_sameFold lower same)
    exact isInk_of_isWord (isWord_of_sameFold lower same c List.mem_cons_self)
  cases k with
  | word w => exact word (lower _ mem) stands
  | «by» v => exact word (lower _ mem) (Key.wordAt_of_phraseAt stands)
  | semicolon =>
    rw [rest_between, show rest.head? = some ';' from stands]
    decide

end Pattern
end QueryCode
