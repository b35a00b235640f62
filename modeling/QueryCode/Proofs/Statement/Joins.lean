import QueryCode.Proofs.Statement.Select
import QueryCode.Proofs.Text.Hidden

/-!
# The joins of a statement

Joins are looked for one after the other, each search starting where the last match stopped. The match of a join without
an alias has taken the next word with it. If that is `ON`, the search goes on inside the condition. If it is the first
word of the next join, that join is lost: what is found of it is at most a join without its side. So the joins that are
read are those of `readBack`, and all of them are read back where every join but the last has an alias or a condition.
-/

namespace QueryCode
set_option autoImplicit false

open Text Text.Scan Text.Cursor Pattern

namespace Statement

/-! ## The text of a join -/

/-- A join up to its condition. -/
def joinHead (j : Join) : Text := joinText j.kind j.outer ++ ' ' :: (j.table ++ aliasText j.alias?)

/-- What a join may show: its own words, and those of a table in its condition. -/
def joinKeys : List Key := .word "from" :: .word "into" :: joinOpeners.map .word

/-- The name can be that of a joined table: it is no word with which a join starts. -/
def isJoinable (name : Text) : Bool := isTableWord name && joinOpeners.all (!sameFold · name)

/-- A join that can be written up to its condition: its words are those of its kind, and its table and alias are names. -/
structure IsJoinHead (j : Join) : Prop where
  sides : canBe j.kind j.outer = true
  keyword : j.keyword = joinText j.kind j.outer
  table : isJoinable j.table = true
  given : ∀ given ∈ j.alias?, isAlias given = true ∧ isJoinable given = true

theorem isTableWord_of_isJoinable {name : Text} (joinable : isJoinable name = true) : isTableWord name = true :=
  (Bool.and_eq_true_iff.1 joinable).1

theorem not_begins_of_isJoinable {name : Text} (joinable : isJoinable name = true) {k : Key}
    (mem : k ∈ joinOpeners.map Key.word) : ¬ k.Begins name := by
  obtain ⟨w, listed, rfl⟩ := List.mem_map.1 mem
  rw [isJoinable, Bool.and_eq_true, List.all_eq_true] at joinable
  refine Key.not_begins_of_word (chars_of_isTableWord joinable.1) ?_
  rintro _ ⟨⟩
  simpa using joinable.2 w listed

theorem isJoinable_of_isFreeName {name : Text} (free : isFreeName name = true) : isJoinable name = true := by
  have listed : ∀ w ∈ joinOpeners, String.ofList w ∈ keywords := by decide
  rw [isJoinable, isTableWord_of_isFreeName free, Bool.true_and, List.all_eq_true]
  intro w mem
  have other := sameFold_of_isFreeName free (listed w mem)
  rw [String.toList_ofList] at other
  rw [other]
  rfl

theorem isAlias_of_isFreeAlias {name : Text} (free : isFreeAlias name = true) : isAlias name = true := by
  rw [isFreeAlias, Bool.and_eq_true, Bool.not_eq_true'] at free
  have listed : "as" ∈ keywords := by decide
  rw [isAlias, isTableWord_of_isFreeName free.1, sameFold_of_isFreeName free.1 listed, free.2]
  rfl

theorem isFreeName_of_isFreeAlias {name : Text} (free : isFreeAlias name = true) : isFreeName name = true :=
  (Bool.and_eq_true_iff.1 free).1

/-- A text that shows no keyword of a clause, such as a table with its alias. -/
structure IsLabel (x : Text) : Prop where
  solid : IsSolid x
  plain : Plain x
  silent : ∀ k ∈ clauseKeys, ¬ k.Begins x

section Table

variable (ticked : Bool) {t : Table}

theorem plain_table (named : Plain t.name) (given : ∀ name ∈ t.alias?, isTableWord name = true) : Plain (tableText t) := by
  refine plain_append.2 ⟨named, ?_⟩
  cases aliased : t.alias? with
  | none => exact plain_nil
  | some name =>
    exact plain_cons.2 ⟨by decide, plain_of_class (by decide) (chars_of_isTableWord (given name aliased))⟩

/-- A table begins a key only if its name or its alias does. -/
theorem not_begins_table {k : Key} (mem : k ∈ clauseKeys) (named : ¬ k.Begins t.name)
    (given : ∀ name ∈ t.alias?, ¬ k.Begins name) : ¬ k.Begins (tableText t) := by
  intro has
  have lower := isLower_clauseKeys k mem
  have edge : (aliasText t.alias?).head?.any isWord = false := by
    cases t.alias? with
    | none => rfl
    | some name => exact not_isWord_of_isBlank (by decide)
  rcases Key.begins_append lower (.inr edge) has with name | has
  · exact named name
  · cases aliased : t.alias? with
    | none =>
      rw [aliased] at has
      exact not_begins_nil mem has
    | some name =>
      rw [aliased] at has
      have parted : Parted [' '] name := .inl (by decide)
      rcases Key.begins_append lower parted has with space | last
      · exact Key.not_begins_space lower space
      · exact given name aliased last

/-- A table as it is spelled. -/
def spelledTable (t : Table) : Table := { t with name := tickText ticked t.name }

/-- The names of a table are free. Its alias may be a reserved word that starts no clause. -/
structure IsFreeTable (t : Table) : Prop where
  name : isFreeName t.name = true
  given : ∀ given ∈ t.alias?, isFreeName given = true

theorem IsTable.isFree (table : IsTable t) : IsFreeTable t :=
  ⟨table.name, fun given mem => isFreeName_of_isFreeAlias (table.given given mem)⟩

theorem isLabel_free (named : IsFreeTable t) : IsLabel (tableText (spelledTable ticked t)) where
  solid := by
    have name := isSolid_tickText ticked (isSolid_of_isFreeName named.name)
    cases given : t.alias? with
    | none =>
      rw [tableText, spelledTable, given, aliasText, List.append_nil]
      exact name
    | some alias' =>
      rw [tableText, spelledTable, given]
      exact name.append (isSolid_of_isFreeName (named.given alias' given)) [' ']
  plain := by
    refine plain_table (plain_tickText ticked (plain_of_class (by decide) (isWord_of_isFreeName named.name))) ?_
    intro name aliased
    exact isTableWord_of_isFreeName (named.given name aliased)
  silent := by
    intro k mem
    have silent := not_begins_of_isFreeName named.name mem
    refine not_begins_table mem (not_begins_tickText ticked (isLower_clauseKeys k mem) silent) ?_
    intro name aliased
    exact not_begins_of_isFreeName (named.given name aliased) mem

theorem isLabel_table (table : IsTable t) : IsLabel (tableText (spelledTable ticked t)) :=
  isLabel_free ticked table.isFree

end Table

/-- A join with its table as it is spelled. -/
def spelledJoin (ticked : Bool) (j : Join) : Join := { j with table := tickText ticked j.table }

theorem text_of_keyword {j : Join} (words : j.keyword = joinText j.kind j.outer) :
    j.text = joinHead j ++ clauseText "ON" j.on := by
  obtain ⟨kind, outer, keyword, table, alias?, on⟩ := j
  rw [Join.text, joinHead, clauseText]
  dsimp only at words ⊢
  rw [words]
  cases alias? with
  | none =>
    simp only [aliasText, List.append_assoc, List.append_nil, List.cons_append]
    rfl
  | some given =>
    simp only [aliasText, List.append_assoc, List.cons_append]
    rfl

theorem isLeading_joinText (kind : JoinKind) (outer : Bool) : isLeading (joinText kind outer) = true := by
  cases kind <;> cases outer <;> decide

section Head

variable {j : Join} (head : IsJoinHead j) (ticked : Bool)
include head

theorem plain_joinTable : Plain (tableText (spelledTable ticked ⟨j.table, j.alias?⟩)) := by
  have name : Plain j.table := plain_of_class (by decide) (chars_of_isTableWord (isTableWord_of_isJoinable head.table))
  exact plain_table (plain_tickText ticked name) fun name given => isTableWord_of_isJoinable (head.given name given).2

/-- The table of a join shows no word with which a join starts. -/
theorem not_begins_joinTable {k : Key} (mem : k ∈ joinOpeners.map Key.word) :
    ¬ k.Begins (tableText (spelledTable ticked ⟨j.table, j.alias?⟩)) := by
  have known : ∀ k ∈ joinOpeners.map Key.word, k ∈ clauseKeys := by decide
  have name := not_begins_tickText ticked (isLower_clauseKeys k (known k mem)) (not_begins_of_isJoinable head.table mem)
  exact not_begins_table (known k mem) name fun name given => not_begins_of_isJoinable (head.given name given).2 mem

theorem plain_joinHead : Plain (joinHead (spelledJoin ticked j)) :=
  plain_append.2 ⟨plain_of_isLeading (isLeading_joinText _ _), plain_cons.2 ⟨by decide, plain_joinTable head ticked⟩⟩

end Head

/-! ## Conditions -/

/-- The condition that is read from a text: all of it up to the first semicolon outside literals and parentheses, without
the white space around it. -/
def readCondition (x : Text) : Text := trim (((cells x).takeWhile (!shows ';' ·)).map Cell.char)

/-- A text without a semicolon belongs to the condition that starts with it. -/
theorem readCondition_append {a b : Text} (closed : isClosed a = true) (apart : Apart a b) (unjoined : ';' ∉ mask .nested a) :
    readCondition (a ++ b) = trim (a ++ ((cells b).takeWhile (!shows ';' ·)).map Cell.char) := by
  have hidden : ∀ cell ∈ cells a, (!shows ';' cell) = true := by
    intro cell mem
    rw [Bool.not_eq_true', ← Bool.not_eq_true]
    intro shown
    exact unjoined ((mem_mask_iff (by decide)).2 ⟨cell, mem, shown⟩)
  have chars : (cells a).map Cell.char = a := Walk.map_char_cells {} a
  rw [readCondition, cells_append closed apart, List.takeWhile_append_of_pos hidden, List.map_append, chars]

theorem readCondition_of_not_mem {a : Text} (closed : isClosed a = true) (unjoined : ';' ∉ mask .nested a) :
    readCondition a = trim a := by
  have read := readCondition_append (b := []) closed (apart_nil a) unjoined
  rwa [show ((cells []).takeWhile (!shows ';' ·)).map Cell.char = [] from rfl, List.append_nil] at read

theorem readCondition_semicolon {a : Text} (closed : isClosed a = true) (unjoined : ';' ∉ mask .nested a) (more : Text) :
    readCondition (a ++ ';' :: more) = trim a := by
  rw [readCondition_append closed (apart_of_head (by decide)) unjoined, cells_cons_plain (by decide),
    List.takeWhile_cons_of_neg (by decide), List.map_nil, List.append_nil]

theorem readCondition_space (x : Text) : readCondition (' ' :: x) = readCondition x := by
  have trimmed (y : Text) : trim (' ' :: y) = trim y := by
    have around := trim_append (t := y) (by decide : Blank [' ']) blank_nil
    rwa [List.append_nil] at around
  rw [readCondition, cells_cons_plain (by decide), List.takeWhile_cons_of_pos (by decide), List.map_cons, trimmed]
  rfl

/-- A condition ends at a semicolon or at the end of its text. -/
theorem exists_condition {y : Text} (closed : isClosed y = true) :
    ∃ a b, y = a ++ b ∧ isClosed a = true ∧ ';' ∉ mask .nested a ∧ (b = [] ∨ ∃ more, b = ';' :: more) ∧
      readCondition y = trim a := by
  by_cases mem : ';' ∈ mask .nested y
  · obtain ⟨shown, rest, split, first⟩ := List.eq_append_cons_of_mem mem
    have ink : (';' :: rest).head?.any isInk = true := (by decide : isInk ';' = true)
    obtain ⟨a, b, rfl, outside, _, rfl, shown⟩ := exists_closed split (.inr ink)
    obtain ⟨more, rfl, _⟩ := exists_of_mask_plain (g := [';']) shown (by decide)
    exact ⟨a, ';' :: more, rfl, outside, first, .inr ⟨more, rfl⟩, readCondition_semicolon outside first more⟩
  · exact ⟨y, [], (List.append_nil y).symm, closed, mem, .inl rfl, readCondition_of_not_mem closed mem⟩

/-- What stands behind the word `ON` and reads as this condition. -/
structure IsCondition (on y : Text) : Prop where
  spaced : Spaced y
  closed : isClosed y = true
  silent : ∀ k ∈ joinEndKeys, k ≠ .semicolon → ¬ k.Occurs (mask .nested y)
  read : readCondition y = readCondition on

theorem isLower_joinEndKeys : ∀ k ∈ joinEndKeys, k.isLower = true := by decide

/-- A condition ends at a semicolon. -/
theorem body_semicolon {a : Text} (closed : isClosed a = true) (silent : ∀ k ∈ joinEndKeys, ¬ k.Occurs (mask .nested a))
    (q more : Text) :
    (Source.ofText (q ++ (a ++ ';' :: more))).body (between (mask .nested q) (mask .nested (a ++ ';' :: more))) joinEnd =
      .ok (trim a) := by
  have plain : Plain [';'] := by decide
  have shown : mask .nested (a ++ ';' :: more) = mask .nested a ++ ';' :: mask .nested more := by
    rw [mask_append _ closed (apart_of_head (by decide))]
    exact congrArg (mask .nested a ++ ·) (mask_plain_append _ plain)
  have follows : Follows (';' :: mask .nested more) := by
    have trimmed : trimStart (';' :: mask .nested more) = ';' :: mask .nested more :=
      List.dropWhile_cons_of_neg (by decide)
    refine ⟨(by decide : isWord ';' = false), ?_⟩
    rw [trimmed]
    exact (by decide : (fold ';' == 'b') = false)
  have misses : Misses joinEnd (mask .nested q) (mask .nested a) (';' :: mask .nested more) :=
    starts_joinEnd.misses fun k mem => Key.silent_of_not_occurs (isLower_joinEndKeys k mem) (silent k mem) follows
  have fits : (joinEnd (between (mask .nested q ++ mask .nested a) (';' :: mask .nested more))).isSome = true := by
    refine first_isSome (p := semicolon) (by simp) ?_
    rw [Pattern.semicolon, char_between]
    rfl
  obtain ⟨⟨_, after⟩, found⟩ := Option.isSome_iff_exists.1 fits
  have cut := slice_append q a (';' :: more)
  have place : size (mask .nested q ++ mask .nested a) = size (q ++ a) := by simp [size_append, size_mask]
  rw [List.append_assoc] at cut
  rw [Source.body, Source.endFrom, shown, find_of_misses misses, find_of_some found]
  dsimp only [offset_between]
  rw [place, size_mask]
  rw [show (Source.ofText (q ++ (a ++ ';' :: more))).text = q ++ (a ++ ';' :: more) from rfl, cut]
  rfl

/-- **The condition of a join is read back** up to a semicolon in it, and trimmed. -/
theorem body_condition {on y z : Text} (written : IsCondition on y) (led : IsLed z) (meets : Meets joinEnd z) (q : Text) :
    (Source.ofText (q ++ (y ++ z))).body (between (mask .nested q) (mask .nested (y ++ z))) joinEnd =
      .ok (readCondition on) := by
  obtain ⟨a, b, rfl, closed, unjoined, ends, read⟩ := exists_condition written.closed
  have apart : Apart a b := by
    rcases ends with rfl | ⟨more, rfl⟩
    · exact apart_nil a
    · exact apart_of_head (by decide)
  have edge : (mask .nested b).head?.any isWord = false := by
    rw [head_mask]
    rcases ends with rfl | ⟨more, rfl⟩
    · rfl
    · exact (by decide : isWord ';' = false)
  have silent (k : Key) (mem : k ∈ joinEndKeys) : ¬ k.Occurs (mask .nested a) := by
    intro has
    by_cases last : k = .semicolon
    · subst last
      exact unjoined has
    · refine written.silent k mem last ?_
      rw [mask_append _ closed apart]
      exact has.append edge
  rw [← written.read, read]
  rcases ends with rfl | ⟨more, rfl⟩
  · have follows := led.follows follows_nil
    rw [List.append_nil] at follows
    rw [List.append_nil]
    exact body_between starts_joinEnd isLower_joinEndKeys closed (led.apart a)
      (fun k mem => Key.silent_of_not_occurs (isLower_joinEndKeys k mem) (silent k mem) follows) meets q
  · rw [List.append_assoc, List.cons_append]
    exact body_semicolon closed silent q (more ++ z)

/-! ## The joins that are read back -/

/-- Nothing stands behind the table of the join. -/
def isBare (j : Join) : Bool := j.alias?.isNone && j.on.isEmpty

/-- The join without the word for its side. -/
def sideless (j : Join) : Join := { j with kind := .plain, outer := false, keyword := "JOIN" }

/-- The joins that are read from a list of joins, whose first word has already been taken or not. The match of a join
with nothing behind its table takes the first word of the next one: of a plain join that leaves nothing to be found,
and of another one a plain join. -/
def readBack : Bool → List Join → List Join
  | _, [] => []
  | false, j :: js => { j with on := readCondition j.on } :: readBack (isBare j) js
  | true, j :: js =>
    if j.kind = .plain then readBack false js
    else { sideless j with on := readCondition j.on } :: readBack (isBare j) js

theorem readBack_plain {j : Join} (plain : j.kind = .plain) (js : List Join) :
    readBack true (j :: js) = readBack false js := if_pos plain

theorem readBack_sided {j : Join} (sided : j.kind ≠ .plain) (js : List Join) :
    readBack true (j :: js) = readBack false (sideless j :: js) := if_neg sided

theorem length_readBack (taken : Bool) (js : List Join) : (readBack taken js).length ≤ js.length := by
  induction js generalizing taken with
  | nil => rw [readBack]
  | cons j js ih =>
    cases taken with
    | false => exact Nat.succ_le_succ (ih _)
    | true =>
      by_cases plain : j.kind = .plain
      · rw [readBack_plain plain]
        exact Nat.le_succ_of_le (ih false)
      · rw [readBack_sided plain]
        exact Nat.succ_le_succ (ih _)

/-- Joins whose first word is gone are not read back. -/
theorem readBack_taken_ne (j : Join) (js : List Join) : readBack true (j :: js) ≠ j :: js := by
  by_cases plain : j.kind = .plain
  · intro same
    have shorter := length_readBack false js
    rw [← readBack_plain plain, same, List.length_cons] at shorter
    omega
  · rw [readBack_sided plain]
    intro same
    exact plain (congrArg Join.kind (List.cons.inj same).1).symm

/-- **The joins are read back as they are exactly if every condition is, and every join but the last has something behind
its table.** -/
theorem readBack_eq_self_iff (js : List Join) :
    readBack false js = js ↔ (∀ j ∈ js, readCondition j.on = j.on) ∧ ∀ j ∈ js.dropLast, isBare j = false := by
  induction js with
  | nil => simp [readBack]
  | cons j js ih =>
    have first : ({ j with on := readCondition j.on } : Join) = j ↔ readCondition j.on = j.on :=
      ⟨congrArg Join.on, fun same => by rw [same]⟩
    rw [readBack, List.cons.injEq, first]
    cases js with
    | nil => simp [readBack]
    | cons k js =>
      rw [List.dropLast_cons_cons, List.forall_mem_cons (l := k :: js), List.forall_mem_cons (l := (k :: js).dropLast)]
      cases bare : isBare j with
      | false =>
        rw [ih]
        tauto
      | true =>
        have lost := readBack_taken_ne k js
        tauto

/-! ## Joins one after the other -/

/-- A join in a statement: how its table is spelled, and what stands behind it up to the next join. -/
structure Piece where
  join : Join
  ticked : Bool
  tail : Text

/-- The text of a piece up to what stands behind its table. -/
def Piece.head (p : Piece) : Text := joinHead (spelledJoin p.ticked p.join)

theorem Piece.head_eq (p : Piece) : p.head = joinText p.join.kind p.join.outer ++
    ' ' :: tableText (spelledTable p.ticked ⟨p.join.table, p.join.alias?⟩) := rfl

/-- The pieces, each with a space in front. -/
def piecesText (ps : List Piece) : Text := ps.flatMap fun p => ' ' :: (p.head ++ p.tail)

/-- The piece can be written: behind its table stands nothing, or `ON` and a text that reads as its condition. -/
structure Piece.IsWritten (p : Piece) : Prop where
  named : IsJoinHead p.join
  tail : (p.join.on = [] ∧ p.tail = []) ∨ (p.join.on ≠ [] ∧ ∃ y, p.tail = " ON".toList ++ y ∧ IsCondition p.join.on y)

/-- The join that is read from a piece. No condition is found where the match of the table ends at a backtick. -/
def Piece.read (p : Piece) : Join :=
  { p.join with on := if p.ticked && p.join.alias?.isNone then [] else readCondition p.join.on }

/-- The piece without the word for the side of its join. -/
def Piece.sideless (p : Piece) : Piece := { p with join := Statement.sideless p.join }

/-- The joins that are read from pieces, as `readBack` tells it for tables without backticks. -/
def readPieces : Bool → List Piece → List Join
  | _, [] => []
  | false, p :: ps => p.read :: readPieces (isBare p.join) ps
  | true, p :: ps =>
    if p.join.kind = .plain then readPieces false ps else p.sideless.read :: readPieces (isBare p.join) ps

theorem readPieces_plain {p : Piece} (plain : p.join.kind = .plain) (ps : List Piece) :
    readPieces true (p :: ps) = readPieces false ps := if_pos plain

theorem readPieces_sided {p : Piece} (sided : p.join.kind ≠ .plain) (ps : List Piece) :
    readPieces true (p :: ps) = readPieces false (p.sideless :: ps) := if_neg sided

theorem Piece.read_bare {p : Piece} (bare : p.ticked = false) : p.read = { p.join with on := readCondition p.join.on } := by
  rw [Piece.read, bare]
  rfl

theorem readPieces_eq_readBack {ps : List Piece} (bare : ∀ p ∈ ps, p.ticked = false) (taken : Bool) :
    readPieces taken ps = readBack taken (ps.map Piece.join) := by
  induction ps generalizing taken with
  | nil => cases taken <;> rfl
  | cons p ps ih =>
    rw [List.forall_mem_cons] at bare
    have later := ih bare.2
    cases taken with
    | false => rw [readPieces, List.map_cons, readBack, p.read_bare bare.1, later]
    | true =>
      rw [readPieces, List.map_cons, readBack, p.sideless.read_bare bare.1, later, later]
      rfl

/-- Joins with conditions are all read. -/
theorem readPieces_of_conditions {ps : List Piece} (conditions : ∀ p ∈ ps, p.join.on ≠ []) :
    readPieces false ps = ps.map Piece.read := by
  induction ps with
  | nil => rfl
  | cons p ps ih =>
    rw [List.forall_mem_cons] at conditions
    have followed : isBare p.join = false := by simp [isBare, conditions.1]
    rw [readPieces, followed, ih conditions.2, List.map_cons]

/-- What starts a clause other than a join. -/
def otherKeys : List Key := clauseKeys.filter fun k => !(joinOpeners.map Key.word).contains k

theorem starts_join : Starts Pattern.join (joinOpeners.map .word) := starts_of_opens opens_join

theorem not_mem_otherKeys : ∀ k ∈ joinOpeners.map Key.word, k ∈ clauseKeys ∧ k ∉ otherKeys := by decide

theorem mem_of_not_mem_otherKeys : ∀ k ∈ clauseKeys, k ∉ otherKeys → k ∈ joinOpeners.map Key.word := by decide

section Quiet

variable {x y : Text} {own : List Key}

/-- Plain words in front of a quiet text. -/
theorem isQuiet_plain_append (plain : Plain x) (silent : ∀ k ∈ clauseKeys, k ∉ own → ¬ k.Begins x) (spaced : Spaced y)
    (quiet : IsQuiet own y) : IsQuiet own (x ++ y) := by
  refine ⟨isClosed_append plain.isClosed quiet.closed plain.apart_left, ?_⟩
  intro k mem other rest follows
  have edge : (mask .nested y ++ rest).head?.any isWord = false := by
    rcases spaced_mask spaced with unjoined | ⟨more, given⟩
    · rw [unjoined]
      exact follows.edge
    · rw [given]
      exact not_isWord_of_isBlank (by decide)
  rw [mask_plain_append _ plain]
  refine Key.Silent.append ?_ (quiet.silent k mem other rest follows)
  exact Key.silent_of_not_begins (isLower_clauseKeys k mem) (silent k mem other) (.inr edge)

theorem isQuiet_condition {on : Text} (written : IsCondition on y) : IsQuiet otherKeys y := by
  have listed : ∀ k ∈ clauseKeys, k ∉ otherKeys → k ∈ joinEndKeys ∧ k ≠ .semicolon := by decide
  refine ⟨written.closed, ?_⟩
  intro k mem other rest follows
  obtain ⟨ends, last⟩ := listed k mem other
  exact Key.silent_of_not_occurs (isLower_clauseKeys k mem) (written.silent k ends last) follows

end Quiet

section Piece

variable {p : Piece} (written : p.IsWritten)
include written

theorem spaced_tail : Spaced p.tail := by
  rcases written.tail with ⟨_, unjoined⟩ | ⟨_, y, text, _⟩
  · exact .inl unjoined
  · exact .inr ⟨"ON".toList ++ y, text⟩

theorem isQuiet_tail : IsQuiet otherKeys p.tail := by
  rcases written.tail with ⟨_, unjoined⟩ | ⟨_, y, text, condition⟩
  · rw [unjoined]
    exact isQuiet_nil
  · have silent : ∀ k ∈ clauseKeys, k.begins " ON".toList = false := by decide
    rw [text]
    refine isQuiet_plain_append (by decide) ?_ condition.spaced (isQuiet_condition condition)
    intro k mem _
    rw [← Key.begins_iff (isLower_clauseKeys k mem), silent k mem]
    exact Bool.false_ne_true

end Piece

section Pieces

variable {t : Text}

theorem piecesText_cons (p : Piece) (ps : List Piece) (t : Text) :
    piecesText (p :: ps) ++ t = ' ' :: (p.head ++ (p.tail ++ (piecesText ps ++ t))) := by
  rw [piecesText, List.flatMap_cons]
  simp [piecesText]

theorem piecesText_words (p : Piece) (ps : List Piece) (t : Text) :
    piecesText (p :: ps) ++ t = ' ' :: (joinText p.join.kind p.join.outer ++
      ' ' :: (tableText (spelledTable p.ticked ⟨p.join.table, p.join.alias?⟩) ++ (p.tail ++ (piecesText ps ++ t)))) := by
  rw [piecesText_cons, Piece.head_eq]
  simp

theorem piecesText_concat (ps : List Piece) (p : Piece) :
    piecesText (ps ++ [p]) = piecesText ps ++ ' ' :: (p.head ++ p.tail) := by
  rw [piecesText, List.flatMap_append, List.flatMap_singleton]
  rfl

theorem isLed_piecesText (ps : List Piece) (led : IsLed t) : IsLed (piecesText ps ++ t) := by
  cases ps with
  | nil => exact led
  | cons p ps =>
    rw [piecesText_words]
    exact isLed_of_isLeading (isLeading_joinText _ _) _

/-- A join condition ends where the next join starts. -/
theorem meets_piecesText (ps : List Piece) (meets : Meets joinEnd t) : Meets joinEnd (piecesText ps ++ t) := by
  cases ps with
  | nil => exact meets
  | cons p ps =>
    rw [piecesText_words]
    apply meets_keyword (isLeading_joinText _ _)
    intro before rest left
    exact first_isSome (.head _) ((reads_nextJoin p.join.kind p.join.outer).isSome left rest)

theorem startsReserved_joinText (kind : JoinKind) (outer : Bool) : startsReserved (joinText kind outer) = true := by
  cases kind <;> cases outer <;> decide

theorem endsTable_piecesText (ps : List Piece) (ends : EndsTable (mask .nested t)) :
    EndsTable (mask .nested (piecesText ps ++ t)) := by
  cases ps with
  | nil => exact ends
  | cons p ps =>
    rw [piecesText_words]
    exact endsTable_keyword (isLeading_joinText _ _) (startsReserved_joinText _ _) _

/-- No condition follows where the next join starts. -/
theorem on_piecesText (ps : List Piece) (before : Text) : Pattern.on (between before (mask .nested (piecesText ps))) = none := by
  cases ps with
  | nil => exact bind_of_none rfl
  | cons p ps =>
    have text := piecesText_words p ps []
    have plain : Plain (' ' :: joinText p.join.kind p.join.outer) :=
      plain_cons.2 ⟨by decide, plain_of_isLeading (isLeading_joinText _ _)⟩
    rw [List.append_nil] at text
    rw [text, ← List.cons_append, mask_plain_append _ plain]
    refine (bind_of_some (blanks1_space ?_)).trans (bind_of_none (discard_none ?_))
    · cases p.join.kind <;> rfl
    · cases p.join.kind <;> exact letters_of_head (by decide)

end Pieces

/-! ## One join -/

theorem words_joinText (kind : JoinKind) (outer : Bool) :
    Text.join " " (Text.words (joinText kind outer)) = joinText kind outer := by
  cases kind <;> cases outer <;> decide

/-- A match of the join of a piece, behind one text and a space and in front of another one. -/
structure Piece.IsMatch (c : Piece) (q r : Text) (hit : Hit JoinMatch) : Prop where
  start : hit.start.offset = size (mask .nested q ++ [' '])
  kind : hit.value.kind = c.join.kind
  outer : hit.value.outer = c.join.outer
  words : hit.value.wordsEnd.offset = size (mask .nested q ++ [' '] ++ joinText c.join.kind c.join.outer)
  table : hit.value.table.table = ⟨c.join.table, c.join.alias?⟩
  finish : Finishes c.ticked c.join.alias? (mask .nested q ++ [' '] ++ c.head) (mask .nested r) hit.value.table.finish

/-- The next join is found behind a text that shows none. -/
theorem find_piece {c : Piece} (named : IsJoinHead c.join) {p x r : Text} (closed : isClosed p = true)
    (apart : ∀ v, Apart p v) (quiet : IsQuiet otherKeys x) (ends : EndsTable (mask .nested r)) :
    ∃ hit spill after,
      Scan.find Pattern.join (between (mask .nested p) (mask .nested (x ++ ' ' :: (c.head ++ r)))) = some hit ∧
      c.IsMatch (p ++ x) r hit ∧ hit.stop = between (mask .nested (p ++ x) ++ [' '] ++ c.head ++ spill) after ∧
      mask .nested r = spill ++ after ∧ Spill c.join.alias? spill after := by
  have left : (mask .nested (p ++ x) ++ [' ']).getLast?.any isWord = false := by
    rw [List.getLast?_concat]
    exact not_isWord_of_isBlank (by decide)
  obtain ⟨m, spill, after, fits, kind, outer, words, table, finish, split, kept⟩ :=
    join_between c.ticked named.sides (isTableWord_of_isJoinable named.table) (fun given mem => (named.given given mem).1)
      ends left
  refine ⟨⟨between (mask .nested (p ++ x) ++ [' ']) (c.head ++ mask .nested r), m,
    between (mask .nested (p ++ x) ++ [' '] ++ c.head ++ spill) after⟩, spill, after, ?_,
    ⟨rfl, kind, outer, words, table, finish⟩, rfl, split, kept⟩
  have text (rest : Text) : joinText c.join.kind c.join.outer ++
      ' ' :: (tickText c.ticked c.join.table ++ (aliasText c.join.alias? ++ rest)) = c.head ++ rest := by
    simp [Piece.head, joinHead, spelledJoin]
  rw [text] at fits
  have led : IsLed (' ' :: (c.head ++ r)) := by
    rw [← text]
    exact isLed_of_isLeading (isLeading_joinText _ _) _
  have plain : Plain (' ' :: c.head) := plain_cons.2 ⟨by decide, plain_joinHead named c.ticked⟩
  have shown : mask .nested (' ' :: (c.head ++ r)) = ' ' :: (c.head ++ mask .nested r) := mask_plain_append _ plain
  have misses := misses_of_isQuiet starts_join not_mem_otherKeys quiet (mask .nested p) (led.follows follows_nil)
  rw [List.append_nil, shown] at misses
  have missed := starts_join.none_space (fun k mem => isLower_clauseKeys k (not_mem_otherKeys k mem).1)
    (mask .nested (p ++ x)) (c.head ++ mask .nested r)
  have front : mask .nested (p ++ x) = mask .nested p ++ mask .nested x := mask_append _ closed (apart x)
  rw [mask_append _ quiet.closed (led.apart x), shown, find_of_misses misses, ← front, find_cons_of_none missed]
  exact find_of_some fits

/-- No condition is found at a backtick. -/
theorem on_tick (before rest : Text) : Pattern.on (between before ('\x60' :: rest)) = none := bind_of_none rfl

/-- A join is read from its match, with the condition that is found behind its table. -/
theorem read_match {p : Piece} (named : IsJoinHead p.join) {q r : Text} {hit : Hit JoinMatch} (found : p.IsMatch q r hit)
    {on : Text}
    (condition : (Pattern.on hit.value.table.finish = none ∧ on = []) ∨
      ∃ start, Pattern.on hit.value.table.finish = some ((), start) ∧
        (Source.ofText (q ++ ' ' :: (p.head ++ r))).body start joinEnd = .ok on) :
    (Source.ofText (q ++ ' ' :: (p.head ++ r))).join hit = .ok { p.join with on := on } := by
  have sliced : slice hit.start.offset hit.value.wordsEnd.offset (Source.ofText (q ++ ' ' :: (p.head ++ r))).text =
      .ok (joinText p.join.kind p.join.outer) := by
    have cut := slice_append (q ++ [' ']) (joinText p.join.kind p.join.outer)
      (' ' :: (tableText (spelledTable p.ticked ⟨p.join.table, p.join.alias?⟩) ++ r))
    have text : q ++ [' '] ++ joinText p.join.kind p.join.outer ++
        ' ' :: (tableText (spelledTable p.ticked ⟨p.join.table, p.join.alias?⟩) ++ r) = q ++ ' ' :: (p.head ++ r) := by
      rw [Piece.head_eq]
      simp
    have from' : size (mask .nested q ++ [' ']) = size (q ++ [' ']) := by simp [size_append, size_mask]
    have to' : size (mask .nested q ++ [' '] ++ joinText p.join.kind p.join.outer) =
        size (q ++ [' '] ++ joinText p.join.kind p.join.outer) := by
      simp [size_append, size_mask]
    rw [found.start, found.words, from', to', Source.ofText, ← text]
    exact cut
  have name : hit.value.table.name = p.join.table := congrArg Table.name found.table
  have value : (⟨hit.value.kind, hit.value.outer, Text.join " " (Text.words (joinText p.join.kind p.join.outer)),
      hit.value.table.name, hit.value.table.table.alias?, on⟩ : Join) = { p.join with on := on } := by
    rw [found.kind, found.outer, words_joinText, name, found.table, ← named.keyword]
  unfold Source.join
  dsimp only
  rw [sliced]
  dsimp only [bind, Except.bind]
  rcases condition with ⟨missed, rfl⟩ | ⟨start, read, body⟩
  · rw [missed]
    exact congrArg Except.ok value
  · rw [read]
    dsimp only
    rw [body]
    exact congrArg Except.ok value

section Read

variable {p : Piece} (written : p.IsWritten) {q z : Text} (closed : isClosed q = true) (led : IsLed z)
  (meets : Meets joinEnd z) (alone : p.tail = [] → ∃ ps, z = piecesText ps)
include written closed led meets alone

omit meets closed in
theorem endsTable_tail : EndsTable (mask .nested (p.tail ++ z)) := by
  rcases written.tail with ⟨_, unjoined⟩ | ⟨_, y, text, condition⟩
  · obtain ⟨ps, rfl⟩ := alone unjoined
    have ends := endsTable_piecesText (t := []) ps (.inl rfl)
    rwa [unjoined, List.nil_append, ← List.append_nil (piecesText ps)]
  · have spaced : Spaced (mask .nested (y ++ z)) := spaced_mask (condition.spaced.append led.spaced)
    rw [text, List.append_assoc, mask_plain_append _ (by decide)]
    exact .inr ⟨"ON".toList, mask .nested (y ++ z), rfl, by decide, by decide, by decide, spaced⟩

/-- The condition of a join is read from what stands behind its table. -/
theorem read_tail :
    (Pattern.on (between (mask .nested q) (mask .nested (p.tail ++ z))) = none ∧ readCondition p.join.on = []) ∨
      ∃ start, Pattern.on (between (mask .nested q) (mask .nested (p.tail ++ z))) = some ((), start) ∧
        (Source.ofText (q ++ (p.tail ++ z))).body start joinEnd = .ok (readCondition p.join.on) := by
  rcases written.tail with ⟨bare, unjoined⟩ | ⟨_, y, text, condition⟩
  · left
    obtain ⟨ps, rfl⟩ := alone unjoined
    rw [unjoined, List.nil_append, on_piecesText, bare]
    exact ⟨rfl, rfl⟩
  · right
    have plain : Plain " ON".toList := by decide
    have ends : (mask .nested (y ++ z)).head?.any isWord = false :=
      (spaced_mask (condition.spaced.append led.spaced)).edge
    have read := body_condition condition led meets (q ++ " ON".toList)
    rw [mask_append_plain _ closed plain, List.append_assoc] at read
    rw [text, List.append_assoc, mask_plain_append _ plain]
    exact ⟨_, on_between ends, read⟩

/-- A join is read back from its match. -/
theorem read_piece {hit : Hit JoinMatch} (found : p.IsMatch q (p.tail ++ z) hit) :
    (Source.ofText (q ++ ' ' :: (p.head ++ (p.tail ++ z)))).join hit = .ok p.read := by
  refine read_match written.named found ?_
  have finish := found.finish
  unfold Finishes at finish
  cases cut : p.ticked && p.join.alias?.isNone with
  | true =>
    rw [cut, if_pos rfl] at finish
    obtain ⟨lead, more, place⟩ := finish
    rw [place, if_pos rfl]
    exact .inl ⟨on_tick lead more, rfl⟩
  | false =>
    have plain : Plain (' ' :: p.head) := plain_cons.2 ⟨by decide, plain_joinHead written.named p.ticked⟩
    have on := read_tail (q := q ++ ' ' :: p.head) written
      (isClosed_append closed plain.isClosed plain.apart_right) led meets alone
    have place : mask .nested q ++ [' '] ++ p.head = mask .nested (q ++ ' ' :: p.head) := by
      rw [mask_append_plain _ closed plain]
      simp
    have text : q ++ ' ' :: p.head ++ (p.tail ++ z) = q ++ ' ' :: (p.head ++ (p.tail ++ z)) := by simp
    rw [cut, if_neg Bool.false_ne_true, place] at finish
    rw [← finish, text] at on
    rw [if_neg Bool.false_ne_true]
    exact on

end Read

/-! ## All joins -/

/-- No word that can start a join is among these keys. -/
def noJoin (own : List Key) : Bool := (joinOpeners.map Key.word).all (!own.contains ·)

theorem isQuiet_of_noJoin {own : List Key} {x : Text} (quiet : IsQuiet own x) (unjoined : noJoin own = true) :
    IsQuiet otherKeys x := by
  refine ⟨quiet.closed, ?_⟩
  intro k mem other
  have absent := List.all_eq_true.1 unjoined k (mem_of_not_mem_otherKeys k mem other)
  exact quiet.silent k mem (by simpa using absent)

section Loop

variable {t : Text}

theorem isTableWord_sideText {kind : JoinKind} (sided : kind ≠ .plain) : isTableWord (sideText kind) = true := by
  cases kind with
  | plain => exact absurd rfl sided
  | _ => decide

theorem isWritten_sideless {p : Piece} (written : p.IsWritten) : p.sideless.IsWritten :=
  ⟨⟨rfl, rfl, written.named.table, written.named.given⟩, written.tail⟩

/-- Joins whose first word has been taken: what is left in front of the next join, and the joins that are left. -/
theorem exists_taken {p : Piece} {ps : List Piece} (written : ∀ c ∈ p :: ps, c.IsWritten) :
    ∃ word x rest, piecesText (p :: ps) = ' ' :: (word ++ (x ++ piecesText rest)) ∧ isTableWord word = true ∧
      Spaced x ∧ IsQuiet otherKeys x ∧ (∀ c ∈ rest, c.IsWritten) ∧ rest.length ≤ (p :: ps).length ∧
      readPieces false rest = readPieces true (p :: ps) := by
  rw [List.forall_mem_cons] at written
  have text := piecesText_words p ps []
  rw [List.append_nil, List.append_nil] at text
  rw [text]
  by_cases plain : p.join.kind = .plain
  · have named := written.1.named
    have table : Plain (' ' :: tableText (spelledTable p.ticked ⟨p.join.table, p.join.alias?⟩)) :=
      plain_cons.2 ⟨by decide, plain_joinTable named p.ticked⟩
    refine ⟨"JOIN".toList, ' ' :: (tableText (spelledTable p.ticked ⟨p.join.table, p.join.alias?⟩) ++ p.tail), ps, ?_, by decide,
      .inr ⟨_, rfl⟩, ?_, written.2, Nat.le_succ _, (readPieces_plain plain _).symm⟩
    · rw [joinText, if_pos plain]
      simp
    · refine isQuiet_plain_append table ?_ (spaced_tail written.1) (isQuiet_tail written.1)
      intro k mem other has
      rcases Key.begins_append (u := [' ']) (isLower_clauseKeys k mem) (.inl (by decide)) has with space | name
      · exact Key.not_begins_space (isLower_clauseKeys k mem) space
      · exact not_begins_joinTable named p.ticked (mem_of_not_mem_otherKeys k mem other) name
  · refine ⟨sideText p.join.kind, outerText p.join.outer, p.sideless :: ps, ?_, isTableWord_sideText plain, ?_, ?_,
      List.forall_mem_cons.2 ⟨isWritten_sideless written.1, written.2⟩, le_refl _, (readPieces_sided plain _).symm⟩
    · have next := piecesText_words p.sideless ps []
      rw [List.append_nil, List.append_nil] at next
      rw [next, joinText, if_neg plain]
      simp [Piece.sideless, sideless, joinText]
    · cases p.join.outer with
      | true => exact .inr ⟨_, rfl⟩
      | false => exact .inl rfl
    · cases p.join.outer with
      | true =>
        have silent : ∀ k ∈ clauseKeys, k.begins (outerText true) = false := by decide
        refine isQuiet_of_plain (by decide) ?_
        intro k mem _
        rw [← Key.begins_iff (isLower_clauseKeys k mem), silent k mem]
        exact Bool.false_ne_true
      | false => exact isQuiet_nil

/-- **Where the search goes on after a join.** Behind what the match has taken stands a text without a join, and then the
joins that are left. -/
theorem exists_resume {p : Piece} {ps : List Piece} (written : ∀ c ∈ p :: ps, c.IsWritten)
    (alone : t = [] ∨ ∀ c ∈ p :: ps, c.join.on ≠ []) (led : IsLed t) {spill after : Text}
    (split : mask .nested (p.tail ++ (piecesText ps ++ t)) = spill ++ after) (kept : Spill p.join.alias? spill after) :
    ∃ x rest, p.tail ++ (piecesText ps ++ t) = spill ++ (x ++ (piecesText rest ++ t)) ∧ Plain spill ∧
      after = mask .nested (x ++ (piecesText rest ++ t)) ∧ IsQuiet otherKeys x ∧ (∀ c ∈ rest, c.IsWritten) ∧
      (t = [] ∨ ∀ c ∈ rest, c.join.on ≠ []) ∧ rest.length ≤ ps.length ∧
      readPieces false rest = readPieces (isBare p.join) ps := by
  rw [List.forall_mem_cons] at written alone
  obtain ⟨here, later⟩ := written
  -- the match has taken nothing, and the joins that follow are left as they are
  have untouched (unjoined : spill = []) (same : readPieces false ps = readPieces (isBare p.join) ps) :
      ∃ x rest, p.tail ++ (piecesText ps ++ t) = spill ++ (x ++ (piecesText rest ++ t)) ∧ Plain spill ∧
        after = mask .nested (x ++ (piecesText rest ++ t)) ∧ IsQuiet otherKeys x ∧ (∀ c ∈ rest, c.IsWritten) ∧
        (t = [] ∨ ∀ c ∈ rest, c.join.on ≠ []) ∧ rest.length ≤ ps.length ∧
        readPieces false rest = readPieces (isBare p.join) ps := by
    subst unjoined
    exact ⟨p.tail, ps, rfl, plain_nil, split.symm, isQuiet_tail here, later, alone.imp_right And.right, le_refl _, same⟩
  generalize given : p.join.alias? = alias? at kept
  cases aliased : alias? with
  | some name =>
    rw [aliased] at kept given
    cases kept
    apply untouched rfl
    rw [isBare, given]
    rfl
  | none =>
    rw [aliased] at kept given
    rcases here.tail with ⟨bare, unjoined⟩ | ⟨filled, y, text, condition⟩
    · -- a bare join: its match takes the first word of the next join
      obtain rfl : t = [] := alone.resolve_right fun all => all.1 bare
      have isBare' : isBare p.join = true := by rw [isBare, given, bare]; rfl
      cases ps with
      | nil =>
        rw [unjoined] at split
        have empty := List.append_eq_nil_iff.1 split.symm
        apply untouched empty.1
        rw [isBare']
        rfl
      | cons c ps =>
        obtain ⟨word, x, rest, words, named, spaced, quiet, written, fewer, same⟩ := exists_taken later
        have plain : Plain (' ' :: word) := plain_cons.2 ⟨by decide, plain_of_class (by decide) (chars_of_isTableWord named)⟩
        have text : p.tail ++ (piecesText (c :: ps) ++ []) = ' ' :: word ++ (x ++ (piecesText rest ++ [])) := by
          rw [unjoined, words]
          simp
        have follows : Spaced (mask .nested (x ++ (piecesText rest ++ []))) :=
          spaced_mask (spaced.append (isLed_piecesText rest isLed_nil).spaced)
        rw [text, mask_plain_append _ plain] at split
        obtain ⟨rfl, rfl⟩ := kept.eq_word named follows split
        refine ⟨x, rest, text, plain, rfl, quiet, written, .inl rfl, fewer, ?_⟩
        rw [same, isBare']
    · -- the match takes the word `ON`, and the search goes on in the condition
      have whole : p.tail ++ (piecesText ps ++ t) = " ON".toList ++ (y ++ (piecesText ps ++ t)) := by
        rw [text, List.append_assoc]
      have follows : Spaced (mask .nested (y ++ (piecesText ps ++ t))) :=
        spaced_mask (condition.spaced.append (isLed_piecesText ps led).spaced)
      rw [whole, mask_plain_append _ (by decide)] at split
      have named : isTableWord "ON".toList = true := by decide
      obtain ⟨rfl, rfl⟩ := kept.eq_word named follows split
      refine ⟨y, ps, whole, by decide, rfl, isQuiet_condition condition, later, alone.imp_right And.right, le_refl _, ?_⟩
      have isBare' : isBare p.join = false := by simp [isBare, filled]
      rw [isBare']

theorem mapM_cons_of_ok {α β : Type} {f : α → Except Fault β} {a : α} {b : β} {as : List α} {bs : List β}
    (first : f a = .ok b) (rest : as.mapM f = .ok bs) : (a :: as).mapM f = .ok (b :: bs) := by
  rw [List.mapM_cons, first]
  change (as.mapM f >>= fun bs => pure (b :: bs)) = _
  rw [rest]
  rfl

/-- **One search.** A join is found and read, and the search goes on behind what its match has taken. -/
theorem mapM_piece {c : Piece} (named : IsJoinHead c.join) {p x z : Text} (closed : isClosed p = true)
    (apart : ∀ v, Apart p v) (quiet : IsQuiet otherKeys x) (ends : EndsTable (mask .nested (c.tail ++ z))) {n : Nat} {j : Join}
    {js : List Join}
    (read : ∀ hit, c.IsMatch (p ++ x) (c.tail ++ z) hit →
      (Source.ofText (p ++ x ++ ' ' :: (c.head ++ (c.tail ++ z)))).join hit = .ok j)
    (later : ∀ spill after, mask .nested (c.tail ++ z) = spill ++ after → Spill c.join.alias? spill after →
      ∃ rest, c.tail ++ z = spill ++ rest ∧ Plain spill ∧ after = mask .nested rest ∧
        ∀ q, isClosed q = true → (∀ v, Apart q v) →
          (findAll.go Pattern.join n (between (mask .nested q) (mask .nested rest))).mapM (Source.ofText (q ++ rest)).join =
            .ok js) :
    (findAll.go Pattern.join (n + 1) (between (mask .nested p) (mask .nested (x ++ ' ' :: (c.head ++ (c.tail ++ z)))))).mapM
      (Source.ofText (p ++ (x ++ ' ' :: (c.head ++ (c.tail ++ z))))).join = .ok (j :: js) := by
  have closedFront : isClosed (p ++ x) = true := isClosed_append closed quiet.closed (apart x)
  obtain ⟨hit, spill, after, found, fits, stop, split, kept⟩ := find_piece named closed apart quiet ends
  obtain ⟨rest, text, plain, rfl, go⟩ := later spill after split kept
  have front : Plain (' ' :: (c.head ++ spill)) :=
    plain_cons.2 ⟨by decide, plain_append.2 ⟨plain_joinHead named c.ticked, plain⟩⟩
  have next := go (p ++ x ++ ' ' :: (c.head ++ spill)) (isClosed_append closedFront front.isClosed front.apart_right)
    (front.apart_append (by simp))
  have whole : p ++ x ++ ' ' :: (c.head ++ spill) ++ rest = p ++ x ++ ' ' :: (c.head ++ (c.tail ++ z)) := by
    rw [text]
    simp
  have place : mask .nested (p ++ x ++ ' ' :: (c.head ++ spill)) = mask .nested (p ++ x) ++ [' '] ++ c.head ++ spill := by
    rw [mask_append_plain _ closedFront front]
    simp
  rw [whole, place, ← stop] at next
  rw [← List.append_assoc p, findAll.go, found]
  exact mapM_cons_of_ok (read hit fits) next

variable {own : List Key} (after : IsPart own t) (unjoined : noJoin own = true)
include after unjoined

/-- No join is found behind the last one. -/
theorem find_last {x : Text} (quiet : IsQuiet otherKeys x) (before : Text) :
    Scan.find Pattern.join (between before (mask .nested (x ++ t))) = none := by
  have both : IsQuiet (otherKeys ++ otherKeys) (x ++ t) := quiet.append (isQuiet_of_noJoin after.toIsQuiet unjoined) after.led
  have others : ∀ k ∈ joinOpeners.map Key.word, k ∈ clauseKeys ∧ k ∉ otherKeys ++ otherKeys := by decide
  refine find_none_of_misses (misses_of_isQuiet starts_join others both _ follows_nil) ?_
  exact starts_join.none_nil (fun k mem => isLower_clauseKeys k (others k mem).1) _

/-- **The joins are found one after the other.** The induction is on the number of searches. -/
theorem mapM_pieces {ps : List Piece} (meets : ps ≠ [] → Meets joinEnd t) (written : ∀ c ∈ ps, c.IsWritten)
    (alone : t = [] ∨ ∀ c ∈ ps, c.join.on ≠ []) {p x : Text} (closed : isClosed p = true) (apart : ∀ v, Apart p v) (quiet : IsQuiet otherKeys x) {n : Nat}
    (enough : ps.length ≤ n) :
    (findAll.go Pattern.join n (between (mask .nested p) (mask .nested (x ++ (piecesText ps ++ t))))).mapM
      (Source.ofText (p ++ (x ++ (piecesText ps ++ t)))).join = .ok (readPieces false ps) := by
  induction n generalizing ps p x with
  | zero =>
    obtain rfl := List.eq_nil_of_length_eq_zero (Nat.le_zero.1 enough)
    rfl
  | succ n ih =>
    cases ps with
    | nil =>
      have text : piecesText [] ++ t = t := rfl
      rw [text, findAll.go, find_last after unjoined quiet]
      rfl
    | cons c ps =>
      have here := written c List.mem_cons_self
      have led : IsLed (piecesText ps ++ t) := isLed_piecesText ps after.led
      have bare : c.tail = [] → ∃ rest, piecesText ps ++ t = piecesText rest := by
        intro empty
        rcases here.tail with ⟨blank, _⟩ | ⟨_, y, text, _⟩
        · obtain rfl : t = [] := alone.resolve_right fun all => all c List.mem_cons_self blank
          exact ⟨ps, List.append_nil _⟩
        · rw [text] at empty
          cases empty
      have closedFront : isClosed (p ++ x) = true := isClosed_append closed quiet.closed (apart x)
      rw [piecesText_cons]
      refine mapM_piece here.named closed apart quiet (endsTable_tail here led bare) ?_ ?_
      · intro hit found
        exact read_piece here closedFront led (meets_piecesText ps (meets (by simp))) bare found
      · intro spill after' split kept
        obtain ⟨x', left, text, plain, rfl, quiet', written', alone', fewer, same⟩ :=
          exists_resume written alone after.led split kept
        refine ⟨_, text, plain, rfl, ?_⟩
        intro q closed' apart'
        have few : left.length ≤ n := by
          rw [List.length_cons] at enough
          omega
        rw [← same]
        exact ih (fun _ => meets (by simp)) written' alone' closed' apart' quiet' few

end Loop

theorem length_piecesText (ps : List Piece) : ps.length ≤ (piecesText ps).length := by
  induction ps with
  | nil => exact Nat.zero_le _
  | cons p ps ih =>
    unfold piecesText at ih ⊢
    rw [List.flatMap_cons, List.length_append, List.length_cons, List.length_cons]
    omega

/-- **The joins of a statement are read.** -/
theorem joins_piecesText {ps : List Piece} {u t : Text} {own own' : List Key} (written : ∀ c ∈ ps, c.IsWritten)
    (alone : t = [] ∨ ∀ c ∈ ps, c.join.on ≠ []) (before : IsQuiet own u) (unjoined : noJoin own = true)
    (after : IsPart own' t) (unjoined' : noJoin own' = true) (meets : ps ≠ [] → Meets joinEnd t) :
    (Source.ofText (u ++ (piecesText ps ++ t))).joins = .ok (readPieces false ps) := by
  have enough : ps.length ≤ (mask .nested (u ++ (piecesText ps ++ t))).length := by
    have shown := length_le_mask .nested (u ++ (piecesText ps ++ t))
    have each := length_piecesText ps
    rw [List.length_append, List.length_append] at shown
    omega
  exact mapM_pieces after unjoined' meets written alone (p := []) rfl (fun v => plain_nil.apart_left)
    (isQuiet_of_noJoin before unjoined) enough

/-! ## Joins with their conditions -/

/-- A join with the text that it is written with behind its table. -/
def Piece.ofJoin (ticked : Bool) (j : Join) : Piece := ⟨j, ticked, clauseText "ON" j.on⟩

theorem map_join_ofJoin (js : List Join) : (js.map (Piece.ofJoin false)).map Piece.join = js := by
  rw [List.map_map]
  exact List.map_id js

/-- The pieces are the joins as they are spelled. -/
theorem joinsText_spelled {ps : List Piece} (words : ∀ p ∈ ps, p.join.keyword = joinText p.join.kind p.join.outer)
    (tails : ∀ p ∈ ps, p.tail = clauseText "ON" p.join.on) :
    joinsText (ps.map fun p => spelledJoin p.ticked p.join) = piecesText ps := by
  rw [piecesText, joinsText, List.flatMap_map]
  apply List.flatMap_congr
  intro p mem
  have words : (spelledJoin p.ticked p.join).keyword = joinText p.join.kind p.join.outer := words p mem
  rw [text_of_keyword words, tails p mem]
  rfl

theorem piecesText_ofJoin {js : List Join} (words : ∀ j ∈ js, j.keyword = joinText j.kind j.outer) :
    piecesText (js.map (Piece.ofJoin false)) = joinsText js := by
  rw [← joinsText_spelled (List.forall_mem_map.2 words) (List.forall_mem_map.2 fun j _ => rfl), List.map_map]
  exact congrArg joinsText (List.map_id js)

/-- A condition with a space in front. -/
theorem isCondition_space {on : Text} (closed : isClosed on = true)
    (silent : ∀ k ∈ joinEndKeys, k ≠ .semicolon → ¬ k.Occurs (mask .nested on)) : IsCondition on (' ' :: on) := by
  have space : Plain [' '] := by decide
  refine ⟨.inr ⟨on, rfl⟩, isClosed_append space.isClosed closed space.apart_left, ?_, readCondition_space on⟩
  intro k mem other
  exact not_occurs_space (isLower_joinEndKeys k mem) (silent k mem other)

theorem isWritten_ofJoin {j : Join} (ticked : Bool) (named : IsJoinHead j)
    (condition : j.on ≠ [] → IsCondition j.on (' ' :: j.on)) : (Piece.ofJoin ticked j).IsWritten := by
  refine ⟨named, ?_⟩
  by_cases unjoined : j.on = []
  · exact .inl ⟨unjoined, by rw [Piece.ofJoin, unjoined, clauseText_nil]⟩
  · exact .inr ⟨unjoined, ' ' :: j.on, clauseText_of_ne_nil unjoined, condition unjoined⟩

/-- The piece is a join with a condition that does not show the keys. -/
structure Piece.IsJoin (keys : List Key) (p : Piece) : Prop where
  sides : canBe p.join.kind p.join.outer = true
  keyword : p.join.keyword = joinText p.join.kind p.join.outer
  table : IsTable ⟨p.join.table, p.join.alias?⟩
  on : IsClauseText keys p.join.on
  tail : p.tail = clauseText "ON" p.join.on

theorem isJoin_ofJoin {j : Join} (ticked : Bool) (join : IsJoin j) : (Piece.ofJoin ticked j).IsJoin textKeys :=
  ⟨join.sides, join.keyword, join.table, join.on, rfl⟩

/-- The piece is spelled with free names and a condition that does not show the keys. -/
structure Piece.IsSpelled (keys : List Key) (p : Piece) : Prop where
  table : IsFreeTable ⟨p.join.table, p.join.alias?⟩
  on : IsClauseText keys p.join.on
  tail : p.tail = clauseText "ON" p.join.on

section Joins

variable {keys : List Key} {ps : List Piece} (joins : ∀ p ∈ ps, p.IsJoin keys)

theorem Piece.IsJoin.mono {keys' : List Key} {p : Piece} (join : p.IsJoin keys) (subset : keys' ⊆ keys) : p.IsJoin keys' :=
  ⟨join.sides, join.keyword, join.table, join.on.mono subset, join.tail⟩

theorem Piece.IsJoin.named {p : Piece} (join : p.IsJoin keys) : IsJoinHead p.join where
  sides := join.sides
  keyword := join.keyword
  table := isJoinable_of_isFreeName join.table.name
  given := by
    intro given mem
    have free := join.table.given given mem
    exact ⟨isAlias_of_isFreeAlias free, isJoinable_of_isFreeName (isFreeName_of_isFreeAlias free)⟩

theorem Piece.IsJoin.isWritten {p : Piece} (join : p.IsJoin keys) (known : ∀ k ∈ joinEndKeys, k ∈ keys) : p.IsWritten := by
  refine ⟨join.named, .inr ⟨join.on.solid.filled, ' ' :: p.join.on, ?_, ?_⟩⟩
  · rw [join.tail, clauseText_of_ne_nil join.on.solid.filled]
    rfl
  · exact isCondition_space join.on.closed fun k mem _ => join.on.silent k (known k mem)

theorem Piece.IsJoin.isSpelled {p : Piece} (join : p.IsJoin keys) : p.IsSpelled keys := ⟨join.table.isFree, join.on, join.tail⟩

section Spelled

variable (spelled : ∀ p ∈ ps, p.IsSpelled keys)
include spelled

/-- What spelled show: their own words, and what their conditions show. -/
theorem isPart_piecesText {own : List Key} (known : ∀ k ∈ clauseKeys, k ∉ own → k ∈ keys) (subset : joinKeys ⊆ own) :
    IsPart own (piecesText ps) := by
  induction ps with
  | nil => exact isPart_nil
  | cons p ps ih =>
    rw [List.forall_mem_cons] at spelled
    have label := isLabel_free p.ticked spelled.1.table
    have text : piecesText (p :: ps) = clauseText (joinText p.join.kind p.join.outer)
        (tableText (spelledTable p.ticked ⟨p.join.table, p.join.alias?⟩)) ++ (clauseText "ON" p.join.on ++ piecesText ps) := by
      have words := piecesText_words p ps []
      rw [List.append_nil, List.append_nil] at words
      rw [words, clauseText_of_ne_nil label.solid.filled, spelled.1.tail]
      simp
    have front : IsPart joinKeys (clauseText (joinText p.join.kind p.join.outer)
        (tableText (spelledTable p.ticked ⟨p.join.table, p.join.alias?⟩))) := by
      have silent : ∀ kind outer, ∀ k ∈ clauseKeys, k ∉ joinKeys → k.begins (' ' :: (joinText kind outer ++ [' '])) = false := by
        intro kind outer
        cases kind <;> cases outer <;> decide
      refine isPart_clauseText (isLeading_joinText _ _) (silent _ _) label.plain.isClosed ?_
      intro k mem _ has
      rw [label.plain.mask] at has
      exact label.silent k mem has.begins
    have on : IsPart own (clauseText "ON" p.join.on) := by
      have silent : ∀ k ∈ clauseKeys, k.begins (' ' :: ("ON".toList ++ [' '])) = false := by decide
      exact isPart_text (fun _ => spelled.1.on) (by decide) (fun k mem _ => silent k mem) known
    rw [text]
    exact ((front.mono subset).append (on.append (ih spelled.2))).mono (by simp)

theorem last_piecesText : (piecesText ps).getLast?.any isBlank = false := by
  induction ps with
  | nil => rfl
  | cons p ps ih =>
    rw [List.forall_mem_cons] at spelled
    have text : piecesText (p :: ps) = ' ' :: p.head ++ (" ON ".toList ++ p.join.on) ++ piecesText ps := by
      have words := piecesText_cons p ps []
      rw [List.append_nil, List.append_nil] at words
      rw [words, spelled.1.tail, clauseText_of_ne_nil spelled.1.on.solid.filled]
      simp
    rw [text]
    refine last_append ?_ (ih spelled.2)
    rw [← List.append_assoc, List.getLast?_append_of_ne_nil _ spelled.1.on.solid.filled]
    exact spelled.1.on.solid.last

end Spelled

include joins

/-- **Joins with conditions are all read.** -/
theorem read_joins {u t : Text} {own own' : List Key} (known : ∀ k ∈ joinEndKeys, k ∈ keys) (before : IsQuiet own u)
    (unjoined : noJoin own = true) (after : IsPart own' t) (unjoined' : noJoin own' = true) (meets : ps ≠ [] → Meets joinEnd t) :
    (Source.ofText (u ++ (piecesText ps ++ t))).joins = .ok (ps.map Piece.read) := by
  have conditions : ∀ p ∈ ps, p.join.on ≠ [] := fun p mem => (joins p mem).on.solid.filled
  have written : ∀ p ∈ ps, p.IsWritten := fun p mem => (joins p mem).isWritten known
  rw [← readPieces_of_conditions conditions]
  exact joins_piecesText written (.inr conditions) before unjoined after unjoined' meets

end Joins

/-- A join whose table has no backticks is read back. -/
theorem read_ofJoin {keys : List Key} {j : Join} (on : IsClauseText keys j.on) (ends : .semicolon ∈ keys) :
    (Piece.ofJoin false j).read = j := by
  have condition : readCondition j.on = j.on := by
    rw [readCondition_of_not_mem on.closed (on.silent .semicolon ends), on.solid.trim]
  rw [Piece.read_bare rfl]
  exact congrArg (fun on => { j with on }) condition

end Statement
end QueryCode
