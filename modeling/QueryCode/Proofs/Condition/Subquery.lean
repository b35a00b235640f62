import QueryCode.Condition.Plan
import QueryCode.Proofs.Text.Scan
import QueryCode.Proofs.Text.Top

/-!
# Queries in parentheses

A condition is kept as text if the word `SELECT` stands in parentheses somewhere outside its literals. The search reads
the mask and asks only for the nearest parenthesis before the word: if that one opens, the word is inside. The walk of
the mask counts parentheses instead. Whatever the search finds is enclosed, but an enclosed word after a group that was
closed inside the same parentheses is missed: `hasSubquery_eq_encloses_iff`.
-/

namespace QueryCode
set_option autoImplicit false

namespace Text

/-! ## The nearest parenthesis -/

/-- A round parenthesis. -/
def isParen (c : Char) : Bool := c == '(' || c == ')'

theorem isParen_of_isQuote {c : Char} (quote : isQuote c = true) : isParen c = false := by
  simp only [isQuote, Bool.or_eq_true, beq_iff_eq] at quote
  rcases quote with rfl | rfl <;> rfl

theorem isParen_of_isMark {c : Char} (clean : isMark c = false) : isParen c = false := by
  simp only [isMark, Bool.or_eq_false_iff] at clean
  rw [isParen, clean.1.2, clean.2]
  rfl

/-- The last parenthesis of a text. -/
def lastParen? (t : Text) : Option Char := t.reverse.find? isParen

theorem lastParen_append (u v : Text) : lastParen? (u ++ v) = (lastParen? v).or (lastParen? u) := by
  rw [lastParen?, List.reverse_append, List.find?_append]
  rfl

theorem lastParen_eq_none {t : Text} : lastParen? t = none ↔ ∀ c ∈ t, isParen c = false := by
  simp [lastParen?]

theorem lastParen_cases (t : Text) : lastParen? t = none ∨ lastParen? t = some '(' ∨ lastParen? t = some ')' := by
  cases last : lastParen? t with
  | none => exact .inl rfl
  | some c =>
    have paren : isParen c = true := List.find?_some last
    rw [isParen, Bool.or_eq_true, beq_iff_eq, beq_iff_eq] at paren
    rcases paren with rfl | rfl
    · exact .inr (.inl rfl)
    · exact .inr (.inr rfl)

/-- A cell outside literals shows its character. -/
theorem Cell.shown_unquoted {cell : Cell} (unquoted : cell.quoted = false) : cell.shown .quotes = [cell.char] :=
  if_neg (Bool.eq_false_iff.1 unquoted)

namespace Walk

/-- A parenthesis that shows changes the depth, and nothing else does. -/
theorem step_depth {w : Walk} (sound : w.Sound) (c : Char) (next : Option Char) :
    (lastParen? ((w.step c next).1.shown .quotes) = some '(' ∧ (w.step c next).2.depth = w.depth + 1) ∨
      lastParen? ((w.step c next).1.shown .quotes) = some ')' ∨
      (lastParen? ((w.step c next).1.shown .quotes) = none ∧ (w.step c next).2.depth = w.depth) := by
  have spaces (cell : Cell) (hidden : cell.quoted = true) : lastParen? (cell.shown .quotes) = none := by
    have shown : cell.shown .quotes = List.replicate cell.char.utf8Size ' ' := if_pos hidden
    rw [shown, lastParen_eq_none]
    intro d mem
    rw [List.eq_of_mem_replicate mem]
    rfl
  have lone {cell : Cell} (seen : cell.quoted = false) (clean : isParen cell.char = false) :
      lastParen? (cell.shown .quotes) = none := by
    rw [Cell.shown_unquoted seen, lastParen_eq_none]
    exact List.forall_mem_singleton.2 clean
  have steps := w.steps c next
  generalize w.step c next = found at steps ⊢
  cases steps with
  | escaped | doubled | backslash | doubling | held => exact .inr (.inr ⟨spaces _ rfl, rfl⟩)
  | closing => exact .inr (.inr ⟨lone rfl (isParen_of_isQuote (sound c rfl)), rfl⟩)
  | opening quote => exact .inr (.inr ⟨lone rfl (isParen_of_isQuote quote), rfl⟩)
  | deeper => exact .inl ⟨rfl, rfl⟩
  | shallower => exact .inr (.inl rfl)
  | plain clean => exact .inr (.inr ⟨lone rfl (isParen_of_isMark clean), rfl⟩)

/-- After an opening parenthesis the depth is positive, and without a parenthesis it stays as it is. -/
theorem depth_run {w : Walk} (sound : w.Sound) (t : Text) :
    (lastParen? ((w.cells t).flatMap (Cell.shown .quotes)) = some '(' → 0 < (w.run t).depth) ∧
      (lastParen? ((w.cells t).flatMap (Cell.shown .quotes)) = none → (w.run t).depth = w.depth) := by
  induction t generalizing w with
  | nil => exact ⟨fun opening => (by cases opening), fun _ => rfl⟩
  | cons c t ih =>
    obtain ⟨opens, stays⟩ := ih (sound.step c t.head?)
    rw [cells, List.flatMap_cons, lastParen_append, run]
    rcases lastParen_cases (((w.step c t.head?).2.cells t).flatMap (Cell.shown .quotes)) with missing | later | later
    · rw [missing, Option.none_or, stays missing]
      rcases step_depth sound c t.head? with ⟨shown, depth⟩ | shown | ⟨shown, depth⟩
      · rw [shown, depth]
        exact ⟨fun _ => Nat.succ_pos _, fun missing => by cases missing⟩
      · rw [shown]
        exact ⟨fun opening => absurd opening (by decide), fun missing => by cases missing⟩
      · rw [shown, depth]
        exact ⟨fun opening => (by cases opening), fun _ => rfl⟩
    · rw [later]
      exact ⟨fun _ => opens later, fun missing => by cases missing⟩
    · rw [later, Option.some_or]
      exact ⟨fun opening => absurd opening (by decide), fun missing => by cases missing⟩

end Walk

/-- The place after a text lies outside literals and inside parentheses only if a parenthesis shows before it. -/
theorem lastParen_of_depth {t : Text} (enclosed : 0 < (Walk.run {} t).depth) :
    lastParen? (mask .quotes t) = some '(' ∨ lastParen? (mask .quotes t) = some ')' := by
  rcases lastParen_cases (mask .quotes t) with missing | found
  · have flat : (Walk.run {} t).depth = 0 := (Walk.depth_run (Walk.sound_start 0) t).2 missing
    omega
  · exact found

/-! ## Words outside literals -/

namespace Walk

theorem exists_depth {w : Walk} (outside : w.mode = .plain) : ∃ depth, w = ⟨.plain, depth⟩ := by
  obtain ⟨mode, depth⟩ := w
  cases outside
  exact ⟨depth, rfl⟩

/-- Outside literals every character shows. -/
theorem step_outside (depth : Nat) (c : Char) (next : Option Char) : (step ⟨.plain, depth⟩ c next).1.quoted = false := by
  have steps := steps ⟨.plain, depth⟩ c next
  generalize step ⟨.plain, depth⟩ c next = found at steps ⊢
  cases steps <;> rfl

/-- A character that leads outside literals shows. -/
theorem step_unquoted {w : Walk} {c : Char} {next : Option Char} (leaves : (w.step c next).2.mode = .plain) :
    (w.step c next).1.quoted = false := by
  have steps := w.steps c next
  generalize w.step c next = found at steps leaves ⊢
  cases steps with
  | escaped | doubled | backslash | doubling | held | opening => cases leaves
  | closing | deeper | shallower | plain => rfl

/-- Where the walk leaves a text outside literals, the last character shows. -/
theorem last_shown {w : Walk} {t : Text} (leaves : (w.run t).mode = .plain) :
    ((w.cells t).flatMap (Cell.shown .quotes)).getLast? = t.getLast? := by
  induction t generalizing w with
  | nil => rfl
  | cons c t ih =>
    have rest := ih leaves
    rw [cells, List.flatMap_cons]
    cases t with
    | nil =>
      have unquoted : (w.step c none).1.quoted = false := step_unquoted leaves
      rw [List.head?_nil, Cell.shown_unquoted unquoted, step_char]
      rfl
    | cons d t =>
      rw [List.getLast?_append, rest, List.getLast?_cons_cons, List.getLast?_eq_some_getLast (List.cons_ne_nil d t)]
      rfl

/-- Outside literals the first character shows. -/
theorem head_shown (depth : Nat) (t : Text) :
    ((cells ⟨.plain, depth⟩ t).flatMap (Cell.shown .quotes)).head? = t.head? := by
  cases t with
  | nil => rfl
  | cons c t =>
    rw [cells, List.flatMap_cons, Cell.shown_unquoted (step_outside depth c _), step_char]
    rfl

/-- Outside literals a text without quotes and parentheses shows, and the walk goes on behind it. -/
theorem shown_plain_append {u : Text} (plain : Plain u) (depth : Nat) (v : Text) :
    (cells ⟨.plain, depth⟩ (u ++ v)).flatMap (Cell.shown .quotes) =
      u ++ (cells ⟨.plain, depth⟩ v).flatMap (Cell.shown .quotes) := by
  induction u with
  | nil => rfl
  | cons c u ih =>
    rw [plain_cons] at plain
    rw [List.cons_append, cells, step_plain plain.1, List.flatMap_cons, ih plain.2]
    rfl

/-- What shows without quotes and parentheses outside literals is the text itself. -/
theorem exists_of_shown_plain {u v r : Text} (plain : Plain u) {depth : Nat}
    (split : (cells ⟨.plain, depth⟩ v).flatMap (Cell.shown .quotes) = u ++ r) :
    ∃ rest, v = u ++ rest ∧ (cells ⟨.plain, depth⟩ rest).flatMap (Cell.shown .quotes) = r := by
  induction u generalizing v with
  | nil => exact ⟨v, rfl, split⟩
  | cons c u ih =>
    rw [plain_cons] at plain
    have head := head_shown depth v
    rw [split] at head
    obtain ⟨v, rfl⟩ := List.head?_eq_some_iff.1 head.symm
    have single : Plain [c] := List.forall_mem_singleton.2 plain.1
    have shown := shown_plain_append single depth v
    rw [List.singleton_append, split] at shown
    obtain ⟨rest, rfl, last⟩ := ih plain.2 (List.cons.inj shown).2.symm
    exact ⟨rest, rfl, last⟩

end Walk

section Words

variable {w : Text} (lower : isLowerWord w = true)
include lower

/-- A word that stands outside literals shows in the mask. -/
theorem wordAt_mask {before after : Text} (outside : (Walk.run {} before).mode = .plain) (word : WordAt w before after) :
    ∃ shown, mask .quotes (before ++ after) = mask .quotes before ++ shown ∧ WordAt w (mask .quotes before) shown := by
  obtain ⟨found, rest, rfl, same, left, right⟩ := word
  have plain : Plain found := plain_of_class (by decide) (isWord_of_sameFold lower same)
  have apart : Apart before (found ++ rest) := by
    obtain ⟨c, tail, rfl⟩ := List.exists_cons_of_ne_nil (ne_nil_of_sameFold lower same)
    exact apart_of_head (isQuote_of_isMark (plain c List.mem_cons_self))
  obtain ⟨depth, state⟩ := Walk.exists_depth outside
  refine ⟨found ++ (Walk.cells ⟨.plain, depth⟩ rest).flatMap (Cell.shown .quotes), ?_, found, _, rfl, same, ?_, ?_⟩
  · rw [mask, cells, Walk.cells_append (Walk.sound_start 0) apart, List.flatMap_append, state,
      Walk.shown_plain_append plain]
    rfl
  · rw [mask, cells, Walk.last_shown outside]
    exact left
  · rw [Walk.head_shown]
    exact right

/-- A word that shows in the mask stands outside literals in the text. -/
theorem exists_wordAt_of_mask {t b r : Text} (split : mask .quotes t = b ++ r) (word : WordAt w b r) :
    ∃ before after, t = before ++ after ∧ mask .quotes before = b ∧ (Walk.run {} before).mode = .plain ∧
      WordAt w before after := by
  obtain ⟨found, rest, rfl, same, left, right⟩ := word
  have plain : Plain found := plain_of_class (by decide) (isWord_of_sameFold lower same)
  obtain ⟨c, tail, rfl⟩ := List.exists_cons_of_ne_nil (ne_nil_of_sameFold lower same)
  have ink : isInk c = true := Scan.isInk_of_isWord (isWord_of_sameFold lower same c List.mem_cons_self)
  have solid : (c :: tail ++ rest).head? ≠ some ' ' := by simpa using ne_space_of_isInk ink
  obtain ⟨cs, ds, parts, front, back⟩ := flatMap_shown_split split (.inr solid)
  obtain ⟨cell, more, rfl, seen, rfl⟩ := exists_cell_of_head back ink
  have quote : isQuote cell.char = false := isQuote_of_isMark (isMark_of_isInk ink)
  have apart : Apart (cs.map Cell.char) ((cell :: more).map Cell.char) := apart_of_head quote
  have whole : t = cs.map Cell.char ++ (cell :: more).map Cell.char := by
    rw [← List.map_append, ← parts, cells, Walk.map_char_cells]
  obtain ⟨head, row⟩ := Walk.cells_split (Walk.sound_start 0) parts apart
  have stepped := (List.cons.inj row).1
  have outside : (Walk.run {} (cs.map Cell.char)).mode = .plain :=
    Walk.mode_of_step (Walk.Sound.run (Walk.sound_start 0) _) quote (stepped ▸ seen)
  have shown : mask .quotes (cs.map Cell.char) = b := by rw [mask, cells, head, front]
  obtain ⟨depth, state⟩ := Walk.exists_depth outside
  rw [← row, state] at back
  obtain ⟨tail', letters, last⟩ := Walk.exists_of_shown_plain plain back
  refine ⟨_, _, whole, shown, outside, cell.char :: tail, tail', letters, same, ?_, ?_⟩
  · rw [← Walk.last_shown outside]
    subst shown
    exact left
  · rw [← Walk.head_shown depth, last]
    exact right

end Words
end Text

/-! ## The search -/

namespace Condition

open Text (Blank Cursor Scan WordAt isWord lastParen? mask)

theorem word_isSome {w : Text} {cur : Cursor} : (Scan.word w cur).isSome = true ↔
    cur.atEdge = true ∧ Text.sameFold w (cur.rest.take w.length) = true ∧ (cur.skip w.length).atEdge = true := by
  have letters (cur stop : Cursor) (found : Text) : Scan.letters w cur = some (found, stop) ↔
      Text.sameFold w (cur.rest.take w.length) = true ∧ cur.rest.take w.length = found ∧ cur.skip w.length = stop := by
    simp [Scan.letters]
  simp only [Option.isSome_iff_exists, Prod.exists, Scan.word, Scan.bind_some, Scan.discard_some, Scan.edge_some,
    letters]
  constructor
  · rintro ⟨_, _, _, _, ⟨edge, rfl⟩, _, _, ⟨_, same, rfl, rfl⟩, after, rfl⟩
    exact ⟨edge, same, after⟩
  · rintro ⟨edge, same, after⟩
    exact ⟨(), _, (), cur, ⟨edge, rfl⟩, (), _, ⟨_, same, rfl, rfl⟩, after, rfl⟩

/-- Whether a word stands at a place does not depend on the offset. -/
theorem word_isSome_iff {w : Text} (lower : Text.isLowerWord w = true) {n : Nat} {last : Option Char} {rest : Text} :
    (Scan.word w ⟨n, last, rest⟩).isSome = true ↔ Text.WordAt w last.toList rest := by
  have place : (⟨Text.size last.toList, last, rest⟩ : Cursor) = Cursor.between last.toList rest := by
    cases last <;> rfl
  have offset : (Scan.word w ⟨n, last, rest⟩).isSome = true ↔
      (Scan.word w ⟨Text.size last.toList, last, rest⟩).isSome = true := by
    rw [word_isSome, word_isSome]
    rfl
  rw [offset, place, Option.isSome_iff_exists]
  constructor
  · rintro ⟨⟨_, stop⟩, found⟩
    obtain ⟨found, after, split, same, left, right, -⟩ := (Scan.word_some lower).1 found
    exact ⟨found, after, split, same, left, right⟩
  · rintro ⟨found, after, split, same, left, right⟩
    exact ⟨((), _), (Scan.word_some lower).2 ⟨found, after, split, same, left, right, rfl⟩⟩

/-- A parenthesis is open after the text, if only the nearest one counts. -/
def openedAfter (opened : Bool) (t : Text) : Bool := (lastParen? t).elim opened (· == '(')

theorem openedAfter_cons (opened : Bool) (c : Char) (t : Text) :
    openedAfter opened (c :: t) = openedAfter (c == '(' || (opened && c != ')')) t := by
  have split : lastParen? (c :: t) = (lastParen? t).or (lastParen? [c]) := Text.lastParen_append [c] t
  rw [openedAfter, openedAfter, split]
  cases lastParen? t with
  | some d => rfl
  | none =>
    by_cases opening : c = '('
    · subst opening
      rfl
    by_cases closing : c = ')'
    · subst closing
      cases opened <;> rfl
    · have other : Text.isParen c = false := by simp [Text.isParen, opening, closing]
      have missing : lastParen? [c] = none := Text.lastParen_eq_none.2 (List.forall_mem_singleton.2 other)
      have same : (c == '(' || (opened && c != ')')) = opened := by
        rw [beq_false_of_ne opening, bne_iff_ne.2 closing, Bool.and_true, Bool.false_or]
      rw [missing, same]
      rfl

theorem not_wordAt_nil {w before : Text} (lower : Text.isLowerWord w = true) : ¬ WordAt w before [] := by
  rintro ⟨found, after, split, same, -⟩
  exact Text.ne_nil_of_sameFold lower same (List.append_eq_nil_iff.1 split.symm).1

/-- Only the last character before a word counts. -/
theorem wordAt_append_iff {w before lead rest : Text} (filled : lead ≠ []) :
    WordAt w (before ++ lead) rest ↔ WordAt w lead rest := by
  unfold WordAt
  rw [List.getLast?_append_of_ne_nil _ filled]

/-- **The search finds the places where the word stands after an opening parenthesis.** -/
theorem selectFrom_iff {opened : Bool} {last : Option Char} {t : Text} :
    selectFrom opened last t = true ↔ ∃ before after, t = before ++ after ∧
      WordAt "select" (last.toList ++ before) after ∧ openedAfter opened before = true := by
  have lower : Text.isLowerWord "select".toList = true := by decide
  induction t generalizing opened last with
  | nil =>
    refine iff_of_false (by rw [selectFrom]; exact Bool.false_ne_true) ?_
    rintro ⟨before, after, split, word, -⟩
    obtain ⟨-, rfl⟩ := List.append_eq_nil_iff.1 split.symm
    exact not_wordAt_nil lower word
  | cons c t ih =>
    rw [selectFrom, Bool.or_eq_true, Bool.and_eq_true, word_isSome_iff lower]
    refine (or_congr_right ih).trans ?_
    constructor
    · rintro (⟨opened, word⟩ | ⟨before, after, rfl, word, opened⟩)
      · exact ⟨[], c :: t, rfl, by rwa [List.append_nil], opened⟩
      · refine ⟨c :: before, after, rfl, (wordAt_append_iff (List.cons_ne_nil c before)).2 word, ?_⟩
        rwa [openedAfter_cons]
    · rintro ⟨before, after, split, word, opened⟩
      cases before with
      | nil =>
        obtain rfl : c :: t = after := split
        exact .inl ⟨opened, by rwa [List.append_nil] at word⟩
      | cons d before =>
        obtain ⟨rfl, rfl⟩ := List.cons.inj split
        rw [openedAfter_cons] at opened
        exact .inr ⟨before, after, rfl, (wordAt_append_iff (List.cons_ne_nil c before)).1 word, opened⟩

/-- The word `SELECT` stands between the two parts of a text, outside literals. -/
structure SelectAt (t before after : Text) : Prop where
  split : t = before ++ after
  word : WordAt "select" before after
  outside : (Text.Walk.run {} before).mode = .plain

/-- The word `SELECT` stands outside literals where a parenthesis is open. -/
def EnclosesSelect (t : Text) : Prop :=
  ∃ before after, SelectAt t before after ∧ 0 < (Text.Walk.run {} before).depth

/-- The search asks for the nearest parenthesis before the word. -/
theorem hasSubquery_iff_opening {t : Text} :
    hasSubquery t = true ↔
      ∃ before after, SelectAt t before after ∧ lastParen? (mask .quotes before) = some '(' := by
  have lower : Text.isLowerWord "select".toList = true := by decide
  have nearest (m : Text) : openedAfter false m = true ↔ lastParen? m = some '(' := by
    unfold openedAfter
    cases lastParen? m <;> simp
  rw [hasSubquery, selectFrom_iff]
  constructor
  · rintro ⟨b, r, split, word, opened⟩
    obtain ⟨before, after, whole, rfl, outside, word⟩ := Text.exists_wordAt_of_mask lower split word
    exact ⟨before, after, ⟨whole, word, outside⟩, (nearest _).1 opened⟩
  · rintro ⟨before, after, ⟨rfl, word, outside⟩, opening⟩
    obtain ⟨shown, split, word⟩ := Text.wordAt_mask lower outside word
    exact ⟨_, shown, split, word, (nearest _).2 opening⟩

theorem enclosesSelect_of_hasSubquery {t : Text} (found : hasSubquery t = true) : EnclosesSelect t := by
  obtain ⟨before, after, stands, opening⟩ := hasSubquery_iff_opening.1 found
  exact ⟨before, after, stands, (Text.Walk.depth_run (Text.Walk.sound_start 0) before).1 opening⟩

/-- **What the search finds and what it misses.** It finds a word `SELECT` outside literals exactly if the nearest
parenthesis before it opens. Such a word is enclosed. The search differs from the count of open parentheses exactly on
the texts with an enclosed word in which every such word comes after a group that is closed inside the same
parentheses. -/
theorem hasSubquery_eq_encloses_iff (t : Text) :
    (hasSubquery t = true ↔
      ∃ before after, SelectAt t before after ∧ lastParen? (mask .quotes before) = some '(') ∧
    (hasSubquery t = true → EnclosesSelect t) ∧
    (¬ (hasSubquery t = true ↔ EnclosesSelect t) ↔
      EnclosesSelect t ∧ ∀ before after, SelectAt t before after → 0 < (Text.Walk.run {} before).depth →
        lastParen? (mask .quotes before) = some ')') := by
  refine ⟨hasSubquery_iff_opening, enclosesSelect_of_hasSubquery, ?_⟩
  constructor
  · intro differs
    have missed : hasSubquery t ≠ true := fun found => differs (iff_of_true found (enclosesSelect_of_hasSubquery found))
    have enclosed : EnclosesSelect t := by
      by_contra absent
      exact differs (iff_of_false missed absent)
    refine ⟨enclosed, fun before after stands depth => ?_⟩
    refine (Text.lastParen_of_depth depth).resolve_left fun opening => ?_
    exact missed (hasSubquery_iff_opening.2 ⟨before, after, stands, opening⟩)
  · rintro ⟨enclosed, closing⟩ same
    obtain ⟨before, after, stands, opening⟩ := hasSubquery_iff_opening.1 (same.2 enclosed)
    have depth := (Text.Walk.depth_run (Text.Walk.sound_start 0) before).1 opening
    rw [closing before after stands depth] at opening
    exact absurd opening (by decide)

/-- A query after the group of its common table expression is missed. -/
theorem hasSubquery_misses_after_group :
    hasSubquery "id = (WITH t AS (VALUES (1)) SELECT id FROM t)" = false ∧
    EnclosesSelect "id = (WITH t AS (VALUES (1)) SELECT id FROM t)" ∧
    ∀ before after, SelectAt "id = (WITH t AS (VALUES (1)) SELECT id FROM t)" before after →
      0 < (Text.Walk.run {} before).depth → lastParen? (mask .quotes before) = some ')' := by
  have missed : hasSubquery "id = (WITH t AS (VALUES (1)) SELECT id FROM t)" = false := by decide
  have word : WordAt "select" "id = (WITH t AS (VALUES (1)) " "SELECT id FROM t)" :=
    ⟨"SELECT", " id FROM t)", rfl, by decide, by decide, by decide⟩
  have enclosed : EnclosesSelect "id = (WITH t AS (VALUES (1)) SELECT id FROM t)" :=
    ⟨"id = (WITH t AS (VALUES (1)) ", "SELECT id FROM t)", ⟨rfl, word, by decide⟩, by decide⟩
  have differs : ¬ (hasSubquery "id = (WITH t AS (VALUES (1)) SELECT id FROM t)" = true ↔
      EnclosesSelect "id = (WITH t AS (VALUES (1)) SELECT id FROM t)") := by
    intro same
    rw [same.2 enclosed] at missed
    cases missed
  exact ⟨missed, (hasSubquery_eq_encloses_iff _).2.2.1 differs⟩

/-! ## White space around a text -/

/-- Outside parentheses the character before the place does not matter. -/
theorem selectFrom_closed (last last' : Option Char) (t : Text) : selectFrom false last t = selectFrom false last' t := by
  cases t with
  | nil => rfl
  | cons c rest => rfl

theorem selectFrom_blank {lead : Text} (blank : Blank lead) (last : Option Char) (t : Text) :
    selectFrom false last (lead ++ t) = selectFrom false last t := by
  induction lead generalizing last with
  | nil => rfl
  | cons c lead ih =>
    obtain ⟨first, more⟩ := List.forall_mem_cons.1 blank
    have other : (c == '(') = false := by
      refine beq_false_of_ne fun same => ?_
      rw [same] at first
      revert first
      decide
    rw [List.cons_append, selectFrom, Bool.false_and, Bool.false_or, other, Bool.false_and, Bool.or_false, ih more]
    exact selectFrom_closed ..

/-- What stands in parentheses stays there when the text goes on with a character that belongs to no word. -/
theorem selectFrom_append {t rest : Text} (edge : rest.head?.any isWord = false) {opened : Bool} {last : Option Char}
    (found : selectFrom opened last t = true) : selectFrom opened last (t ++ rest) = true := by
  induction t generalizing opened last with
  | nil => cases found
  | cons c t ih =>
    rw [List.cons_append, selectFrom, Bool.or_eq_true, Bool.and_eq_true] at *
    rcases found with ⟨within, word⟩ | later
    · left
      refine ⟨within, (word_isSome_iff (by decide)).2 ?_⟩
      obtain ⟨found, after, split, same, left, right⟩ := (word_isSome_iff (by decide)).1 word
      refine ⟨found, after ++ rest, by rw [← List.append_assoc, ← split, List.cons_append], same, left, ?_⟩
      cases after with
      | nil => exact edge
      | cons d after => exact right
    · exact .inr (ih later)

/-- White space at the end of a text is masked by characters that belong to no word. -/
theorem head_cells_blank {trail : Text} (blank : Blank trail) (w : Text.Walk) (cover : Text.Cover) :
    ((w.cells trail).flatMap (Text.Cell.shown cover)).head?.any isWord = false := by
  cases trail with
  | nil => rfl
  | cons c trail =>
    rw [Text.Walk.cells, List.flatMap_cons, Text.Cell.shown, Text.Walk.step_char]
    split
    · obtain ⟨n, size⟩ := Nat.exists_eq_succ_of_ne_zero c.utf8Size_pos.ne'
      rw [size]
      rfl
    · exact Text.not_isWord_of_isBlank (blank c List.mem_cons_self)

/-- White space around a text shows no query and hides none. -/
theorem hasSubquery_trim {t : Text} (absent : hasSubquery t = false) : hasSubquery (Text.trim t) = false := by
  obtain ⟨lead, trail, before, after, split⟩ := Text.exists_trim t
  have masked : mask .quotes t = lead ++ (mask .quotes (Text.trim t) ++
      ((Text.Walk.run {} (Text.trim t)).cells trail).flatMap (Text.Cell.shown .quotes)) := by
    conv_lhs => rw [split, List.append_assoc, Text.mask_plain_append .quotes before.plain]
    rw [mask, Text.cells, Text.Walk.cells_append (Text.Walk.sound_start 0) after.plain.apart_right, List.flatMap_append]
    rfl
  refine Bool.eq_false_iff.2 fun found => Bool.eq_false_iff.1 absent ?_
  rw [hasSubquery, masked, selectFrom_blank before]
  exact selectFrom_append (head_cells_blank after _ _) found

end Condition
end QueryCode
