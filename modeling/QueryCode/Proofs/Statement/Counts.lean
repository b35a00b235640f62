import QueryCode.Proofs.Statement.Reserved

/-!
# The counts of a limit

The counts of a limit are written in any number of digits. A number of rows stands alone or with an offset behind it; with
a comma between the two the offset stands first. However long they are, the counts are read as the numbers that they
stand for, or as the greatest one, and they change nothing else in what is read: `parse_counts`.
-/

namespace QueryCode
set_option autoImplicit false

open Text Text.Scan Text.Cursor Pattern

namespace Statement

/-- The number that the digits of a count stand for, or the greatest number of 64 bits if that is less. -/
def saturated (digits : Text) : Nat := min (Nat.ofDigitChars 10 digits 0) (Nat.pow 2 64 - 1)

theorem rowCount_of_isCount {t : Text} (count : IsCount t) : rowCount t = saturated t := by
  rw [rowCount, if_pos (List.all_eq_true.2 count.ascii)]
  rfl

/-- The counts of a limit as they are written: the number of rows alone, with its offset behind it, or behind its offset
and a comma. -/
inductive Counts where
  | rows (count : Text)
  | offset (count offset : Text)
  | comma (offset count : Text)

namespace Counts

/-- The counts in their order. -/
def text : Counts → Text
  | rows a => a
  | offset a b => a ++ " OFFSET ".toList ++ b
  | comma a b => a ++ ", ".toList ++ b

/-- The limit that the counts stand for. -/
def limit : Counts → Limit
  | rows a => ⟨saturated a, none⟩
  | offset a b => ⟨saturated a, some (saturated b)⟩
  | comma a b => ⟨saturated b, some (saturated a)⟩

/-- The first count, one behind a comma, and one behind the keyword of an offset. -/
def parts : Counts → Text × Option Text × Option Text
  | rows a => (a, none, none)
  | offset a b => (a, none, some b)
  | comma a b => (a, some b, none)

/-- The counts are digits. -/
def IsWritten : Counts → Prop
  | rows a => IsCount a
  | offset a b | comma a b => IsCount a ∧ IsCount b

variable {w : Counts} (written : w.IsWritten)
include written

theorem plain : Plain w.text := by
  cases w with
  | rows a => exact plain_count written
  | offset a b => exact plain_append.2 ⟨plain_append.2 ⟨plain_count written.1, by decide⟩, plain_count written.2⟩
  | comma a b => exact plain_append.2 ⟨plain_append.2 ⟨plain_count written.1, by decide⟩, plain_count written.2⟩

theorem solid : IsSolid w.text := by
  cases w with
  | rows a => exact isSolid_count written
  | offset a b =>
    rw [text, List.append_assoc]
    exact (isSolid_count written.1).append (isSolid_count written.2) _
  | comma a b =>
    rw [text, List.append_assoc]
    exact (isSolid_count written.1).append (isSolid_count written.2) _

/-- Counts show no keyword but that of an offset. -/
theorem not_begins {k : Key} (mem : k ∈ clauseKeys) (other : k ≠ .word "offset") : ¬ k.Begins w.text := by
  have lower := isLower_clauseKeys k mem
  cases w with
  | rows a => exact not_begins_count mem written
  | offset a b =>
    intro has
    rw [text, List.append_assoc] at has
    rcases Key.begins_append lower (.inr (by rfl)) has with first | second
    · exact not_begins_count mem written.1 first
    · exact not_begins_offset mem other written.2 second
  | comma a b =>
    have silent : ∀ k ∈ clauseKeys, k.begins ", ".toList = false := by decide
    intro has
    rw [text, List.append_assoc] at has
    rcases Key.begins_append lower (.inr (by rfl)) has with first | second
    · exact not_begins_count mem written.1 first
    · rcases Key.begins_append lower (.inl (by decide)) second with mark | second
      · rw [← Key.begins_iff lower, silent k mem] at mark
        cases mark
      · exact not_begins_count mem written.2 second

/-- **The counts are read in their places.** -/
theorem limit_text {before : Text} (left : before.getLast?.any isWord = false) :
    ∃ stop, Pattern.limit (between before ("LIMIT".toList ++ ' ' :: w.text)) = some (w.parts, stop) := by
  cases w with
  | rows a =>
    have whole : text (rows a) = a ++ [] := (List.append_nil a).symm
    rw [whole]
    exact ⟨_, limit_count written rfl left (opt_some.2 (.inl ⟨rfl, rfl, rfl⟩)) (opt_some.2 (.inl ⟨rfl, rfl, rfl⟩))⟩
  | offset a b =>
    rw [text, List.append_assoc]
    exact ⟨_, limit_count written.1 rfl left (opt_some.2 (.inl ⟨rfl, rfl, second_offset b⟩))
      (opt_some.2 (.inr ⟨b, rfl, offset_count written.2⟩))⟩
  | comma a b =>
    rw [text, List.append_assoc]
    exact ⟨_, limit_count written.1 rfl left (opt_some.2 (.inr ⟨b, rfl, second_comma written.2⟩))
      (opt_some.2 (.inl ⟨rfl, rfl, rfl⟩))⟩

omit written in
/-- Behind a number of rows that stands alone no offset is found. -/
theorem find_offset {a u : Text} {own : List Key} (count : IsCount a) (others : .word "offset" ∉ own) (before : IsQuiet own u) :
    (Source.ofText (u ++ clauseText "LIMIT" a)).find Pattern.offset = none := by
  have part : IsPart [.word "limit"] (clauseText "LIMIT" a) :=
    isPart_limit (plain_count count) (by decide) fun k mem _ => not_begins_count mem count
  have starts : Starts Pattern.offset [.word "offset"] := starts_of_opens opens_offset
  exact find_eq_none starts (by simpa [clauseKeys] using others) (before.append part.toIsQuiet part.led)

/-- **The counts are read as the limit that they stand for.** -/
theorem isLimit : IsLimit (clauseText "LIMIT" w.text) (some w.limit) := by
  intro u own others before
  have starts : Starts Pattern.limit [.word "limit"] := starts_of_opens opens_limit
  have known : ∀ k ∈ [Key.word "limit"], k ∈ clauseKeys ∧ k ∉ own := by simpa [clauseKeys] using others.1
  have text : clauseText "LIMIT" w.text = ' ' :: ("LIMIT".toList ++ ' ' :: w.text) := clauseText_of_ne_nil (solid written).filled
  have plain : Plain ("LIMIT".toList ++ ' ' :: w.text) :=
    plain_append.2 ⟨by decide, plain_cons.2 ⟨by decide, plain written⟩⟩
  have led : IsLed (' ' :: ("LIMIT".toList ++ ' ' :: w.text)) :=
    isLed_of_isLeading (by decide : isLeading "LIMIT".toList = true) _
  have left : (mask .nested u ++ [' ']).getLast?.any isWord = false := by
    rw [List.getLast?_concat]
    exact not_isWord_of_isBlank (by decide)
  obtain ⟨stop, fits⟩ := limit_text written left
  have found := find_keyword starts known before led (by rw [plain.mask]; exact fits)
  rw [← text] at found
  rw [Source.limit?, found, Option.map_some]
  cases w with
  | rows a =>
    have elsewhere := find_offset written others.2 before
    dsimp only [parts, Counts.text]
    rw [elsewhere, rowCount_of_isCount written]
    rfl
  | offset a b =>
    dsimp only [parts]
    rw [rowCount_of_isCount written.1, Option.map_some, rowCount_of_isCount written.2]
    rfl
  | comma a b =>
    dsimp only [parts]
    rw [rowCount_of_isCount written.1, rowCount_of_isCount written.2]
    rfl

theorem isTail : IsTail (clauseText "LIMIT" w.text) := by
  refine isTail_limit (solid written).trim (isPart_limit (plain written) (by decide) ?_)
  intro k mem other
  exact not_begins written mem fun same => other (by simp [same])

end Counts

/-- **A limit is read from counts of any length and changes nothing else.** Its counts saturate, and behind a comma stands
the number of rows. -/
theorem parse_counts {s : Statement} (selection : IsSelection s) (unlimited : s.limit = none) {a b : Text} (count : IsCount a)
    (count' : IsCount b) :
    parse (selectText s) = .ok (heard s) ∧
      parse (selectText s ++ (" LIMIT ".toList ++ a)) = .ok { heard s with limit := some ⟨saturated a, none⟩ } ∧
      parse (selectText s ++ (" LIMIT ".toList ++ (a ++ " OFFSET ".toList ++ b))) =
        .ok { heard s with limit := some ⟨saturated a, some (saturated b)⟩ } ∧
      parse (selectText s ++ (" LIMIT ".toList ++ (a ++ ", ".toList ++ b))) =
        .ok { heard s with limit := some ⟨saturated b, some (saturated a)⟩ } := by
  have limited (w : Counts) (written : w.IsWritten) :
      parse (selectText s ++ (" LIMIT ".toList ++ w.text)) = .ok { heard s with limit := some w.limit } := by
    have text : clauseText "LIMIT" w.text = " LIMIT ".toList ++ w.text := by
      rw [clauseText_of_ne_nil (Counts.solid written).filled]
      rfl
    rw [← text]
    exact parse_heard selection unlimited (Counts.isTail written) (Counts.isLimit written)
  have bare : parse (selectText s) = .ok (heard s) := by
    have tail : IsLimit (limitClause none) none := fun u own others before => read_limit (by simp) others before
    have whole := parse_heard selection unlimited (isTail_limitClause none) tail
    have same : ({ heard s with limit := none } : Statement) = heard s := by
      rw [← unlimited]
      rfl
    rw [show limitClause none = [] from rfl, List.append_nil, same] at whole
    exact whole
  exact ⟨bare, limited (.rows a) count, limited (.offset a b) ⟨count, count'⟩, limited (.comma a b) ⟨count, count'⟩⟩

/-- Counts of twenty digits and with zeros in front, behind a selection with a join and a word that is no alias. -/
theorem parse_counts_long :
    let s : Statement :=
      { kind := .select
        main := some ⟨"users".toList, some "natural".toList⟩
        columns := [⟨⟨"*".toList, none⟩, none⟩]
        joins := [⟨.left, false, "LEFT JOIN".toList, "posts".toList, some "p".toList, "p.user_id = users.id".toList⟩]
        condition := "note <> ' limit 1'".toList }
    let p := "SELECT * FROM users natural LEFT JOIN posts p ON p.user_id = users.id WHERE note <> ' limit 1'".toList
    let r : Statement := { s with main := some ⟨"users".toList, none⟩ }
    (IsSelection s ∧ s.limit = none ∧ IsCount "99999999999999999999" ∧ IsCount "0007") ∧ selectText s = p ∧ parse p = .ok r ∧
      parse (p ++ " LIMIT 99999999999999999999".toList) = .ok { r with limit := some ⟨18446744073709551615, none⟩ } ∧
      parse (p ++ " LIMIT 99999999999999999999 OFFSET 0007".toList) =
        .ok { r with limit := some ⟨18446744073709551615, some 7⟩ } ∧
      parse (p ++ " LIMIT 99999999999999999999, 0007".toList) =
        .ok { r with limit := some ⟨7, some 18446744073709551615⟩ } := by
  intro s p r
  have lower : ∀ k ∈ textKeys, k.isLower = true := by decide
  have text {t : Text} := isClauseText_iff lower (t := t)
  have selection : IsSelection s := by
    have posts : IsClauseText textKeys "p.user_id = users.id".toList := text.2 (by decide)
    have condition : IsClauseText textKeys "note <> ' limit 1'".toList := text.2 (by decide)
    constructor
    · exact ⟨_, rfl, by decide, by decide⟩
    · rw [List.forall_mem_singleton]
      exact ⟨by decide, by decide, ⟨by decide, by decide⟩, posts⟩
    · constructor
      · rfl
      · exact ⟨_, rfl, by decide, by decide⟩
      · exact ⟨by decide, by decide⟩
      · exact List.forall_mem_nil _
      · exact fun _ => condition
      · rfl
      · rfl
      · decide
      · rintro _ ⟨⟩
      · decide
      · rintro _ ⟨⟩
  have long : IsCount "99999999999999999999" := ⟨by decide, List.all_eq_true.1 (by decide)⟩
  have padded : IsCount "0007" := ⟨by decide, List.all_eq_true.1 (by decide)⟩
  have written : selectText s = p := by decide +kernel
  have read := parse_counts selection rfl long padded
  have heard : heard s = r := by decide +kernel
  have most : saturated "99999999999999999999" = 18446744073709551615 := by decide +kernel
  have seven : saturated "0007" = 7 := by decide +kernel
  rw [written, heard, most, seven] at read
  exact ⟨⟨selection, rfl, long, padded⟩, written, read⟩

end Statement
end QueryCode
