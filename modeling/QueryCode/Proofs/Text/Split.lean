import QueryCode.Proofs.Text.Hidden

/-!
# Splitting at commas

A text is cut at the commas that show in its mask. Every part but the last ends outside literals and parentheses, so the
parts can be trimmed and written again with other white space between them: nothing but commas and white space is lost,
and what is written again is split into the same pieces. The last part may end inside a literal, since nothing follows it.
-/

namespace QueryCode
set_option autoImplicit false

namespace Text

/-! ## Parts -/

/-- How a text is cut at the commas outside its literals and parentheses. -/
inductive Cuts : Text → List Text → Prop where
  | last {t : Text} (whole : ',' ∉ mask .nested t) : Cuts t [t]
  | more {u t : Text} {parts : List Text} (closed : isClosed u = true) (whole : ',' ∉ mask .nested u)
      (rest : Cuts t parts) : Cuts (u ++ ',' :: t) (u :: parts)

theorem exists_cuts (t : Text) : ∃ parts, Cuts t parts := by
  by_cases shown : ',' ∈ mask .nested t
  · obtain ⟨b, r, split, first⟩ := List.eq_append_cons_of_mem shown
    obtain ⟨u, w, rfl, closed, -, rfl, behind⟩ := exists_closed split (.inr (by decide : isInk ',' = true))
    obtain ⟨v, rfl, -⟩ := exists_of_mask_plain (g := [',']) behind (by decide)
    obtain ⟨parts, rest⟩ := exists_cuts v
    exact ⟨u :: parts, .more closed first rest⟩
  · exact ⟨[t], .last shown⟩
termination_by t.length
decreasing_by
  subst_vars
  rw [List.length_append, List.length_append, List.length_singleton]
  omega

theorem Cuts.splitCells {t : Text} {parts : List Text} (cuts : Cuts t parts) :
    Text.splitCells ',' (cells t) = parts := by
  induction cuts with
  | last whole => exact splitCells_of_not_mem (by decide) whole
  | @more u t parts closed whole rest ih =>
    have hidden : ∀ cell ∈ cells u, shows ',' cell = false := by
      intro cell mem
      by_contra shown
      exact whole ((mem_mask_iff (by decide)).2 ⟨cell, mem, by simpa using shown⟩)
    have row : cells (u ++ ',' :: t) = cells u ++ ⟨',', false, false⟩ :: cells t := by
      rw [cells_append closed (apart_of_head (by decide)), cells_cons_plain (by decide)]
    rw [row, splitCells_append hidden (by decide), ih, cells, Walk.map_char_cells]

/-- The parts that are not blank, without the white space around them. -/
def tidy (parts : List Text) : List Text := (parts.map trim).filter (!·.isEmpty)

theorem tidy_cons_blank {part : Text} (blank : Blank part) (parts : List Text) : tidy (part :: parts) = tidy parts := by
  rw [tidy, List.map_cons, trim_eq_nil.2 blank]
  rfl

theorem tidy_cons_solid {part : Text} (solid : ¬ Blank part) (parts : List Text) :
    tidy (part :: parts) = trim part :: tidy parts := by
  rw [tidy, List.map_cons, List.filter_cons_of_pos]
  · rfl
  · rw [Bool.not_eq_true', List.isEmpty_eq_false_iff]
    exact mt trim_eq_nil.1 solid

theorem Cuts.splitTop {t : Text} {parts : List Text} (cuts : Cuts t parts) : Text.splitTop ',' t = .ok (tidy parts) := by
  rw [splitTop_eq (by decide), cuts.splitCells]
  rfl

/-! ## Pieces in their text -/

/-- Nothing but commas and white space. -/
def Filler (t : Text) : Prop := ∀ c ∈ t, (c == ',' || isBlank c) = true

theorem Blank.filler {t : Text} (blank : Blank t) : Filler t := by
  intro c mem
  rw [blank c mem, Bool.or_true]

theorem filler_append {s t : Text} : Filler (s ++ t) ↔ Filler s ∧ Filler t := List.forall_mem_append

/-- The pieces stand in the text in order, with a comma between any two and filler alone around them. -/
inductive LaidOut : Text → List Text → Prop where
  | none {t : Text} (filler : Filler t) : LaidOut t []
  | last {lead piece trail : Text} (before : Filler lead) (after : Filler trail) : LaidOut (lead ++ piece ++ trail) [piece]
  | more {lead piece trail t : Text} {pieces : List Text} (before : Filler lead) (after : Filler trail)
      (rest : LaidOut t pieces) : LaidOut (lead ++ piece ++ trail ++ ',' :: t) (piece :: pieces)

theorem LaidOut.filler_append {u t : Text} {pieces : List Text} (laid : LaidOut t pieces) (filler : Filler u) :
    LaidOut (u ++ t) pieces := by
  cases laid with
  | none own => exact .none (Text.filler_append.2 ⟨filler, own⟩)
  | @last lead piece trail before after =>
    rw [List.append_assoc lead, ← List.append_assoc u, ← List.append_assoc (u ++ lead)]
    exact .last (Text.filler_append.2 ⟨filler, before⟩) after
  | @more lead piece trail t pieces before after rest =>
    have whole : u ++ (lead ++ piece ++ trail ++ ',' :: t) = u ++ lead ++ piece ++ trail ++ ',' :: t := by simp
    rw [whole]
    exact .more (Text.filler_append.2 ⟨filler, before⟩) after rest

/-- Cutting and trimming lose nothing but commas and white space. -/
theorem Cuts.laid {t : Text} {parts : List Text} (cuts : Cuts t parts) : LaidOut t (tidy parts) := by
  induction cuts with
  | @last t whole =>
    by_cases blank : Blank t
    · rw [tidy_cons_blank blank]
      exact .none blank.filler
    · rw [tidy_cons_solid blank]
      obtain ⟨lead, trail, before, after, split⟩ := exists_trim t
      nth_rewrite 1 [split]
      exact .last before.filler after.filler
  | @more u t parts closed whole rest ih =>
    by_cases blank : Blank u
    · rw [tidy_cons_blank blank, ← List.singleton_append, ← List.append_assoc]
      exact ih.filler_append (filler_append.2 ⟨blank.filler, by simp [Filler]⟩)
    · rw [tidy_cons_solid blank]
      obtain ⟨lead, trail, before, after, split⟩ := exists_trim u
      nth_rewrite 1 [split]
      exact .more before.filler after.filler ih

/-! ## Pieces written again -/

/-- The trimmed part is an item of a list. -/
theorem isItem_trim {u : Text} (closed : isClosed u = true) (whole : ',' ∉ mask .nested u) (filled : trim u ≠ []) :
    IsItem (trim u) where
  filled := filled
  trimmed := trim_trim u
  closed := by
    obtain ⟨lead, trail, before, after, split⟩ := exists_trim u
    have front := isClosed_of_append_plain (split ▸ closed) after.plain
    exact isClosed_of_append before.plain.isClosed before.plain.apart_left front
  whole := fun shown => whole ((mem_mask_trim (by decide) u).1 shown)

/-- A list of items, of which the last may end inside a literal or parentheses. -/
inductive IsRow : List Text → Prop where
  | nil : IsRow []
  | last {v : Text} (filled : v ≠ []) (trimmed : trim v = v) (whole : ',' ∉ mask .nested v) : IsRow [v]
  | more {v : Text} {vs : List Text} (item : IsItem v) (rest : IsRow vs) : IsRow (v :: vs)

theorem isRow_of_items {vs : List Text} (items : ∀ v ∈ vs, IsItem v) : IsRow vs := by
  induction vs with
  | nil => exact .nil
  | cons v vs ih =>
    rw [List.forall_mem_cons] at items
    exact .more items.1 (ih items.2)

theorem IsRow.of_mem {vs : List Text} (row : IsRow vs) :
    ∀ v ∈ vs, v ≠ [] ∧ trim v = v ∧ ',' ∉ mask .nested v := by
  induction row with
  | nil => exact fun v mem => absurd mem List.not_mem_nil
  | last filled trimmed whole => exact List.forall_mem_singleton.2 ⟨filled, trimmed, whole⟩
  | more item _ ih => exact List.forall_mem_cons.2 ⟨⟨item.filled, item.trimmed, item.whole⟩, ih⟩

/-- Every item but the last ends outside literals and parentheses. -/
theorem IsRow.closed_of_mem {vs : List Text} (row : IsRow vs) : ∀ v ∈ vs.dropLast, isClosed v = true := by
  induction row with
  | nil => exact fun v mem => absurd mem List.not_mem_nil
  | last => exact fun v mem => absurd mem List.not_mem_nil
  | @more v vs item _ ih =>
    cases vs with
    | nil => exact fun v mem => absurd mem List.not_mem_nil
    | cons w vs =>
      rw [List.dropLast_cons_cons]
      exact List.forall_mem_cons.2 ⟨item.closed, ih⟩

/-- The pieces of a text are a list of items. -/
theorem Cuts.isRow {t : Text} {parts : List Text} (cuts : Cuts t parts) : IsRow (tidy parts) := by
  induction cuts with
  | @last t whole =>
    by_cases blank : Blank t
    · rw [tidy_cons_blank blank]
      exact .nil
    · rw [tidy_cons_solid blank]
      exact .last (mt trim_eq_nil.1 blank) (trim_trim t) fun shown => whole ((mem_mask_trim (by decide) t).1 shown)
  | @more u t parts closed whole rest ih =>
    by_cases blank : Blank u
    · rw [tidy_cons_blank blank]
      exact ih
    · rw [tidy_cons_solid blank]
      exact .more (isItem_trim closed whole (mt trim_eq_nil.1 blank)) ih

/-- White space around a text shows no comma. -/
theorem comma_not_mem_around {lead v trail : Text} (before : Blank lead) (after : Blank trail)
    (whole : ',' ∉ mask .nested v) : ',' ∉ mask .nested (lead ++ v ++ trail) := by
  rwa [← mem_mask_trim (by decide), trim_append before after, mem_mask_trim (by decide)]

/-- A list written with commas is cut at them, and trimming the parts gives back its items. -/
theorem IsRow.cuts_join {lead trail v : Text} {vs : List Text} (before : Blank lead) (after : Blank trail)
    (row : IsRow (v :: vs)) : ∃ parts, Cuts (lead ++ join ", " (v :: vs) ++ trail) parts ∧ tidy parts = v :: vs := by
  -- the induction is on the further items; the space after each comma leads the next item
  induction vs generalizing lead v with
  | nil =>
    obtain ⟨filled, trimmed, whole⟩ := row.of_mem v List.mem_cons_self
    have text := trim_append (t := v) before after
    rw [trimmed] at text
    have solid : ¬ Blank (lead ++ v ++ trail) := by rwa [← trim_eq_nil, text]
    rw [join_singleton]
    refine ⟨_, .last (comma_not_mem_around before after whole), ?_⟩
    rw [tidy_cons_solid solid, text]
    rfl
  | cons w vs ih =>
    cases row with
    | more item rest =>
      have space : Blank [' '] := by decide
      obtain ⟨parts, cuts, tidied⟩ := ih space rest
      have text := trim_append (t := v) before blank_nil
      rw [List.append_nil, item.trimmed] at text
      have solid : ¬ Blank (lead ++ v) := by
        rw [← trim_eq_nil, text]
        exact item.filled
      have closed : isClosed (lead ++ v) = true :=
        isClosed_append before.plain.isClosed item.closed before.plain.apart_left
      have whole := comma_not_mem_around before blank_nil item.whole
      rw [List.append_nil] at whole
      have split : lead ++ join ", " (v :: w :: vs) ++ trail =
          (lead ++ v) ++ ',' :: ([' '] ++ join ", " (w :: vs) ++ trail) := by
        simp [join_cons_cons]
      refine ⟨(lead ++ v) :: parts, split ▸ .more closed whole cuts, ?_⟩
      rw [tidy_cons_solid solid, text, tidied]

theorem IsRow.split_join {lead trail : Text} {vs : List Text} (before : Blank lead) (after : Blank trail)
    (row : IsRow vs) : splitTop ',' (lead ++ join ", " vs ++ trail) = .ok vs := by
  cases vs with
  | nil =>
    have blank : Blank (lead ++ join ", " [] ++ trail) := by
      rw [show join ", " [] = [] from rfl, List.append_nil]
      exact blank_append.2 ⟨before, after⟩
    have absent : ',' ∉ mask .nested (lead ++ join ", " [] ++ trail) := by
      rw [blank.plain.mask]
      exact blank.not_mem (by decide)
    rw [(Cuts.last absent).splitTop, tidy_cons_blank blank]
    rfl
  | cons v vs =>
    obtain ⟨parts, cuts, tidied⟩ := row.cuts_join before after
    rw [cuts.splitTop, tidied]

/-- **A list is split into the items it was made of.** -/
theorem splitTop_join {lead trail : Text} {vs : List Text} (before : Blank lead) (after : Blank trail)
    (items : ∀ item ∈ vs, IsItem item) : splitTop ',' (lead ++ join ", " vs ++ trail) = .ok vs :=
  (isRow_of_items items).split_join before after

/-- **Splitting loses nothing and is stable.** At a separator other than the space every text is split. At commas the
pieces are trimmed and not empty, show no comma and stand in the text with commas and white space alone around them;
all but the last end outside literals and parentheses, and the list written of them is split into them again. -/
theorem splitTop_lossless (t : Text) :
    (∀ sep, sep ≠ ' ' → Returns (splitTop sep t)) ∧
      ∃ pieces, splitTop ',' t = .ok pieces ∧
        (∀ piece ∈ pieces, piece ≠ [] ∧ trim piece = piece ∧ ',' ∉ mask .nested piece) ∧
        (∀ piece ∈ pieces.dropLast, isClosed piece = true) ∧
        LaidOut t pieces ∧ splitTop ',' (join ", " pieces) = .ok pieces := by
  refine ⟨fun sep solid => returns_splitTop solid t, ?_⟩
  obtain ⟨parts, cuts⟩ := exists_cuts t
  have row := cuts.isRow
  have again := row.split_join blank_nil blank_nil
  rw [List.nil_append, List.append_nil] at again
  exact ⟨tidy parts, cuts.splitTop, row.of_mem, row.closed_of_mem, cuts.laid, again⟩

/-- A parenthesis closed without an opening one, an empty piece and a literal that is left open. -/
theorem splitTop_lossless_stray :
    Returns (splitTop ';' "f(a, b) ,, c), 'x,y ".toList) ∧
      LaidOut "f(a, b) ,, c), 'x,y ".toList ["f(a, b)".toList, "c)".toList, "'x,y".toList] ∧
      trim "'x,y".toList = "'x,y".toList ∧ ',' ∉ mask .nested "'x,y".toList ∧ isClosed "c)".toList = true ∧
      splitTop ',' "f(a, b), c), 'x,y".toList = .ok ["f(a, b)".toList, "c)".toList, "'x,y".toList] := by
  obtain ⟨returns, pieces, split, each, closed, laid, again⟩ := splitTop_lossless "f(a, b) ,, c), 'x,y ".toList
  have found : splitTop ',' "f(a, b) ,, c), 'x,y ".toList = .ok ["f(a, b)".toList, "c)".toList, "'x,y".toList] := by
    decide +kernel
  rw [found] at split
  cases split
  obtain ⟨-, trimmed, whole⟩ := each "'x,y".toList (by decide)
  exact ⟨returns ';' (by decide), laid, trimmed, whole, closed "c)".toList (by decide), again⟩

end Text
end QueryCode
