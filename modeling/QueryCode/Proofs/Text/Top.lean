import QueryCode.Proofs.Text.Boundary

/-!
# Places outside literals and parentheses

A character that is no quote, no parenthesis and no space shows in the mask only where the walk stands outside every
literal and parenthesis. So a place of the mask next to such a character splits the text into a closed one and a rest
that is masked on its own: `exists_closed`. From there on the mask shows the text itself up to the next quote or
parenthesis, and a scan that passes over none of them stays outside.
-/

namespace QueryCode
set_option autoImplicit false

namespace Text

/-- A character that shows only outside literals and parentheses. -/
def isInk (c : Char) : Bool := c != ' ' && !isMark c

theorem isInk_of_class {member : Char → Bool} (unlisted : [' ', '\'', '"', '(', ')'].any member = false) {c : Char}
    (in' : member c = true) : isInk c = true := by
  have space : c ≠ ' ' := by
    rintro rfl
    rw [List.any_cons, in'] at unlisted
    cases unlisted
  have marks : ['\'', '"', '(', ')'].any member = false := by
    rw [List.any_cons, Bool.or_eq_false_iff] at unlisted
    exact unlisted.2
  simp [isInk, space, isMark_of_class marks in']

theorem isMark_of_isInk {c : Char} (ink : isInk c = true) : isMark c = false := by
  rw [isInk, Bool.and_eq_true, Bool.not_eq_true'] at ink
  exact ink.2

theorem ne_space_of_isInk {c : Char} (ink : isInk c = true) : c ≠ ' ' := by
  rw [isInk, Bool.and_eq_true, bne_iff_ne] at ink
  exact ink.1

/-! ## The walk at a shown character -/

namespace Walk

/-- A character that is no quote or parenthesis shows only where the walk is outside, and it stays there. -/
theorem step_seen {w : Walk} (sound : w.Sound) {c : Char} {next : Option Char} (plain : isMark c = false)
    (seen : (w.step c next).1.hidden .nested = false) : w = {} ∧ (w.step c next).2 = {} := by
  have outside : w.mode = .plain := mode_of_step sound (isQuote_of_isMark plain) (Bool.or_eq_false_iff.1 seen).1
  obtain ⟨mode, depth⟩ := w
  cases outside
  rw [step_plain plain] at seen ⊢
  have open' : depth = 0 := by
    simpa [Cell.hidden] using seen
  rw [open']
  exact ⟨rfl, rfl⟩

theorem Sound.run {w : Walk} (sound : w.Sound) (t : Text) : (w.run t).Sound := by
  induction t generalizing w with
  | nil => exact sound
  | cons c t ih => exact ih (sound.step c _)

theorem length_cells (w : Walk) (t : Text) : (w.cells t).length = t.length := by
  rw [← List.length_map Cell.char, map_char_cells]

/-- The cells of a text, split where no quote is doubled, are those of the two parts. -/
theorem cells_split {w : Walk} (sound : w.Sound) {t : Text} {cs ds : List Cell} (split : w.cells t = cs ++ ds)
    (apart : Apart (cs.map Cell.char) (ds.map Cell.char)) :
    w.cells (cs.map Cell.char) = cs ∧ (w.run (cs.map Cell.char)).cells (ds.map Cell.char) = ds := by
  have whole : t = cs.map Cell.char ++ ds.map Cell.char := by
    rw [← List.map_append, ← split, map_char_cells]
  rw [whole, cells_append sound apart] at split
  have length : (w.cells (cs.map Cell.char)).length = cs.length := by rw [length_cells, List.length_map]
  exact List.append_inj split length

end Walk

/-- The cell that shows such a character first. -/
theorem exists_cell_of_head {cover : Cover} {cells : List Cell} {c : Char} {r : Text}
    (shown : cells.flatMap (Cell.shown cover) = c :: r) (ink : isInk c = true) :
    ∃ cell rest, cells = cell :: rest ∧ cell.hidden cover = false ∧ cell.char = c := by
  cases cells with
  | nil => cases shown
  | cons cell rest =>
    refine ⟨cell, rest, rfl, ?_⟩
    rw [List.flatMap_cons, Cell.shown] at shown
    split at shown
    · obtain ⟨n, size⟩ := Nat.exists_eq_succ_of_ne_zero (Nat.ne_of_gt cell.char.utf8Size_pos)
      rw [size, List.replicate_succ] at shown
      exact absurd (List.cons.inj shown).1.symm (ne_space_of_isInk ink)
    · rename_i seen
      exact ⟨by simpa using seen, (List.cons.inj shown).1⟩

/-- The cell that shows such a character last. -/
theorem exists_cell_of_last {cells : List Cell} {c : Char} {b : Text}
    (shown : cells.flatMap (Cell.shown .nested) = b ++ [c]) (ink : isInk c = true) :
    ∃ rest cell, cells = rest ++ [cell] ∧ cell.hidden .nested = false ∧ cell.char = c := by
  rcases List.eq_nil_or_concat cells with rfl | ⟨rest, cell, rfl⟩
  · simp at shown
  · refine ⟨rest, cell, List.concat_eq_append, ?_⟩
    rw [List.concat_eq_append, List.flatMap_append, List.flatMap_singleton, Cell.shown] at shown
    split at shown
    · obtain ⟨n, size⟩ := Nat.exists_eq_succ_of_ne_zero (Nat.ne_of_gt cell.char.utf8Size_pos)
      rw [size, List.replicate_succ', ← List.append_assoc] at shown
      exact absurd (List.append_inj_right' shown rfl) (by simpa using (ne_space_of_isInk ink).symm)
    · rename_i seen
      refine ⟨by simpa using seen, ?_⟩
      simpa using List.append_inj_right' shown rfl

/-- **A place of the mask next to such a character lies outside every literal and parenthesis.** -/
theorem exists_closed {t b r : Text} (split : mask .nested t = b ++ r)
    (ink : b.getLast?.any isInk = true ∨ r.head?.any isInk = true) :
    ∃ u v, t = u ++ v ∧ isClosed u = true ∧ Apart u v ∧ mask .nested u = b ∧ mask .nested v = r := by
  have firm : b.getLast? ≠ some ' ' ∨ r.head? ≠ some ' ' := by
    refine ink.imp (fun ink space => ?_) fun ink space => ?_
    · rw [space] at ink
      exact absurd ink (by decide)
    · rw [space] at ink
      exact absurd ink (by decide)
  obtain ⟨cs, ds, parts, before, after⟩ := flatMap_shown_split split firm
  have whole : t = cs.map Cell.char ++ ds.map Cell.char := by
    rw [← List.map_append, ← parts, cells, Walk.map_char_cells]
  have start : Walk.Sound {} := Walk.sound_start 0
  -- the walk is outside in front of the character and behind it
  have outside : isClosed (cs.map Cell.char) = true ∧ Apart (cs.map Cell.char) (ds.map Cell.char) := by
    rcases ink with ink | ink
    · rcases List.eq_nil_or_concat b with rfl | ⟨b, c, rfl⟩
      · cases ink
      · rw [List.concat_eq_append] at before ink
        rw [List.getLast?_concat] at ink
        obtain ⟨rest, cell, rfl, seen, rfl⟩ := exists_cell_of_last before ink
        have plain := isMark_of_isInk ink
        have quote := isQuote_of_isMark plain
        have apart : Apart ((rest ++ [cell]).map Cell.char) (ds.map Cell.char) := by
          rw [List.map_append]
          exact apart_of_last quote
        have apart' : Apart (rest.map Cell.char) [cell.char] := apart_of_head quote
        obtain ⟨front, -⟩ := Walk.cells_split start parts apart
        obtain ⟨-, last⟩ := Walk.cells_split start front apart'
        have stepped : ((Walk.run {} (rest.map Cell.char)).step cell.char none).1 = cell := (List.cons.inj last).1
        have stays := Walk.step_seen (Walk.Sound.run start _) plain (stepped ▸ seen)
        refine ⟨?_, apart⟩
        rw [isClosed_iff, List.map_append]
        exact (Walk.run_append start apart').trans stays.2
    · cases r with
      | nil => cases ink
      | cons c r =>
        obtain ⟨cell, rest, rfl, seen, rfl⟩ := exists_cell_of_head after ink
        have plain := isMark_of_isInk ink
        have apart : Apart (cs.map Cell.char) ((cell :: rest).map Cell.char) := apart_of_head (isQuote_of_isMark plain)
        obtain ⟨-, tail⟩ := Walk.cells_split start parts apart
        have stepped := (List.cons.inj tail).1
        have stays := Walk.step_seen (Walk.Sound.run start _) plain (stepped ▸ seen)
        exact ⟨isClosed_iff.2 stays.1, apart⟩
  obtain ⟨closed, apart⟩ := outside
  obtain ⟨front, tail⟩ := Walk.cells_split start parts apart
  rw [isClosed_iff.1 closed] at tail
  refine ⟨_, _, whole, closed, apart, ?_, ?_⟩
  · rw [mask, cells, front, before]
  · rw [mask, cells, tail, after]

/-! ## What the mask shows -/

/-- The first character of a text shows. -/
theorem exists_mask_cons (c : Char) (t : Text) : ∃ shown, mask .nested (c :: t) = c :: shown := by
  refine ⟨(Walk.cells (Walk.step {} c t.head?).2 t).flatMap (Cell.shown .nested), ?_⟩
  have first : (Walk.step {} c t.head?).1 = ⟨c, false, false⟩ := by
    have steps := Walk.steps {} c t.head?
    generalize Walk.step {} c t.head? = found at steps ⊢
    cases steps <;> rfl
  rw [mask, cells, Walk.cells, List.flatMap_cons, first]
  rfl

theorem head_mask (t : Text) : (mask .nested t).head? = t.head? := by
  cases t with
  | nil => rfl
  | cons c t =>
    obtain ⟨shown, first⟩ := exists_mask_cons c t
    rw [first, List.head?_cons, List.head?_cons]

/-- **Up to the first quote or parenthesis the mask shows the text itself.** -/
theorem exists_of_mask_plain {t g r : Text} (split : mask .nested t = g ++ r) (plain : Plain g) :
    ∃ v, t = g ++ v ∧ mask .nested v = r := by
  induction g generalizing t with
  | nil => exact ⟨t, rfl, split⟩
  | cons c g ih =>
    rw [plain_cons] at plain
    cases t with
    | nil => cases split
    | cons d t =>
      obtain ⟨shown, first⟩ := exists_mask_cons d t
      obtain rfl : d = c := (List.cons.inj (first.symm.trans split)).1
      have lone : Plain [d] := plain_cons.2 ⟨plain.1, plain_nil⟩
      have rest : mask .nested (d :: t) = d :: mask .nested t := mask_plain_append _ lone
      obtain ⟨v, rfl, masked⟩ := ih (List.cons.inj (rest.symm.trans split)).2 plain.2
      exact ⟨v, rfl, masked⟩

theorem blank_mask_iff {t : Text} : Blank (mask .nested t) ↔ Blank t := by
  constructor
  · intro blank
    obtain ⟨v, whole, unlisted⟩ := exists_of_mask_plain (List.append_nil (mask .nested t)).symm blank.plain
    cases v with
    | nil =>
      rw [whole, List.append_nil]
      exact blank
    | cons c v =>
      obtain ⟨shown, first⟩ := exists_mask_cons c v
      cases first.symm.trans unlisted
  · intro blank
    rwa [blank.plain.mask]

/-- What stands between two places outside is closed. -/
theorem isClosed_of_append {u v : Text} (closed : isClosed u = true) (apart : Apart u v) (both : isClosed (u ++ v) = true) :
    isClosed v = true := by
  rw [isClosed_iff] at *
  rwa [Walk.run_append (Walk.sound_start 0) apart, closed] at both

theorem Apart.left {u v w : Text} (apart : Apart u (v ++ w)) : Apart u v := by
  intro c last first
  refine apart c last ?_
  rw [List.head?_append, first]
  rfl

/-! ## Scans from such places -/

namespace Cursor

/-- A place of the mask outside every literal and parenthesis, no earlier than the byte offset `n`. -/
structure Top (t : Text) (n : Nat) (cur : Cursor) : Prop where
  outside : ∃ u v, t = u ++ v ∧ isClosed u = true ∧ Apart u v ∧ cur = between (mask .nested u) (mask .nested v)
  late : n ≤ cur.offset

variable {t : Text} {n : Nat} {cur : Cursor}

theorem top_start (t : Text) : Top t 0 (start (mask .nested t)) :=
  ⟨⟨[], t, rfl, rfl, plain_nil.apart_left, rfl⟩, le_refl 0⟩

theorem Top.toAhead (top : Top t n cur) : Ahead (mask .nested t) n cur := by
  obtain ⟨⟨u, v, rfl, closed, apart, rfl⟩, late⟩ := top
  exact ⟨⟨_, _, mask_append _ closed apart, rfl⟩, late⟩

theorem Top.isBoundary (top : Top t n cur) : IsBoundary cur.offset t := by
  obtain ⟨u, v, rfl, -, -, rfl⟩ := top.outside
  exact ⟨u, v, rfl, by rw [offset_between, size_mask]⟩

theorem Top.mono {k : Nat} (top : Top t n cur) (le : k ≤ n) : Top t k cur := ⟨top.outside, le_trans le top.late⟩

/-- A place next to a character that shows only outside. -/
theorem Ahead.top (ahead : Ahead (mask .nested t) n cur)
    (ink : cur.last.any isInk = true ∨ cur.rest.head?.any isInk = true) : Top t n cur := by
  obtain ⟨⟨before, rest, split, rfl⟩, late⟩ := ahead
  obtain ⟨u, v, whole, closed, apart, rfl, rfl⟩ := exists_closed split ink
  exact ⟨⟨u, v, whole, closed, apart, rfl⟩, late⟩

/-- A place that is reached over text without quotes and parentheses. -/
theorem top_pass {u v g rest : Text} (closed : isClosed u = true) (apart : Apart u v)
    (split : mask .nested v = g ++ rest) (plain : Plain g) (late : n ≤ size (mask .nested u)) :
    Top (u ++ v) n (between (mask .nested u ++ g) rest) := by
  obtain ⟨v, rfl, rfl⟩ := exists_of_mask_plain split plain
  by_cases unlisted : g = []
  · subst unlisted
    rw [List.append_nil]
    exact ⟨⟨u, v, rfl, closed, apart, rfl⟩, late⟩
  · refine ⟨⟨u ++ g, v, (List.append_assoc ..).symm, ?_, plain.apart_append unlisted v, ?_⟩, ?_⟩
    · exact isClosed_append closed plain.isClosed plain.apart_right
    · rw [mask_append_plain _ closed plain]
    · rw [offset_between, size_append]
      omega

end Cursor

namespace Scan

open Cursor

variable {t : Text} {n : Nat}

theorem isInk_of_isWord {c : Char} (word : isWord c = true) : isInk c = true := isInk_of_class (by decide) word

theorem last_isInk {before taken : Text} (filled : taken ≠ []) (ink : ∀ c ∈ taken, isInk c = true) :
    (before ++ taken).getLast?.any isInk = true := by
  rw [List.getLast?_append_of_ne_nil _ filled, List.getLast?_eq_some_getLast filled]
  exact ink _ (List.getLast_mem filled)

/-- A keyword is found outside only, and takes at least one character. -/
theorem leads_letters {w : Text} (lower : isLowerWord w = true) :
    Leads (Ahead (mask .nested t) n) (letters w) fun _ => Top t (n + 1) := by
  rintro cur word stop ⟨⟨before, rest, split, rfl⟩, late⟩ found
  obtain ⟨after, rfl, same, rfl⟩ := letters_some.1 found
  have filled := ne_nil_of_sameFold lower same
  have size := size_pos filled
  refine Ahead.top ⟨⟨before ++ word, after, by rw [split, List.append_assoc], rfl⟩, ?_⟩ (.inl ?_)
  · rw [offset_between] at late ⊢
    rw [size_append]
    omega
  · exact last_isInk filled fun c mem => isInk_of_isWord (isWord_of_sameFold lower same c mem)

theorem leads_one {member : Char → Bool} (unlisted : [' ', '\'', '"', '(', ')'].any member = false) :
    Leads (Ahead (mask .nested t) n) (one member) fun _ => Top t n := by
  rintro cur c stop ⟨⟨before, rest, split, rfl⟩, late⟩ found
  obtain ⟨after, rfl, in', rfl⟩ := one_some.1 found
  refine Ahead.top ⟨⟨before ++ [c], after, by rw [split, List.append_assoc]; rfl, rfl⟩, ?_⟩ (.inl ?_)
  · rw [offset_between] at late ⊢
    rw [size_append]
    omega
  · rw [between, List.getLast?_concat]
    exact isInk_of_class unlisted in'

section Pass

variable {member : Char → Bool} (unlisted : ['\'', '"', '(', ')'].any member = false)
include unlisted

theorem leads_run : Leads (Top t n) (run member) fun _ => Top t n := by
  rintro cur taken stop ⟨⟨u, v, rfl, closed, apart, rfl⟩, late⟩ found
  obtain ⟨after, split, all, -, rfl⟩ := run_some.1 found
  exact top_pass closed apart split (plain_of_class unlisted all) late

theorem leads_run1 : Leads (Top t n) (run1 member) fun _ => Top t n := by
  rintro cur taken stop ⟨⟨u, v, rfl, closed, apart, rfl⟩, late⟩ found
  obtain ⟨after, split, -, all, -, rfl⟩ := run1_some.1 found
  exact top_pass closed apart split (plain_of_class unlisted all) late

end Pass

theorem leads_blanks : Leads (Top t n) blanks fun _ => Top t n := by
  rintro cur _ stop ⟨⟨u, v, rfl, closed, apart, rfl⟩, late⟩ found
  obtain ⟨gap, after, split, blank, -, rfl⟩ := blanks_some.1 found
  exact top_pass closed apart split blank.plain late

theorem leads_blanks1 : Leads (Top t n) blanks1 fun _ => Top t n := by
  rintro cur _ stop ⟨⟨u, v, rfl, closed, apart, rfl⟩, late⟩ found
  obtain ⟨gap, after, split, -, blank, -, rfl⟩ := blanks1_some.1 found
  exact top_pass closed apart split blank.plain late

/-- A keyword after a place outside. -/
theorem leads_keyword {w : Text} (lower : isLowerWord w = true) :
    Leads (Top t n) (discard (letters w)) fun _ => Top t n :=
  (((leads_letters lower).mono fun _ _ top => top.mono (Nat.le_succ n)).of fun _ => Top.toAhead).discard

end Scan

end Text
end QueryCode
