import QueryCode.Proofs.Text.Boundary

/-!
# Offsets in the mask

Clauses are looked for in the mask of a statement and cut out of the statement itself, so an offset has to mean the same
in both. Each character of a text has its own bytes in the mask, and they show the character or as many spaces. So the
boundaries of the text are boundaries of the mask, whatever shows in the mask stands in the same bytes of the text, and the
text can be cut wherever something shows.
-/

namespace QueryCode
set_option autoImplicit false

namespace Text

/-- Offsets into `t` are offsets into `shown`, which shows some characters of `t` as spaces. -/
structure Aligned (t shown : Text) : Prop where
  size_eq : size shown = size t
  /-- A character shows in its own bytes, as itself or as spaces. -/
  char : ∀ u c v, t = u ++ c :: v →
    slice (size u) (size (u ++ [c])) shown = .ok [c] ∨
      slice (size u) (size (u ++ [c])) shown = .ok (List.replicate c.utf8Size ' ')
  boundary : ∀ n, IsBoundary n t → IsBoundary n shown
  /-- What shows stands in the same place of the text. -/
  seen : ∀ u c v, shown = u ++ c :: v → c ≠ ' ' → ∃ u' v', t = u' ++ c :: v' ∧ size u' = size u
  /-- What shows at its two ends is a span of the text with the same offsets. -/
  span : ∀ u m v, shown = u ++ m ++ v → m.head?.any (· != ' ') = true → m.getLast?.any (· != ' ') = true →
    ∃ s, slice (size u) (size (u ++ m)) t = .ok s ∧ size s = size m

/-- The cell of a character, with the cells before it and after it. -/
theorem exists_cell {t u v : Text} {c : Char} (split : t = u ++ c :: v) :
    ∃ before cell after, cells t = before ++ cell :: after ∧ before.map Cell.char = u ∧ cell.char = c := by
  have chars : (cells t).map Cell.char = u ++ c :: v := by rw [cells, Walk.map_char_cells, split]
  obtain ⟨before, rest, row, front, back⟩ := List.map_eq_append_iff.1 chars
  obtain ⟨cell, after, rfl, char, -⟩ := List.map_eq_cons_iff.1 back
  exact ⟨before, cell, after, row, front, char⟩

/-- The bytes of a character show its cell. -/
theorem slice_mask_of_cells {t : Text} {before after : List Cell} {cell : Cell} (row : cells t = before ++ cell :: after)
    (cover : Cover) :
    slice (size (before.map Cell.char)) (size (before.map Cell.char ++ [cell.char])) (mask cover t) =
      .ok (cell.shown cover) := by
  have shown : mask cover t = before.flatMap (Cell.shown cover) ++ cell.shown cover ++ after.flatMap (Cell.shown cover) := by
    rw [mask, row, List.flatMap_append, List.flatMap_cons, List.append_assoc]
  have start : size (before.map Cell.char) = size (before.flatMap (Cell.shown cover)) := (size_flatMap_shown cover before).symm
  have stop : size (before.map Cell.char ++ [cell.char]) = size (before.flatMap (Cell.shown cover) ++ cell.shown cover) := by
    rw [size_append, size_append, start, Cell.size_shown, size, size, Nat.add_zero]
  rw [shown, start, stop]
  exact slice_append _ _ _

theorem isBoundary_mask {n : Nat} {t : Text} (boundary : IsBoundary n t) (cover : Cover) : IsBoundary n (mask cover t) := by
  obtain ⟨u, v, rfl, rfl⟩ := boundary
  have chars : (cells (u ++ v)).map Cell.char = u ++ v := Walk.map_char_cells {} (u ++ v)
  obtain ⟨before, after, row, front, -⟩ := List.map_eq_append_iff.1 chars
  refine ⟨before.flatMap (Cell.shown cover), after.flatMap (Cell.shown cover), ?_, ?_⟩
  · rw [mask, row, List.flatMap_append]
  · rw [size_flatMap_shown, front]

/-- A character that shows in the mask stands at its offset in the text. -/
theorem exists_of_mask_cons {cover : Cover} {t u v : Text} {c : Char} (split : mask cover t = u ++ c :: v) (solid : c ≠ ' ') :
    ∃ u' v', t = u' ++ c :: v' ∧ size u' = size u := by
  obtain ⟨before, rest, row, rfl, back⟩ := flatMap_shown_split split (.inr (by simpa using solid))
  have whole : t = before.map Cell.char ++ rest.map Cell.char := by
    rw [← List.map_append, ← row, cells, Walk.map_char_cells]
  cases rest with
  | nil => cases back
  | cons cell after =>
    rw [List.flatMap_cons, Cell.shown] at back
    split at back
    · obtain ⟨n, bytes⟩ := Nat.exists_eq_succ_of_ne_zero (Nat.ne_of_gt cell.char.utf8Size_pos)
      rw [bytes, List.replicate_succ] at back
      exact absurd (List.cons.inj back).1.symm solid
    · obtain ⟨rfl, -⟩ := List.cons.inj back
      exact ⟨before.map Cell.char, after.map Cell.char, whole, (size_flatMap_shown cover before).symm⟩

theorem aligned_mask (cover : Cover) (t : Text) : Aligned t (mask cover t) where
  size_eq := size_mask cover t
  char := by
    intro u c v split
    obtain ⟨before, cell, after, row, rfl, rfl⟩ := exists_cell split
    rw [slice_mask_of_cells row, Cell.shown]
    split
    · exact .inr rfl
    · exact .inl rfl
  boundary := fun _ boundary => isBoundary_mask boundary cover
  seen := fun _ _ _ split solid => exists_of_mask_cons split solid
  span := by
    intro u m v split first last
    have start : IsBoundary (size u) t := by
      rw [List.append_assoc] at split
      refine isBoundary_of_mask split (.inr fun space => ?_)
      cases m with
      | nil => cases first
      | cons c m =>
        cases space
        cases first
    have stop : IsBoundary (size (u ++ m)) t := by
      refine isBoundary_of_mask split (.inl fun space => ?_)
      have filled : m ≠ [] := by
        rintro rfl
        cases first
      rw [List.getLast?_append_of_ne_nil _ filled] at space
      rw [space] at last
      cases last
    have order : size u ≤ size (u ++ m) := by
      rw [size_append]
      omega
    obtain ⟨u', s, v', -, front, both, cut⟩ := exists_slice start stop order
    rw [size_append, size_append, front] at both
    exact ⟨s, cut, by omega⟩

/-- **Offsets in the mask are offsets in the text**, and what is hidden with the literals alone is hidden with the
parentheses too. -/
theorem mask_offsets (t : Text) :
    (∀ cover, Aligned t (mask cover t)) ∧
      ∀ u c v, t = u ++ c :: v → c ≠ ' ' →
        slice (size u) (size (u ++ [c])) (mask .quotes t) = .ok (List.replicate c.utf8Size ' ') →
        slice (size u) (size (u ++ [c])) (mask .nested t) = .ok (List.replicate c.utf8Size ' ') := by
  refine ⟨fun cover => aligned_mask cover t, fun u c v split solid spaces => ?_⟩
  obtain ⟨before, cell, after, row, rfl, rfl⟩ := exists_cell split
  rw [slice_mask_of_cells row, Except.ok.injEq] at spaces ⊢
  have quoted : cell.quoted = true := by
    by_contra seen
    have shown : cell.shown .quotes = [cell.char] := if_neg seen
    rw [shown] at spaces
    exact solid (List.eq_of_mem_replicate (spaces ▸ List.mem_singleton_self cell.char))
  exact if_pos (by rw [Cell.hidden, quoted, Bool.true_or])

/-- A literal with a character of two bytes and a doubled quote, and one in parentheses. -/
theorem mask_offsets_accents :
    let t := "é = 'ñ''s' AND f('x)') OR".toList
    (mask .quotes t = "é = '     ' AND f('  ') OR".toList ∧ mask .nested t = "é = '     ' AND f(    ) OR".toList) ∧
      Aligned t (mask .nested t) ∧
      slice (size "é = '".toList) (size ("é = '".toList ++ ['ñ'])) (mask .nested t) = .ok (List.replicate 2 ' ') := by
  intro t
  have both := mask_offsets t
  refine ⟨by decide +kernel, both.1 .nested, ?_⟩
  exact both.2 "é = '".toList 'ñ' "''s' AND f('x)') OR".toList rfl (by decide) (by decide +kernel)

end Text
end QueryCode
