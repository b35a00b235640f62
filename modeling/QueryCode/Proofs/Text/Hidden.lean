import QueryCode.Proofs.Text.Top

/-!
# Texts with the same mask

Two texts may differ only in what stands inside literals and parentheses. They then agree on everything that is found
in the mask, on the white space around them, and on the places where they are split: the pieces have the same masks
again, so the argument goes on piece by piece.
-/

namespace QueryCode
set_option autoImplicit false

namespace Text

/-! ## White space at the ends -/

/-- The walk is not brought outside by text without quotes and parentheses. -/
theorem Walk.eq_of_run_plain {w : Walk} (sound : w.Sound) {t : Text} (plain : Plain t) (leaves : w.run t = {}) : w = {} := by
  induction t generalizing w with
  | nil => exact leaves
  | cons c t ih =>
    rw [plain_cons] at plain
    have outside := ih (sound.step c _) plain.2 leaves
    exact (Walk.step_seen sound plain.1 (by rw [Walk.step_shown outside]; rfl)).1

theorem isClosed_of_append_plain {t trail : Text} (closed : isClosed (t ++ trail) = true) (plain : Plain trail) :
    isClosed t = true := by
  rw [isClosed_iff] at *
  rw [Walk.run_append (Walk.sound_start 0) plain.apart_right] at closed
  exact Walk.eq_of_run_plain (Walk.Sound.run (Walk.sound_start 0) t) plain closed

theorem last_mask {t : Text} (closed : isClosed t = true) : (mask .nested t).getLast? = t.getLast? := by
  rcases List.eq_nil_or_concat t with rfl | ⟨t, c, rfl⟩
  · rfl
  · have last : (t.concat c).getLast? = some c := by rw [List.concat_eq_append, List.getLast?_concat]
    obtain ⟨front, cells⟩ := List.getLast?_eq_some_iff.1 (Walk.last_cell last (isClosed_iff.1 closed))
    rw [last, mask, Text.cells, cells, List.flatMap_append, List.flatMap_singleton]
    exact List.getLast?_concat

theorem head_trimStart_any (t : Text) : (trimStart t).head?.any isBlank = false := by
  cases solid : trimStart t with
  | nil => rfl
  | cons c rest => exact head_trimStart solid

/-- White space at the start of a text shows. -/
theorem mask_eq_trimStart (t : Text) : mask .nested t = t.takeWhile isBlank ++ mask .nested (trimStart t) := by
  have blank : Blank (t.takeWhile isBlank) := fun c mem => List.mem_takeWhile_imp mem
  rw [← mask_plain_append _ blank.plain, trimStart, List.takeWhile_append_dropWhile]

theorem takeWhile_mask (t : Text) : (mask .nested t).takeWhile isBlank = t.takeWhile isBlank := by
  rw [mask_eq_trimStart]
  refine takeWhile_run (fun c mem => List.mem_takeWhile_imp mem) ?_
  rw [head_mask]
  exact head_trimStart_any t

theorem mask_trimStart (t : Text) : mask .nested (trimStart t) = trimStart (mask .nested t) := by
  rw [mask_eq_trimStart t, trimStart, trimStart]
  refine (dropWhile_run (fun c mem => List.mem_takeWhile_imp mem) ?_).symm
  rw [head_mask]
  exact head_trimStart_any t

/-- White space at the end of a closed text shows. -/
theorem mask_trimEnd {t : Text} (closed : isClosed t = true) : mask .nested (trimEnd t) = trimEnd (mask .nested t) := by
  obtain ⟨trail, blank, whole⟩ := exists_trimEnd t
  have front : isClosed (trimEnd t) = true := isClosed_of_append_plain (whole ▸ closed) blank.plain
  have shown : mask .nested t = mask .nested (trimEnd t) ++ trail := by
    rw [← mask_append_plain _ front blank.plain, ← whole]
  have last : (mask .nested (trimEnd t)).getLast?.any isBlank = false := by
    rw [last_mask front]
    exact trimEnd_eq_self_iff.1 (trimEnd_trimEnd t)
  rw [shown, trimEnd_append blank, trimEnd_eq_self_iff.2 last]

theorem isClosed_trimStart {t : Text} (closed : isClosed t = true) : isClosed (trimStart t) = true := by
  obtain ⟨lead, blank, whole⟩ := exists_trimStart t
  exact isClosed_of_append blank.plain.isClosed blank.plain.apart_left (whole ▸ closed)

/-- The end of a text without white space at its end has none. -/
theorem last_of_append {u t : Text} (last : (u ++ t).getLast?.any isBlank = false) : t.getLast?.any isBlank = false := by
  by_cases empty : t = []
  · rw [empty]
    rfl
  · rwa [List.getLast?_append_of_ne_nil _ empty] at last

theorem last_trimStart {t : Text} (last : t.getLast?.any isBlank = false) : (trimStart t).getLast?.any isBlank = false := by
  obtain ⟨lead, -, whole⟩ := exists_trimStart t
  exact last_of_append (whole ▸ last)

/-- Texts of the same mask are trimmed alike, if they are closed or have no white space at the end. -/
theorem mask_trim_congr {s t : Text} (same : mask .nested s = mask .nested t)
    (ends : isClosed s = true ∧ isClosed t = true ∨ s.getLast?.any isBlank = false ∧ t.getLast?.any isBlank = false) :
    mask .nested (trim s) = mask .nested (trim t) := by
  rcases ends with ⟨closed, closed'⟩ | ⟨last, last'⟩
  · rw [trim, trim, mask_trimEnd (isClosed_trimStart closed), mask_trimEnd (isClosed_trimStart closed'), mask_trimStart,
      mask_trimStart, same]
  · rw [trim, trim, trimEnd_eq_self_iff.2 (last_trimStart last), trimEnd_eq_self_iff.2 (last_trimStart last'),
      mask_trimStart, mask_trimStart, same]

/-! ## Splitting -/

theorem cells_cons_plain {c : Char} (plain : isMark c = false) (t : Text) : cells (c :: t) = ⟨c, false, false⟩ :: cells t := by
  rw [cells, Walk.cells, Walk.step_plain plain]
  rfl

section Split

variable {sep : Char} (ink : isInk sep = true)
include ink

/-- A text in which the separator does not show is one piece. -/
theorem splitCells_of_not_mem {t : Text} (absent : sep ∉ mask .nested t) : splitCells sep (cells t) = [t] := by
  have solid := ne_space_of_isInk ink
  have hidden : ∀ cell ∈ cells t, shows sep cell = false := by
    intro cell mem
    by_contra shown
    exact absent ((mem_mask_iff solid).2 ⟨cell, mem, by simpa using shown⟩)
  rw [splitCells_single hidden, cells, Walk.map_char_cells]

/-- A text is split at the first place where the separator shows. -/
theorem exists_split_at {t b r : Text} (split : mask .nested t = b ++ sep :: r) (first : sep ∉ b) :
    ∃ u v, mask .nested u = b ∧ mask .nested v = r ∧
      splitCells sep (cells t) = u :: splitCells sep (cells v) := by
  have solid := ne_space_of_isInk ink
  have plain := isMark_of_isInk ink
  obtain ⟨u, w, rfl, closed, apart, rfl, shown⟩ := exists_closed split (.inr ink)
  obtain ⟨v, rfl, rfl⟩ := exists_of_mask_plain (g := [sep]) shown (plain_cons.2 ⟨plain, plain_nil⟩)
  refine ⟨u, v, rfl, rfl, ?_⟩
  have hidden : ∀ cell ∈ cells u, shows sep cell = false := by
    intro cell mem
    by_contra shown
    exact first ((mem_mask_iff solid).2 ⟨cell, mem, by simpa using shown⟩)
  have seen : shows sep ⟨sep, false, false⟩ = true := by simp [shows, Cell.hidden]
  have whole : cells (u ++ ([sep] ++ v)) = cells u ++ ⟨sep, false, false⟩ :: cells v := by
    rw [cells_append closed apart, List.singleton_append, cells_cons_plain plain]
  rw [whole, splitCells_append hidden seen, cells, Walk.map_char_cells]

/-- **Texts of the same mask are split into pieces of the same masks.** -/
theorem forall₂_splitCells {s t : Text} (same : mask .nested s = mask .nested t) :
    List.Forall₂ (fun p q => mask .nested p = mask .nested q) (splitCells sep (cells s)) (splitCells sep (cells t)) := by
  by_cases mem : sep ∈ mask .nested s
  · obtain ⟨b, r, split, first⟩ := List.eq_append_cons_of_mem mem
    obtain ⟨u, v, masked, tail, cut⟩ := exists_split_at ink split first
    obtain ⟨u', v', masked', tail', cut'⟩ := exists_split_at ink (same.symm.trans split) first
    have shorter : (mask .nested v).length < (mask .nested s).length := by
      rw [tail, split, List.length_append, List.length_cons]
      omega
    rw [cut, cut']
    exact .cons (masked.trans masked'.symm) (forall₂_splitCells (tail.trans tail'.symm))
  · have mem' : sep ∉ mask .nested t := same ▸ mem
    rw [splitCells_of_not_mem ink mem, splitCells_of_not_mem ink mem']
    exact .cons same .nil
termination_by (mask .nested s).length

end Split

/-! ## Items -/

/-- White space shows as white space, wherever it stands. -/
theorem Walk.blank_shown (w : Walk) (cover : Cover) {t : Text} (blank : Blank t) :
    Blank ((w.cells t).flatMap (Cell.shown cover)) := by
  intro c mem
  obtain ⟨cell, listed, mem⟩ := List.mem_flatMap.1 mem
  have char : cell.char ∈ t := by
    have mapped := List.mem_map_of_mem (f := Cell.char) listed
    rwa [map_char_cells] at mapped
  rw [Cell.shown] at mem
  split at mem
  · rw [List.eq_of_mem_replicate mem]
    decide
  · rw [List.mem_singleton.1 mem]
    exact blank _ char

/-- Whether a character other than white space shows in a text does not depend on the white space around it. -/
theorem mem_mask_trim {cover : Cover} {c : Char} (solid : isBlank c = false) (t : Text) :
    c ∈ mask cover (trim t) ↔ c ∈ mask cover t := by
  have absent {u : Text} (blank : Blank u) : c ∉ u := by
    intro mem
    rw [blank c mem] at solid
    cases solid
  obtain ⟨lead, trail, before, after, whole⟩ := exists_trim t
  have shown : mask cover t =
      lead ++ (mask cover (trim t) ++ ((Walk.run {} (trim t)).cells trail).flatMap (Cell.shown cover)) := by
    rw [whole, trim_append before after, trim_trim, List.append_assoc, mask_plain_append _ before.plain, mask, cells,
      Walk.cells_append (Walk.sound_start 0) after.plain.apart_right, List.flatMap_append]
    rfl
  rw [shown, List.mem_append, List.mem_append]
  have lead' := absent before
  have trail' := absent (Walk.blank_shown (Walk.run {} (trim t)) cover after)
  tauto

/-- The same characters other than white space show in both texts. -/
def ShowAlike (s t : Text) : Prop := ∀ c, isBlank c = false → (c ∈ mask .nested s ↔ c ∈ mask .nested t)

theorem showAlike_trim {s t : Text} (same : mask .nested s = mask .nested t) : ShowAlike (trim s) (trim t) := by
  intro c solid
  rw [mem_mask_trim solid, mem_mask_trim solid, same]

/-- Pieces of the same masks are kept or dropped alike. -/
theorem forall₂_filter_trim {ps qs : List Text} (alike : List.Forall₂ (fun p q => mask .nested p = mask .nested q) ps qs) :
    List.Forall₂ ShowAlike ((ps.map trim).filter (!·.isEmpty)) ((qs.map trim).filter (!·.isEmpty)) := by
  induction alike with
  | nil => exact .nil
  | @cons p q ps qs same rest ih =>
    have empty : (trim p).isEmpty = (trim q).isEmpty := by
      rw [Bool.eq_iff_iff, List.isEmpty_iff, List.isEmpty_iff, trim_eq_nil, trim_eq_nil, ← blank_mask_iff, same,
        blank_mask_iff]
    rw [List.map_cons, List.map_cons, List.filter_cons, List.filter_cons, empty]
    split
    · exact .cons (showAlike_trim same) ih
    · exact ih

/-- **Texts of the same mask are split into as many items**, and these show the same characters. -/
theorem exists_splitTop {sep : Char} (ink : isInk sep = true) {s t : Text} (same : mask .nested s = mask .nested t) :
    ∃ ps qs, splitTop sep s = .ok ps ∧ splitTop sep t = .ok qs ∧ List.Forall₂ ShowAlike ps qs := by
  have solid := ne_space_of_isInk ink
  exact ⟨_, _, splitTop_eq solid s, splitTop_eq solid t, forall₂_filter_trim (forall₂_splitCells ink same)⟩

end Text
end QueryCode
