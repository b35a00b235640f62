import QueryCode.Proofs.Text.Word

/-!
# Letter case and word characters

Every character that folds to another one is a letter, and so is the other one. A word in any letter case is therefore made
of word characters.
-/

namespace QueryCode
set_option autoImplicit false

namespace Text

/-- All code points from `low` to `high` lie in one of the ranges. -/
def coversRange : List (Nat × Nat) → Nat → Nat → Bool
  | [], _, _ => false
  | (first, last) :: ranges, low, high => first.ble low && (high.ble last || coversRange ranges low high)

theorem inRanges_of_coversRange {ranges : List (Nat × Nat)} {low high n : Nat}
    (covers : coversRange ranges low high = true) (above : low ≤ n) (below : n ≤ high) : inRanges ranges n = true := by
  induction ranges with
  | nil => cases covers
  | cons range ranges ih =>
    obtain ⟨first, last⟩ := range
    rw [coversRange, Bool.and_eq_true, Bool.or_eq_true, Nat.ble_eq, Nat.ble_eq] at covers
    rw [inRanges, if_neg (by omega), Bool.or_eq_true, decide_eq_true_eq]
    rcases covers.2 with within | later
    · exact .inl (by omega)
    · exact .inr (ih later)

/-- The run leads from letters to letters. -/
def isCaseRun : Nat × Nat × Nat × Nat → Bool
  | (first, last, step, image) =>
    (coversRange letterRanges first last && coversRange letterRanges image (image + (last - first)) ||
        (List.range ((last - first) / step + 1)).all fun k =>
          coversRange letterRanges (first + k * step) (first + k * step) &&
            coversRange letterRanges (image + k * step) (image + k * step)) &&
      (image + (last - first) < 0xD800 || (0xE000 ≤ image && image + (last - first) < 0x110000))

theorem letters_of_isCaseRun {first last step image n : Nat} (letters : isCaseRun (first, last, step, image) = true)
    (above : first ≤ n) (below : n ≤ last) (on : (n - first) % step = 0) :
    inRanges letterRanges n = true ∧ inRanges letterRanges (image + (n - first)) = true ∧
      (image + (n - first)).isValidChar := by
  rw [isCaseRun, Bool.and_eq_true] at letters
  obtain ⟨letters, valid⟩ := letters
  refine and_assoc.1 ⟨?_, ?_⟩
  · rcases Bool.or_eq_true_iff.1 letters with whole | each
    · rw [Bool.and_eq_true] at whole
      exact ⟨inRanges_of_coversRange whole.1 above below, inRanges_of_coversRange whole.2 (by omega) (by omega)⟩
    · -- every place of the run is a number of steps away from the first
      have steps : (n - first) / step * step = n - first := Nat.div_mul_cancel (Nat.dvd_of_mod_eq_zero on)
      have within : (n - first) / step < (last - first) / step + 1 :=
        Nat.lt_succ_of_le (Nat.div_le_div_right (by omega))
      have held := List.all_eq_true.1 each _ (List.mem_range.2 within)
      rw [steps, Nat.add_sub_cancel' above, Bool.and_eq_true] at held
      exact ⟨inRanges_of_coversRange held.1 (le_refl n) (le_refl n), inRanges_of_coversRange held.2 (le_refl _) (le_refl _)⟩
  · simp only [Bool.or_eq_true, Bool.and_eq_true, decide_eq_true_eq] at valid
    rw [Nat.isValidChar]
    omega

theorem letters_of_runImage {runs : List (Nat × Nat × Nat × Nat)} (all : runs.all isCaseRun = true) (n : Nat) :
    runImage runs n = n ∨
      (inRanges letterRanges n = true ∧ inRanges letterRanges (runImage runs n) = true ∧ (runImage runs n).isValidChar) := by
  induction runs with
  | nil => exact .inl rfl
  | cons run runs ih =>
    obtain ⟨first, last, step, image⟩ := run
    rw [List.all_cons, Bool.and_eq_true] at all
    rw [runImage]
    split
    · exact .inl rfl
    · split
      · rename_i late within
        simp only [Bool.and_eq_true, decide_eq_true_eq, beq_iff_eq] at within
        exact .inr (letters_of_isCaseRun all.1 (by omega) within.1 within.2)
      · exact ih all.2

/-- **What folds to another character is a letter, and so is the other one.** -/
theorem isLetter_of_fold (c : Char) : fold c = c ∨ (isLetter c = true ∧ isLetter (fold c) = true) := by
  rcases letters_of_runImage (by decide +kernel : foldRuns.all isCaseRun = true) c.toNat with same | ⟨letter, letter', valid⟩
  · left
    rw [fold, same, Char.ofNat_toNat]
  · right
    refine ⟨letter, ?_⟩
    have code : (fold c).toNat = runImage foldRuns c.toNat := by
      rw [fold, Char.ofNat, dif_pos valid]
      rfl
    rw [isLetter, code]
    exact letter'

theorem isWord_of_isLetter {c : Char} (letter : isLetter c = true) : isWord c = true := by
  rw [isWord, letter]
  rfl

/-- Characters that differ in case only are both word characters or neither. -/
theorem isWord_of_fold_eq {c d : Char} (same : fold c = fold d) (word : isWord c = true) : isWord d = true := by
  rcases isLetter_of_fold d with kept | ⟨letter, -⟩
  · rcases isLetter_of_fold c with kept' | ⟨-, letter⟩
    · rwa [← kept, ← same, kept']
    · rw [same, kept] at letter
      exact isWord_of_isLetter letter
  · exact isWord_of_isLetter letter

/-- The text is a name made of word characters. -/
structure IsWordName (t : Text) : Prop where
  filled : t ≠ []
  word : ∀ c ∈ t, isWord c = true

instance (t : Text) : Decidable (IsWordName t) :=
  decidable_of_iff (t ≠ [] ∧ t.all isWord = true)
    ⟨fun name => ⟨name.1, List.all_eq_true.1 name.2⟩, fun name => ⟨name.filled, List.all_eq_true.2 name.word⟩⟩

/-- A name keeps its word characters in any letter case. -/
theorem IsWordName.of_sameFold {t u : Text} (name : IsWordName t) (same : sameFold t u = true) : IsWordName u := by
  have folded : t.map fold = u.map fold := beq_iff_eq.1 same
  refine ⟨?_, fun d mem => ?_⟩
  · rintro rfl
    exact name.filled (List.map_eq_nil_iff.1 folded)
  · have image : fold d ∈ t.map fold := folded ▸ List.mem_map_of_mem mem
    obtain ⟨c, mem', same⟩ := List.mem_map.1 image
    exact isWord_of_fold_eq same (name.word c mem')

end Text
end QueryCode
