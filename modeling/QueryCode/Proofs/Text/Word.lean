import QueryCode.Proofs.Text.Basic
import QueryCode.Text.Scan

/-!
# Whole words

A word stands in a text when its letters do, in some letter case, and no further word character is next to them. A
whole word never reaches over a place where one of the two neighbours is no word character, so the words of a text
are those of its parts.
-/

namespace QueryCode
set_option autoImplicit false

namespace Text

/-! ## Word characters -/

/-- A code point that folds to one of the letters `a` to `z` is such a letter in either case, the long s or the
Kelvin sign. -/
def foldsToLetter (n : Nat) : Bool := n == 0x17F || n == 0x212A || (65 ≤ n && n ≤ 90) || (97 ≤ n && n ≤ 122)

/-- The run leads to no letter `a` to `z`, or from characters known to fold to one. -/
def isLetterRun : Nat × Nat × Nat × Nat → Bool
  | (first, last, _, image) => 122 < image || (first == last && foldsToLetter first) || (65 ≤ first && last ≤ 90)

theorem foldsToLetter_of_runImage {runs : List (Nat × Nat × Nat × Nat)} (all : runs.all isLetterRun = true) {n : Nat}
    (low : 97 ≤ runImage runs n) (high : runImage runs n ≤ 122) : foldsToLetter n = true := by
  induction runs with
  | nil =>
    rw [runImage] at low high
    simp [foldsToLetter, low, high]
  | cons run runs ih =>
    obtain ⟨first, last, step, image⟩ := run
    rw [List.all_cons, Bool.and_eq_true] at all
    rw [runImage] at low high
    split at low
    · rename_i early
      rw [if_pos early] at high
      simp [foldsToLetter, low, high]
    · rename_i late
      rw [if_neg late] at high
      split at low
      · rename_i within
        rw [if_pos within] at high
        have kind := all.1
        simp only [isLetterRun, Bool.or_eq_true, Bool.and_eq_true, decide_eq_true_eq, beq_iff_eq] at kind within
        rcases kind with (far | ⟨single, letter⟩) | capital
        · omega
        · have same : n = first := by omega
          rw [same]
          exact letter
        · simp only [foldsToLetter, Bool.or_eq_true, Bool.and_eq_true, decide_eq_true_eq, beq_iff_eq]
          omega
      · rename_i without
        rw [if_neg without] at high
        exact ih all.2 low high

/-- The code points that fold to a letter `a` to `z`, one by one. -/
def letterCodes : List Nat := [0x17F, 0x212A] ++ List.range' 65 26 ++ List.range' 97 26

/-- A property of what folds to a letter `a` to `z` is checked for each such character. -/
theorem forall_fold {p : Char → Bool} (check : letterCodes.all (fun n => p (Char.ofNat n)) = true) {c : Char}
    (letter : 97 ≤ (fold c).toNat ∧ (fold c).toNat ≤ 122) : p c = true := by
  have image : (fold c).toNat = runImage foldRuns c.toNat := by
    by_cases valid : (runImage foldRuns c.toNat).isValidChar
    · rw [fold, Char.ofNat, dif_pos valid]
      rfl
    · rw [fold, Char.ofNat, dif_neg valid] at letter
      exact absurd letter (by decide)
  rw [image] at letter
  have code := foldsToLetter_of_runImage (by decide) letter.1 letter.2
  simp only [foldsToLetter, Bool.or_eq_true, Bool.and_eq_true, decide_eq_true_eq, beq_iff_eq] at code
  have listed : c.toNat ∈ letterCodes := by
    simp only [letterCodes, List.mem_append, List.mem_cons, List.not_mem_nil, or_false, List.mem_range'_1]
    omega
  have held := List.all_eq_true.1 check c.toNat listed
  rwa [Char.ofNat_toNat] at held

/-- **Whatever folds to a letter `a` to `z` is a word character.** -/
theorem isWord_of_fold {c : Char} (letter : 97 ≤ (fold c).toNat ∧ (fold c).toNat ≤ 122) : isWord c = true :=
  forall_fold (by decide +kernel) letter

theorem not_isWord_of_isBlank {c : Char} (blank : isBlank c = true) : isWord c = false := by
  have held : (!isWord c) = true := forall_isBlank (p := fun c => !isWord c) (by decide +kernel) blank
  simpa using held

theorem not_isBlank_of_isWord {c : Char} (word : isWord c = true) : isBlank c = false := by
  by_contra blank
  rw [Bool.not_eq_false] at blank
  rw [not_isWord_of_isBlank blank] at word
  cases word

/-- A property of the digits `0` to `9` is checked for each of them. -/
theorem of_isAsciiDigit {p : Char → Bool} (check : "0123456789".toList.all p = true) {c : Char}
    (digit : isAsciiDigit c = true) : p c = true := by
  have range : 48 ≤ c.toNat ∧ c.toNat ≤ 57 := by
    rw [isAsciiDigit, Bool.and_eq_true, decide_eq_true_eq, decide_eq_true_eq] at digit
    exact digit
  have member : (!(48 ≤ c.toNat && c.toNat ≤ 57) || "0123456789".toList.contains c) = true :=
    forall_ascii (p := fun c => !(48 ≤ c.toNat && c.toNat ≤ 57) || "0123456789".toList.contains c) (by decide) (by omega)
  rw [decide_eq_true range.1, decide_eq_true range.2] at member
  exact List.all_eq_true.1 check c (List.contains_iff_mem.1 member)

/-- The word is written in the letters `a` to `z`. -/
def isLowerWord (w : Text) : Bool := !w.isEmpty && w.all fun c => 97 ≤ c.toNat && c.toNat ≤ 122

theorem fold_of_ascii {c : Char} (ascii : c.toNat < 128) : fold c = c.toLower := by
  have held : (fold c == c.toLower) = true := forall_ascii (p := fun c => fold c == c.toLower) (by decide) ascii
  exact eq_of_beq held

theorem fold_of_lower {c : Char} (low : 97 ≤ c.toNat) (high : c.toNat ≤ 122) : fold c = c := by
  have held : (!(97 ≤ c.toNat && c.toNat ≤ 122) || fold c == c) = true :=
    forall_ascii (p := fun c => !(97 ≤ c.toNat && c.toNat ≤ 122) || fold c == c) (by decide) (by omega)
  simpa [low, high] using held

/-- All characters of the text are among the first 128. -/
def isAscii (t : Text) : Bool := t.all fun c => c.toNat < 128

/-- There is no other letter case than that of the letters `a` to `z` where no other letters are. -/
theorem sameFold_ascii {s t : Text} (first : isAscii s = true) (second : isAscii t = true) :
    sameFold s t = sameWord s t := by
  have folded (u : Text) (ascii : isAscii u = true) : u.map fold = lower u := by
    rw [isAscii, List.all_eq_true] at ascii
    exact List.map_congr_left fun c mem => fold_of_ascii (by simpa using ascii c mem)
  rw [sameFold, sameWord, folded s first, folded t second]

theorem length_of_sameFold {w found : Text} (same : sameFold w found = true) : found.length = w.length := by
  have lengths := congrArg List.length (beq_iff_eq.1 same)
  rw [List.length_map, List.length_map] at lengths
  exact lengths.symm

section Words

variable {w : Text} (lower : isLowerWord w = true)
include lower

theorem ne_nil_of_sameFold {found : Text} (same : sameFold w found = true) : found ≠ [] := by
  rintro rfl
  have short := length_of_sameFold same
  rw [isLowerWord, Bool.and_eq_true, Bool.not_eq_true', List.isEmpty_eq_false_iff] at lower
  exact lower.1 (List.length_eq_zero_iff.1 short.symm)

/-- The letters of a word are word characters, in whatever case they are written. -/
theorem isWord_of_sameFold {found : Text} (same : sameFold w found = true) : ∀ c ∈ found, isWord c = true := by
  intro c mem
  have image : fold c ∈ w.map fold := by
    rw [beq_iff_eq.1 same]
    exact List.mem_map_of_mem mem
  obtain ⟨d, part, eq⟩ := List.mem_map.1 image
  rw [isLowerWord, Bool.and_eq_true, List.all_eq_true] at lower
  have range := lower.2 d part
  simp only [Bool.and_eq_true, decide_eq_true_eq] at range
  rw [fold_of_lower range.1 range.2] at eq
  exact isWord_of_fold (eq ▸ range)

theorem head_of_sameFold {found : Text} (same : sameFold w found = true) (after : Text) :
    (found ++ after).head?.any isWord = true := by
  obtain ⟨c, tail, rfl⟩ := List.exists_cons_of_ne_nil (ne_nil_of_sameFold lower same)
  simpa using isWord_of_sameFold lower same c List.mem_cons_self

theorem last_of_sameFold {found : Text} (same : sameFold w found = true) (before : Text) :
    (before ++ found).getLast?.any isWord = true := by
  have filled := ne_nil_of_sameFold lower same
  rw [List.getLast?_append_of_ne_nil _ filled, List.getLast?_eq_some_getLast filled]
  simpa using isWord_of_sameFold lower same _ (List.getLast_mem filled)

end Words

/-! ## Words in a text -/

/-- The word stands at a place between two texts: its letters come next, and no word goes on over their ends. -/
def WordAt (w before rest : Text) : Prop :=
  ∃ found after, rest = found ++ after ∧ sameFold w found = true ∧
    before.getLast?.any isWord = false ∧ after.head?.any isWord = false

/-- The word stands somewhere in the text. -/
def HasWord (w t : Text) : Prop := ∃ before rest, t = before ++ rest ∧ WordAt w before rest

/-- No word goes on from the first text into the second. -/
def Parted (u v : Text) : Prop := u.getLast?.any isWord = false ∨ v.head?.any isWord = false

theorem parted_nil (u : Text) : Parted u [] := .inr rfl

theorem parted_of_head {u v : Text} {c : Char} (edge : isWord c = false) : Parted u (c :: v) := .inr (by simpa using edge)

theorem WordAt.of_before {w before lead rest : Text} (word : WordAt w (before ++ lead) rest) : WordAt w lead rest := by
  obtain ⟨found, after, split, same, left, right⟩ := word
  refine ⟨found, after, split, same, ?_, right⟩
  cases last : lead.getLast? with
  | none => rfl
  | some c =>
    rw [List.getLast?_append, last] at left
    exact left

theorem Parted.of_append {u v rest : Text} (parted : Parted (u ++ v) rest) (solid : v ≠ []) : Parted v rest := by
  rcases parted with left | right
  · left
    rwa [List.getLast?_append_of_ne_nil _ solid] at left
  · exact .inr right

/-- A text of word characters holds no word but itself. -/
theorem HasWord.sameFold {w t : Text} (has : HasWord w t) (whole : ∀ c ∈ t, isWord c = true) :
    sameFold w t = true := by
  obtain ⟨before, rest, rfl, found, after, rfl, same, left, right⟩ := has
  have first : before = [] := by
    cases last : before.getLast? with
    | none => exact List.getLast?_eq_none_iff.1 last
    | some c =>
      rw [last] at left
      rw [Option.any_some, whole c (List.mem_append_left _ (List.mem_of_getLast? last))] at left
      cases left
  have last : after = [] := by
    cases after with
    | nil => rfl
    | cons c after =>
      rw [List.head?_cons, Option.any_some, whole c (by simp)] at right
      cases right
  subst first last
  simpa using same

section Words

variable {w : Text} (lower : isLowerWord w = true)
include lower

/-- There is no word in a text without word characters. -/
theorem not_hasWord_of_edges {t : Text} (empty : t.all (fun c => !isWord c) = true) : ¬ HasWord w t := by
  rintro ⟨before, rest, rfl, found, after, rfl, same, _⟩
  obtain ⟨c, tail, rfl⟩ := List.exists_cons_of_ne_nil (ne_nil_of_sameFold lower same)
  have letter := isWord_of_sameFold lower same c List.mem_cons_self
  have edge := List.all_eq_true.1 empty c (by simp)
  rw [letter] at edge
  cases edge

/-- A word that starts before the end of a text ends there at the latest, unless it goes on from there. -/
theorem WordAt.of_append {before u rest : Text} (word : WordAt w before (u ++ rest)) (filled : u ≠ [])
    (parted : Parted u rest) : WordAt w before u := by
  obtain ⟨found, after, split, same, left, right⟩ := word
  have letters := isWord_of_sameFold lower same
  rcases List.append_eq_append_iff.1 split with ⟨spill, rfl, rfl⟩ | ⟨tail, rfl, rfl⟩
  · -- the letters would go on after the end
    cases spill with
    | nil => exact ⟨u, [], by simp, by simpa using same, left, rfl⟩
    | cons c spill =>
      have last := letters (u.getLast filled) (List.mem_append_left _ (List.getLast_mem filled))
      have next := letters c (by simp)
      rcases parted with edge | edge
      · rw [List.getLast?_eq_some_getLast filled, Option.any_some, last] at edge
        cases edge
      · rw [List.cons_append, List.head?_cons, Option.any_some, next] at edge
        cases edge
  · refine ⟨found, tail, rfl, same, left, ?_⟩
    cases tail with
    | nil => rfl
    | cons c tail => exact right

/-- **The words of a text are those of its parts**, where no word goes on from one part into the other. -/
theorem hasWord_append {u v : Text} (parted : Parted u v) (has : HasWord w (u ++ v)) : HasWord w u ∨ HasWord w v := by
  obtain ⟨before, rest, split, word⟩ := has
  rcases List.append_eq_append_iff.1 split with ⟨lead, rfl, rfl⟩ | ⟨tail, rfl, rfl⟩
  · exact .inr ⟨lead, rest, rfl, word.of_before⟩
  · by_cases empty : tail = []
    · subst empty
      right
      obtain ⟨found, after, eq, same, _, right⟩ := word
      exact ⟨[], v, rfl, found, after, eq, same, rfl, right⟩
    · left
      exact ⟨before, tail, rfl, word.of_append lower empty (parted.of_append empty)⟩

/-- The words of a list are those of its items. -/
theorem hasWord_join {vs : List Text} (has : HasWord w (join ", " vs)) : ∃ v ∈ vs, HasWord w v := by
  induction vs with
  | nil => exact absurd has (not_hasWord_of_edges lower rfl)
  | cons v vs ih =>
    cases vs with
    | nil =>
      rw [join_singleton] at has
      exact ⟨v, List.mem_cons_self, has⟩
    | cons u vs =>
      rw [join_cons_cons] at has
      rcases hasWord_append lower (.inr rfl) has with first | later
      · exact ⟨v, List.mem_cons_self, first⟩
      · rcases hasWord_append lower (.inl (by decide)) later with separator | rest
        · exact absurd separator (not_hasWord_of_edges lower (by decide))
        · obtain ⟨x, mem, has⟩ := ih rest
          exact ⟨x, List.mem_cons_of_mem v mem, has⟩

end Words

end Text
end QueryCode
