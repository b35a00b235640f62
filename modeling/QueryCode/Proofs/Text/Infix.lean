import QueryCode.Proofs.Ensures
import QueryCode.Proofs.Text.Mask
import QueryCode.Text.Mark
import QueryCode.Text.TopLevel

/-!
# What is cut out of a text

Slices, trimmed texts, the items of a list, the words of a text and the hits of a scan are all parts of the text they
come from, with their characters side by side as they were.
-/

namespace QueryCode
set_option autoImplicit false

namespace Text

theorem infix_slice {a b : Nat} {t x : Text} (sliced : slice a b t = .ok x) : x <:+: t := by
  unfold slice at sliced
  split at sliced
  · cases sliced
  · rename_i before after split
    split at sliced
    · cases sliced
    · rename_i lead found split'
      cases sliced
      rw [cut_append split, cut_append split']
      exact ⟨lead, after, rfl⟩

theorem infix_trim (t : Text) : trim t <:+: t := by
  obtain ⟨lead, trail, -, -, whole⟩ := exists_trim t
  exact ⟨lead, trail, whole.symm⟩

theorem infix_rdropWhile (p : Char → Bool) (t : Text) : (t.reverse.dropWhile p).reverse <:+: t := by
  have suffix := (List.dropWhile_suffix p : t.reverse.dropWhile p <:+ t.reverse)
  have start := List.reverse_prefix.2 suffix
  rw [List.reverse_reverse] at start
  exact start.isInfix

/-- What stands behind the first character that is not dropped. -/
theorem infix_of_dropWhile {p : Char → Bool} {t rest : Text} {c : Char} (tail : t.dropWhile p = c :: rest) :
    rest <:+: t := by
  have suffix : c :: rest <:+ t := tail ▸ List.dropWhile_suffix p
  exact ((List.suffix_cons c rest).trans suffix).isInfix

theorem infix_stripBackticks (t : Text) : stripBackticks t <:+: t :=
  (infix_rdropWhile _ _).trans (List.dropWhile_suffix _).isInfix

theorem infix_slicesAt (width start : Nat) (t : Text) (stops : List Nat) :
    Ensures (slicesAt width t start stops) fun parts => ∀ part ∈ parts, part <:+: t := by
  have slices (start stop : Nat) : Ensures (slice start stop t) (· <:+: t) := fun _ sliced => infix_slice sliced
  induction stops generalizing start with
  | nil => exact (slices _ _).bind fun part within => ensures_pure (List.forall_mem_singleton.2 within)
  | cons stop stops ih =>
    refine (slices _ _).bind fun part within => (ih _).bind fun parts all => ensures_pure ?_
    exact List.forall_mem_cons.2 ⟨within, all⟩

theorem infix_splitTop {sep : Char} {t : Text} {parts : List Text} (split : splitTop sep t = .ok parts) :
    ∀ part ∈ parts, part <:+: t := by
  have all : Ensures (splitTop sep t) fun parts => ∀ part ∈ parts, part <:+: t := by
    refine (infix_slicesAt _ 0 t _).bind fun pieces within => ensures_pure ?_
    intro part mem
    obtain ⟨piece, member, rfl⟩ := List.mem_map.1 (List.mem_filter.1 mem).1
    exact (infix_trim piece).trans (within piece member)
  exact all parts split

theorem infix_words (t : Text) : ∀ word ∈ words t, word <:+: t := by
  have collect (rest held : Text) : ∀ word ∈ words.go rest held, word <:+: held.reverse ++ rest := by
    induction rest generalizing held with
    | nil =>
      intro word mem
      rw [words.go] at mem
      split at mem
      · cases mem
      · have whole : word = held.reverse ++ [] := by rw [List.mem_singleton.1 mem, List.append_nil]
        exact whole ▸ List.infix_rfl
    | cons c rest ih =>
      intro word mem
      have skip : rest <:+: held.reverse ++ c :: rest := ⟨held.reverse ++ [c], [], by simp⟩
      rw [words.go] at mem
      split at mem
      · split at mem
        · exact (ih [] word mem).trans skip
        · rcases List.mem_cons.1 mem with rfl | later
          · exact (List.prefix_append _ _).isInfix
          · exact (ih [] word later).trans skip
      · have found := ih (c :: held) word mem
        rwa [List.reverse_cons, List.append_assoc] at found
  exact collect t []

/-- What a scan finds in a text and the characters between are the text. -/
theorem mapHits_mark (p : Scan Unit) (t : Text) : mapHits id (mark p t) = t := by
  -- the cells that are skipped belong to the hit before
  have parts : ∀ skip last (cells : List Cell),
      mapHits id (markCells p skip last cells) = (cells.drop skip).map Cell.char := by
    intro skip last cells
    fun_induction markCells p skip last cells with
    | case1 skip last => rw [List.drop_nil]; rfl
    | case2 skip last cell rest ih => rw [ih, List.drop_succ_cons]
    | case3 last cell rest found part ih =>
      rw [mapHits, List.flatMap_cons, ← mapHits, ih, List.drop_zero]
      by_cases empty : found = 0
      · simp [part, empty]
      · obtain ⟨more, more_eq⟩ := Nat.exists_eq_succ_of_ne_zero empty
        simp [part, more_eq, List.take_append_drop]
  rw [mark, parts, List.drop_zero, cells, Walk.map_char_cells]

theorem infix_hits {parts : List Part} {hit : Text} (found : hit ∈ hits parts) : hit <:+: mapHits id parts := by
  induction parts with
  | nil => cases found
  | cons part parts ih =>
    have rest : mapHits id parts <:+: mapHits id (part :: parts) := by
      rw [mapHits, mapHits, List.flatMap_cons]
      exact (List.suffix_append _ _).isInfix
    cases part with
    | plain c => exact (ih found).trans rest
    | hit first =>
      rcases List.mem_cons.1 found with rfl | later
      · exact (List.prefix_append _ _).isInfix
      · exact (ih later).trans rest

end Text
end QueryCode
