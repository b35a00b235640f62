import QueryCode.Proofs.Text.Split
import QueryCode.Proofs.Text.Word

/-!
# What parentheses hold

The inside of a pair of parentheses that match is balanced, and so are its pieces between the commas that stand outside
literals and further parentheses. Nothing but those commas and white space is lost when such a text is split and its
pieces are trimmed.
-/

namespace QueryCode
set_option autoImplicit false

namespace Text

/-! ## The inside of parentheses -/

theorem isClosed_append_left {u v : Text} (closed : isClosed u = true) (apart : Apart u v) :
    isClosed (u ++ v) = isClosed v := by
  rw [isClosed, Walk.run_append (Walk.sound_start 0) apart, isClosed_iff.1 closed, isClosed]

theorem matched_append_left {u v : Text} (balanced : isBalanced u = true) (apart : Apart u v) :
    Walk.matched {} (u ++ v) = Walk.matched {} v := by
  obtain ⟨matched, closed⟩ := isBalanced_iff.1 balanced
  rw [Walk.matched_append (Walk.sound_start 0) apart, matched, isClosed_iff.1 closed, Bool.true_and]

theorem isBalanced_of_append {u v : Text} (balanced : isBalanced (u ++ v) = true) (closed : isClosed u = true)
    (apart : Apart u v) : isBalanced u = true ∧ isBalanced v = true := by
  obtain ⟨matched, both⟩ := isBalanced_iff.1 balanced
  rw [Walk.matched_append (Walk.sound_start 0) apart, isClosed_iff.1 closed, Bool.and_eq_true] at matched
  exact ⟨isBalanced_iff.2 ⟨matched.1, closed⟩, isBalanced_iff.2 ⟨matched.2, isClosed_of_append closed apart both⟩⟩

/-- Where no cell closes the parenthesis around a text, each closing one in it has an opening one before it. -/
theorem Walk.matched_of_cells {w : Walk} {t : Text} (inside : ∀ cell ∈ w.deeper.cells t, closes cell = false) :
    w.matched t = true := by
  induction t generalizing w with
  | nil => rfl
  | cons c t ih =>
    rw [Walk.cells, List.forall_mem_cons] at inside
    have open' : (w == {} && c == ')') = false := by
      rw [← Bool.not_eq_true, Bool.and_eq_true, beq_iff_eq, beq_iff_eq]
      rintro ⟨rfl, rfl⟩
      have shut : closes (Walk.step (Walk.deeper {}) ')' t.head?).1 = true := rfl
      rw [shut] at inside
      cases inside.1
    rw [Walk.step_deeper open'] at inside
    rw [Walk.matched, open', ih inside.2]
    rfl

/-- A parenthesis that closes the one around the walk is met outside all others. -/
theorem Walk.eq_of_closes {w : Walk} {next : Option Char} (closing : closes (w.deeper.step ')' next).1 = true) : w = {} := by
  by_contra other
  have open' : (w == {} && ')' == ')') = false := by rw [beq_eq_false_iff_ne.2 other, Bool.false_and]
  rw [Walk.step_deeper open'] at closing
  simp [closes, Cell.hidden] at closing

/-- **The inside of matching parentheses is balanced.** -/
theorem isBalanced_of_parenBody {body rest : Text} (found : parenBody? ('(' :: body ++ ')' :: rest) = some (body, rest)) :
    isBalanced body = true := by
  have inner : (cells ('(' :: body ++ ')' :: rest)).tail =
      Walk.cells (Walk.deeper {}) body ++ ((Walk.deeper {}).run body).cells (')' :: rest) := by
    have apart : Apart body (')' :: rest) := apart_of_head (by decide)
    exact Walk.cells_append (Walk.sound_start 1) apart
  have front : ((cells ('(' :: body ++ ')' :: rest)).tail).takeWhile (!closes ·) = Walk.cells (Walk.deeper {}) body := by
    have chars : (((cells ('(' :: body ++ ')' :: rest)).tail).takeWhile (!closes ·)).map Cell.char = body := by
      rw [List.cons_append, parenBody?] at found
      split at found
      · cases found
      · exact (Prod.mk.inj (Option.some.inj found)).1
    have start := (List.takeWhile_prefix (!closes ·) (l := (cells ('(' :: body ++ ')' :: rest)).tail))
    have long := congrArg List.length chars
    rw [List.length_map] at long
    rw [inner] at start long ⊢
    have size : (Walk.cells (Walk.deeper {}) body).length = body.length := by
      rw [← List.length_map Cell.char, Walk.map_char_cells]
    exact List.IsPrefix.eq_of_length
      (List.prefix_of_prefix_length_le start (List.prefix_append _ _) (by omega)) (by omega)
  have matched : Walk.matched {} body = true := by
    refine Walk.matched_of_cells fun cell mem => ?_
    rw [← front] at mem
    simpa using List.mem_takeWhile_imp mem
  have stop : closes (((Walk.deeper {}).run body).step ')' rest.head?).1 = true := by
    have split := List.takeWhile_append_dropWhile (p := (!closes ·)) (l := (cells ('(' :: body ++ ')' :: rest)).tail)
    rw [front] at split
    nth_rewrite 2 [inner] at split
    have behind := List.append_cancel_left split
    have first := List.head?_dropWhile_not (!closes ·) ((cells ('(' :: body ++ ')' :: rest)).tail)
    rw [behind, Walk.cells, List.head?_cons] at first
    simpa using first
  rw [Walk.run_deeper matched] at stop
  exact isBalanced_iff.2 ⟨matched, isClosed_iff.2 (Walk.eq_of_closes stop)⟩

/-! ## Pieces -/

/-- How a text splits at the commas outside its literals and parentheses. -/
inductive Pieces : Text → List Text → Prop where
  | last {t : Text} (balanced : isBalanced t = true) (whole : ',' ∉ mask .nested t) : Pieces t [t]
  | more {u t : Text} {pieces : List Text} (balanced : isBalanced u = true) (whole : ',' ∉ mask .nested u)
      (rest : Pieces t pieces) : Pieces (u ++ ',' :: t) (u :: pieces)

theorem Pieces.of_mem {t : Text} {pieces : List Text} (split : Pieces t pieces) :
    ∀ piece ∈ pieces, Text.isBalanced piece = true ∧ ',' ∉ mask .nested piece := by
  induction split with
  | last balanced whole => exact List.forall_mem_singleton.2 ⟨balanced, whole⟩
  | more balanced whole _ ih => exact List.forall_mem_cons.2 ⟨⟨balanced, whole⟩, ih⟩

/-- **A balanced text splits into balanced pieces.** -/
theorem Cuts.pieces {t : Text} {parts : List Text} (cuts : Cuts t parts) (balanced : isBalanced t = true) :
    Pieces t parts := by
  induction cuts with
  | last whole => exact .last balanced whole
  | @more u t parts closed whole _ ih =>
    have comma : Plain [','] := by decide
    obtain ⟨front, back⟩ := isBalanced_of_append balanced closed (apart_of_head (by decide))
    exact .more front whole (ih (isBalanced_of_append (u := [',']) back comma.isClosed comma.apart_left).2)

/-- Splitting a balanced text at its commas gives its pieces without the white space around them. -/
theorem pieces_of_splitTop {t : Text} {values : List Text} (balanced : isBalanced t = true)
    (split : splitTop ',' t = .ok values) : ∃ pieces, Pieces t pieces ∧ values = (pieces.map trim).filter (!·.isEmpty) := by
  obtain ⟨parts, cuts⟩ := exists_cuts t
  rw [cuts.splitTop] at split
  exact ⟨parts, cuts.pieces balanced, (Except.ok.inj split).symm⟩

theorem isBalanced_trim {t : Text} (balanced : isBalanced t = true) : isBalanced (trim t) = true := by
  obtain ⟨lead, trail, before, after, whole⟩ := exists_trim t
  rw [whole] at balanced
  have front := isClosed_of_append_plain (isClosed_of_isBalanced balanced) after.plain
  exact (isBalanced_of_append (isBalanced_of_append balanced front after.plain.apart_right).1 before.plain.isClosed
    before.plain.apart_left).2

/-- Masking and trimming a text that ends outside its literals and parentheses go together. -/
theorem mask_around {t : Text} (cover : Cover) (closed : isClosed t = true) :
    ∃ lead trail, Blank lead ∧ Blank trail ∧ t = lead ++ trim t ++ trail ∧ mask cover t = lead ++ mask cover (trim t) ++ trail := by
  obtain ⟨lead, trail, before, after, whole⟩ := exists_trim t
  refine ⟨lead, trail, before, after, whole, ?_⟩
  have front : isClosed (lead ++ trim t) = true := isClosed_of_append_plain (whole ▸ closed) after.plain
  nth_rewrite 1 [whole]
  rw [mask_append_plain _ front after.plain, mask_plain_append _ before.plain]

/-! ## Words of the pieces -/

theorem HasWord.around {w a v b : Text} (has : HasWord w v) (left : a.getLast?.any isWord = false)
    (right : b.head?.any isWord = false) : HasWord w (a ++ v ++ b) := by
  obtain ⟨before, rest, rfl, found, after, rfl, same, left', right'⟩ := has
  refine ⟨a ++ before, found ++ after ++ b, by simp, found, after ++ b, by simp, same, ?_, ?_⟩
  · cases last : before.getLast? with
    | none => rwa [List.getLast?_append, last, Option.none_or]
    | some c => rwa [List.getLast?_append, last, Option.some_or, ← last]
  · cases after with
    | nil => exact right
    | cons c after => exact right'

theorem Blank.not_isWord_last {t : Text} (blank : Blank t) : t.getLast?.any isWord = false := by
  cases last : t.getLast? with
  | none => rfl
  | some c =>
    have space := blank c (List.mem_of_getLast? last)
    rw [Option.any_some, ← Bool.not_eq_true]
    intro word
    rw [not_isBlank_of_isWord word] at space
    cases space

theorem Blank.not_isWord_head {t : Text} (blank : Blank t) : t.head?.any isWord = false := by
  cases t with
  | nil => rfl
  | cons c t =>
    have space := blank c List.mem_cons_self
    rw [List.head?_cons, Option.any_some, ← Bool.not_eq_true]
    intro word
    rw [not_isBlank_of_isWord word] at space
    cases space

/-- The words of a trimmed text are those of the text. -/
theorem hasWord_trim_iff {w t : Text} (lower : isLowerWord w = true) (closed : isClosed t = true) (cover : Cover) :
    HasWord w (mask cover (trim t)) ↔ HasWord w (mask cover t) := by
  obtain ⟨lead, trail, before, after, _, shown⟩ := mask_around cover closed
  have absent {b : Text} (blank : Blank b) : ¬ HasWord w b := by
    refine not_hasWord_of_edges lower (List.all_eq_true.2 fun c mem => ?_)
    rw [Bool.not_eq_true', ← Bool.not_eq_true]
    intro word
    have space := blank c mem
    rw [not_isBlank_of_isWord word] at space
    cases space
  rw [shown]
  constructor
  · exact fun has => has.around before.not_isWord_last after.not_isWord_head
  · intro has
    rcases hasWord_append lower (.inr after.not_isWord_head) has with front | back
    · rcases hasWord_append lower (.inl before.not_isWord_last) front with lead' | inside
      · exact absurd lead' (absent before)
      · exact inside
    · exact absurd back (absent after)

/-- A word of a piece is a word of the whole text. -/
theorem Pieces.hasWord {t w : Text} {pieces : List Text} {cover : Cover} (split : Pieces t pieces) :
    ∀ piece ∈ pieces, HasWord w (mask cover piece) → HasWord w (mask cover t) := by
  induction split with
  | last =>
    intro piece mem has
    rwa [← List.mem_singleton.1 mem]
  | @more u t pieces balanced _ rest ih =>
    have comma : Plain [','] := by decide
    have shown : mask cover (u ++ ',' :: t) = mask cover u ++ ([','] ++ mask cover t) := by
      rw [mask_append _ (isClosed_of_isBalanced balanced) (apart_of_head (by decide)), ← mask_plain_append _ comma,
        List.singleton_append]
    intro piece mem has
    rw [shown]
    rcases List.mem_cons.1 mem with rfl | later
    · exact has.around (a := []) rfl rfl
    · have inner := (ih piece later has).around (a := mask cover u ++ [',']) (b := []) (by simp; decide) rfl
      rwa [List.append_nil, List.append_assoc] at inner

/-! ## Counting characters -/

theorem count_trim {c : Char} (solid : isBlank c = false) (t : Text) : (trim t).count c = t.count c := by
  obtain ⟨lead, trail, before, after, whole⟩ := exists_trim t
  nth_rewrite 2 [whole]
  rw [List.count_append, List.count_append, List.count_eq_zero_of_not_mem (before.not_mem solid),
    List.count_eq_zero_of_not_mem (after.not_mem solid), Nat.zero_add, Nat.add_zero]

/-- No other character than commas and white space is lost. -/
theorem Pieces.count {t : Text} {pieces : List Text} {c : Char} (split : Pieces t pieces) (other : c ≠ ',')
    (solid : isBlank c = false) : ((pieces.map trim).filter (!·.isEmpty)).flatten.count c = t.count c := by
  rw [List.flatten_filter_not_isEmpty]
  induction split with
  | last => rw [List.map_singleton, List.flatten_singleton, count_trim solid]
  | more _ _ _ ih =>
    rw [List.map_cons, List.flatten_cons, List.count_append, count_trim solid, ih, List.count_append,
      List.count_cons_of_ne (Ne.symm other)]

end Text
end QueryCode
