import QueryCode.Proofs.Text.Mask

/-!
# Masks of parts and masks of masks

Slices of a statement are masked again on their own. After a text that the walk leaves outside every literal and
parenthesis the rest is masked as if it stood alone, unless the quote at the end of the one and the quote at the start of
the other make a doubled quote.

Masking a mask changes nothing: the walk over the mask follows the walk over the text. It stands in the same literal and
the same parentheses, but for what is hidden inside parentheses: there the mask has only spaces, and its walk waits behind
the outermost parenthesis. `Walk.shadow` is the state in which it does.
-/

namespace QueryCode
set_option autoImplicit false

namespace Text

/-! ## Places in a text -/

namespace Walk

/-- The state in which the walk over `u` reaches the text `v` behind it. -/
def reach (w : Walk) : Text → Text → Walk
  | [], _ => w
  | c :: u, v => reach (w.step c (u ++ v).head?).2 u v

/-- The walk up to a place depends only on the first character behind the place. -/
theorem exists_front (w : Walk) (u v : Text) :
    ∃ front, ∀ v', v'.head? = v.head? → w.cells (u ++ v') = front ++ (w.reach u v).cells v' := by
  induction u generalizing w with
  | nil => exact ⟨[], fun _ _ => rfl⟩
  | cons c u ih =>
    obtain ⟨front, rest⟩ := ih (w.step c (u ++ v).head?).2
    refine ⟨(w.step c (u ++ v).head?).1 :: front, fun v' same => ?_⟩
    have next : (u ++ v').head? = (u ++ v).head? := by rw [List.head?_append, List.head?_append, same]
    rw [List.cons_append, cells, next, rest v' same]
    rfl

theorem run_reach (w : Walk) (u v : Text) : w.run (u ++ v) = (w.reach u v).run v := by
  induction u generalizing w with
  | nil => rfl
  | cons c u ih => exact ih _

/-- Only from within its literal does a quote lead outside. -/
theorem eq_of_step_quote {w : Walk} {q : Char} (quote : isQuote q = true) {next : Option Char}
    (leaves : (w.step q next).2 = {}) : w = ⟨.quoted q, 0⟩ := by
  have steps := w.steps q next
  generalize w.step q next = found at steps leaves
  cases steps with
  | escaped | doubled | backslash | doubling | held | opening => cases leaves
  | closing =>
    cases leaves
    rfl
  | deeper | shallower => cases quote
  | plain clean =>
    rw [isQuote_of_isMark clean] at quote
    cases quote

end Walk

/-- A quote that meets its like is hidden, though it closes a literal where the text ends with it. -/
theorem mask_append_ne {u v : Text} {q : Char} (cover : Cover) (closed : isClosed (u ++ [q]) = true) (quote : isQuote q = true) :
    mask cover (u ++ [q] ++ q :: v) ≠ mask cover (u ++ [q]) ++ mask cover (q :: v) := by
  obtain ⟨front, rows⟩ := Walk.exists_front {} u [q]
  have stop : Walk.run {} (u ++ [q]) = {} := isClosed_iff.1 closed
  rw [Walk.run_reach] at stop
  have inside : Walk.reach {} u [q] = ⟨.quoted q, 0⟩ := Walk.eq_of_step_quote quote stop
  have slash : q ≠ '\\' := by
    rintro rfl
    cases quote
  have bytes : q.utf8Size = 1 := by
    simp only [isQuote, Bool.or_eq_true, beq_iff_eq] at quote
    rcases quote with rfl | rfl <;> rfl
  have alone := rows [q] rfl
  have both := rows (q :: q :: v) rfl
  rw [inside] at alone both
  have shown : mask cover (u ++ [q]) = front.flatMap (Cell.shown cover) ++ [q] := by
    rw [mask, cells, alone, List.flatMap_append]
    cases cover <;> simp [Walk.cells, Walk.step, slash, Cell.shown, Cell.hidden]
  have step : Walk.step ⟨.quoted q, 0⟩ q (some q) = (⟨q, true, false⟩, ⟨.doubled q, 0⟩) :=
    (Walk.Steps.doubling slash).eq
  have space : Cell.shown cover ⟨q, true, false⟩ = [' '] := by
    cases cover <;> simp [Cell.shown, Cell.hidden, bytes]
  have hidden : mask cover (u ++ [q] ++ q :: v) =
      front.flatMap (Cell.shown cover) ++ ' ' :: (Walk.cells ⟨.doubled q, 0⟩ (q :: v)).flatMap (Cell.shown cover) := by
    rw [List.append_assoc, List.singleton_append, mask, cells, both, List.flatMap_append, Walk.cells, List.flatMap_cons,
      List.head?_cons, step, space, List.singleton_append]
  rw [hidden, shown, List.append_assoc]
  intro same
  have first := (List.cons.inj (List.append_cancel_left same)).1
  rw [← first] at quote
  cases quote

/-- After a closed text the mask starts anew, except where a quote is doubled across the cut. -/
theorem mask_append_iff {u v : Text} (cover : Cover) (closed : isClosed u = true) :
    mask cover (u ++ v) = mask cover u ++ mask cover v ↔ Apart u v := by
  refine ⟨fun same => ?_, mask_append cover closed⟩
  intro q last first
  by_contra quote
  obtain ⟨front, rfl⟩ := List.getLast?_eq_some_iff.1 last
  obtain ⟨rest, rfl⟩ := List.head?_eq_some_iff.1 first
  exact mask_append_ne cover closed (by simpa using quote) same

/-! ## The walk over a mask -/

/-- What either cover hides. -/
def Cover.join : Cover → Cover → Cover
  | .quotes, .quotes => .quotes
  | _, _ => .nested

/-- The mode without the lookahead inside a literal. -/
def Mode.settled : Mode → Mode
  | .plain => .plain
  | .quoted q | .escaped q | .doubled q => .quoted q

/-- Where the walk over the mask stands while the walk over the text stands at `w`. -/
def Walk.shadow (cover : Cover) (w : Walk) : Walk :=
  match cover with
  | .quotes => ⟨w.mode.settled, w.depth⟩
  | .nested => if 0 < w.depth then ⟨.plain, 1⟩ else ⟨w.mode.settled, 0⟩

theorem Cell.shown_space {cell : Cell} (space : cell.char = ' ') (cover : Cover) : cell.shown cover = [' '] := by
  rw [Cell.shown, space]
  split <;> rfl

/-- The first character of a mask is the one of the text or a space. -/
theorem head_flatMap_shown (cover : Cover) (cs : List Cell) :
    (cs.flatMap (Cell.shown cover)).head? = (cs.map Cell.char).head? ∨
      (cs.flatMap (Cell.shown cover)).head? = some ' ' := by
  cases cs with
  | nil => exact .inl rfl
  | cons cell cs =>
    rw [List.flatMap_cons, Cell.shown]
    split
    · obtain ⟨n, bytes⟩ := Nat.exists_eq_succ_of_ne_zero (Nat.ne_of_gt cell.char.utf8Size_pos)
      rw [bytes, List.replicate_succ]
      exact .inr rfl
    · exact .inl rfl

namespace Walk

/-- A quote is no lookahead in the mask where it is none in the text. -/
theorem head_shown_ne {w : Walk} {cover : Cover} {t : Text} {q : Char} (quote : isQuote q = true)
    (single : t.head? ≠ some q) : ((w.cells t).flatMap (Cell.shown cover)).head? ≠ some q := by
  rcases head_flatMap_shown cover (w.cells t) with same | space
  · rw [same, map_char_cells]
    exact single
  · rw [space]
    rintro ⟨⟩
    cases quote

theorem Sound.shadow {w : Walk} (sound : w.Sound) (cover : Cover) : (w.shadow cover).Sound := by
  have settled (depth : Nat) : Sound ⟨w.mode.settled, depth⟩ := by
    obtain ⟨mode, _⟩ := w
    cases mode with
    | plain => exact sound_start depth
    | quoted q => exact sound
    | escaped q => exact sound
    | doubled q => exact sound
  cases cover with
  | quotes => exact settled _
  | nested =>
    unfold Walk.shadow
    dsimp only
    split
    · exact sound_start 1
    · exact settled 0

/-- A space leaves the walk over a mask where it is. -/
theorem step_space {w : Walk} (sound : w.Sound) (cover : Cover) (next : Option Char) :
    ((w.shadow cover).step ' ' next).2 = w.shadow cover := by
  have shadowed := sound.shadow cover
  have settled : (w.shadow cover).mode = .plain ∨ ∃ q, (w.shadow cover).mode = .quoted q := by
    have mode : w.mode.settled = .plain ∨ ∃ q, w.mode.settled = .quoted q := by
      cases w.mode <;> simp [Mode.settled]
    unfold Walk.shadow
    split
    · exact mode
    · split
      · exact .inl rfl
      · exact mode
  generalize w.shadow cover = s at shadowed settled
  obtain ⟨mode, depth⟩ := s
  rcases settled with rfl | ⟨q, rfl⟩
  · rw [step_plain (by decide)]
  · have other : q ≠ ' ' := by
      rintro rfl
      exact absurd (shadowed ' ' rfl) (by decide)
    rw [(Steps.held (by decide) other.symm).eq]

/-- Spaces show as spaces in the mask of a mask. -/
theorem shown_spaces {w : Walk} (sound : w.Sound) (inner outer : Cover) (n : Nat) (t : Text) :
    ((w.shadow inner).cells (List.replicate n ' ' ++ t)).flatMap (Cell.shown outer) =
      List.replicate n ' ' ++ ((w.shadow inner).cells t).flatMap (Cell.shown outer) := by
  induction n with
  | zero => rfl
  | succ n ih =>
    rw [List.replicate_succ, List.cons_append, cells, List.flatMap_cons, Cell.shown_space (step_char _ _ _),
      step_space sound, ih]
    rfl

/-- Over a hidden character the walk over the mask stays where it is. -/
theorem shadow_of_hidden {w : Walk} {c : Char} {next : Option Char} {cover : Cover}
    (hidden : (w.step c next).1.hidden cover = true) : (w.step c next).2.shadow cover = w.shadow cover := by
  have steps := w.steps c next
  generalize w.step c next = found at steps hidden ⊢
  cases steps with
  | escaped | doubled | backslash | doubling | held => cases cover <;> rfl
  | plain => rfl
  | @closing _ _ depth | @opening _ _ depth | @deeper _ depth =>
    cases cover with
    | quotes => cases hidden
    | nested =>
      have deep : 0 < depth := of_decide_eq_true hidden
      simp [Walk.shadow, deep]
  | @shallower _ depth =>
    cases cover with
    | quotes => cases hidden
    | nested =>
      have deep : 0 < depth - 1 := of_decide_eq_true hidden
      have around : 0 < depth := by omega
      simp [Walk.shadow, deep, around]

/-- Where a character shows that changes no depth, only the lookahead tells the two walks apart. -/
theorem shadow_of_seen {c : Char} {quoted : Bool} {depth : Nat} {cover : Cover}
    (seen : Cell.hidden cover ⟨c, quoted, decide (0 < depth)⟩ = false) (mode : Mode) :
    shadow cover ⟨mode, depth⟩ = ⟨mode.settled, depth⟩ := by
  cases cover with
  | quotes => rfl
  | nested =>
    have open' : ¬ 0 < depth := of_decide_eq_false (Bool.or_eq_false_iff.1 seen).2
    obtain rfl : depth = 0 := by omega
    rfl

/-- A character that shows moves the walk over the mask as it moves the walk over the text. -/
theorem step_shadow {w : Walk} (sound : w.Sound) {c : Char} {next next' : Option Char} {cover : Cover}
    (seen : (w.step c next).1.hidden cover = false)
    (alike : ∀ q, isQuote q = true → next ≠ some q → next' ≠ some q) :
    (w.shadow cover).step c next' = ((w.step c next).1, (w.step c next).2.shadow cover) := by
  refine Steps.eq ?_
  have steps := w.steps c next
  generalize w.step c next = found at steps seen ⊢
  cases steps with
  | escaped | doubled | backslash | doubling | held => cases cover <;> cases seen
  | closing slash single =>
    rw [shadow_of_seen seen, shadow_of_seen seen]
    exact .closing slash (alike c (sound c rfl) single)
  | opening quote =>
    rw [shadow_of_seen seen, shadow_of_seen seen]
    exact .opening quote
  | plain clean =>
    rw [shadow_of_seen seen]
    exact .plain clean
  | @deeper _ depth =>
    cases cover with
    | quotes => exact .deeper
    | nested =>
      have open' : ¬ 0 < depth := of_decide_eq_false seen
      obtain rfl : depth = 0 := by omega
      exact .deeper
  | @shallower _ depth =>
    cases cover with
    | quotes => exact .shallower
    | nested =>
      -- it closes the outermost parenthesis, or none
      have outer : ¬ 0 < depth - 1 := of_decide_eq_false seen
      obtain rfl | rfl : depth = 0 ∨ depth = 1 := by omega
      · exact .shallower
      · exact .shallower

/-- **The walk over a mask follows the walk over the text.** -/
theorem shown_shadow {w : Walk} (sound : w.Sound) (inner outer : Cover) (t : Text) :
    ((w.shadow inner).cells ((w.cells t).flatMap (Cell.shown inner))).flatMap (Cell.shown outer) =
      (w.cells t).flatMap (Cell.shown (outer.join inner)) := by
  induction t generalizing w with
  | nil => rfl
  | cons c t ih =>
    have rest := ih (sound.step c t.head?)
    rw [cells, List.flatMap_cons, List.flatMap_cons, ← rest]
    by_cases hidden : (w.step c t.head?).1.hidden inner = true
    · have both : (w.step c t.head?).1.hidden (outer.join inner) = true := by
        cases outer <;> cases inner
        · exact hidden
        · exact hidden
        · exact Bool.or_eq_true_iff.2 (.inl hidden)
        · exact hidden
      rw [Cell.shown, if_pos hidden, Cell.shown, if_pos both, shown_spaces sound, shadow_of_hidden hidden]
    · have seen : (w.step c t.head?).1.hidden inner = false := by simpa using hidden
      have outerOnly : (w.step c t.head?).1.shown (outer.join inner) = (w.step c t.head?).1.shown outer := by
        cases outer <;> cases inner
        · rfl
        · -- nothing that shows outside parentheses is hidden with the literals alone
          simp only [Cell.hidden, Bool.or_eq_false_iff] at seen
          simp [Cell.shown, Cell.hidden, Cover.join, seen]
        · rfl
        · rfl
      have shown : (w.step c t.head?).1.shown inner = [c] := by
        rw [Cell.shown, seen, step_char]
        rfl
      have alike : ∀ q, isQuote q = true → t.head? ≠ some q →
          (((w.step c t.head?).2.cells t).flatMap (Cell.shown inner)).head? ≠ some q :=
        fun q quote single => head_shown_ne quote single
      have step := step_shadow sound seen alike
      rw [shown, List.singleton_append, cells, List.flatMap_cons, step, outerOnly]

end Walk

theorem mask_mask (outer inner : Cover) (t : Text) : mask outer (mask inner t) = mask (outer.join inner) t := by
  have shadow : Walk.shadow inner {} = {} := by cases inner <;> rfl
  have both := Walk.shown_shadow (Walk.sound_start 0) inner outer t
  rwa [shadow] at both

/-- **At a cut behind a closed text the masks of the parts make up the mask of the whole**, unless the quote that closes the
last literal of the one starts the other, **and masking twice hides what either mask hides.** -/
theorem mask_composes :
    (∀ cover u v, isClosed u = true → (mask cover (u ++ v) = mask cover u ++ mask cover v ↔ Apart u v)) ∧
      ∀ t, mask .nested (mask .nested t) = mask .nested t ∧ mask .quotes (mask .quotes t) = mask .quotes t ∧
        mask .nested (mask .quotes t) = mask .nested t ∧ mask .quotes (mask .nested t) = mask .nested t :=
  ⟨fun cover _ _ closed => mask_append_iff cover closed, fun t =>
    ⟨mask_mask .nested .nested t, mask_mask .quotes .quotes t, mask_mask .nested .quotes t, mask_mask .quotes .nested t⟩⟩

/-- A cut behind a literal, and the same cut where a quote follows. -/
theorem mask_composes_literal :
    let u := "f('a)') = 'b'".toList
    isClosed u = true ∧ mask .nested (u ++ " OR 'c'".toList) = mask .nested u ++ mask .nested " OR 'c'".toList ∧
      mask .nested (u ++ "'c'".toList) ≠ mask .nested u ++ mask .nested "'c'".toList := by
  intro u
  have closed : isClosed u = true := by decide
  refine ⟨closed, (mask_composes.1 .nested u _ closed).2 (apart_of_head (c := ' ') (by decide)), fun same => ?_⟩
  have apart := (mask_composes.1 .nested u "'c'".toList closed).1 same
  exact absurd (apart '\'' rfl rfl) (by decide)

end Text
end QueryCode
