import QueryCode.Proofs.Text.Basic
import QueryCode.Text.TopLevel

/-!
# Masks of texts put together

The walk over a text depends on one character of lookahead: a quote is doubled only if another one follows. So two
texts can be walked one after the other unless a quote at the end of the first meets the same quote at the start
of the second. Where the first text leaves the walk outside every literal and parenthesis, the mask of the whole is
the masks of the parts, and the clauses of a statement can be looked at one by one.
-/

namespace QueryCode
set_option autoImplicit false

namespace Text

/-! ## The walk over two texts -/

/-- The quote of the literal in which the walk stands. -/
def Mode.quote? : Mode → Option Char
  | .plain => none
  | .quoted q | .escaped q | .doubled q => some q

/-- The walk stands in a literal that a quote opened, or in none. -/
def Walk.Sound (w : Walk) : Prop := ∀ q ∈ w.mode.quote?, isQuote q = true

/-- A quote or a parenthesis. -/
def isMark (c : Char) : Bool := isQuote c || c == '(' || c == ')'

/-- No quote at the start of the second text doubles one at the end of the first. -/
def Apart (u v : Text) : Prop := ∀ c, u.getLast? = some c → v.head? = some c → isQuote c = false

theorem apart_nil (u : Text) : Apart u [] := by
  intro c _ empty
  cases empty

theorem apart_of_head {u v : Text} {c : Char} (plain : isQuote c = false) : Apart u (c :: v) := by
  intro d _ first
  cases first
  exact plain

theorem apart_of_last {u v : Text} {c : Char} (plain : isQuote c = false) : Apart (u ++ [c]) v := by
  intro d last _
  rw [List.getLast?_concat] at last
  cases last
  exact plain

theorem Apart.of_append {u v w : Text} (apart : Apart (u ++ v) w) : Apart v w := by
  intro c last first
  refine apart c ?_ first
  rw [List.getLast?_append, last]
  rfl

namespace Walk

/-- **What one step can do**, with the cell of the character and the state after it. Inside a literal a backslash takes the
next character along, a quote of its kind is doubled or closes it, and all else is held. Outside, a quote opens a literal
and parentheses change the depth. -/
inductive Steps : Walk → Char → Option Char → Cell × Walk → Prop where
  | escaped {q c : Char} {next : Option Char} {depth : Nat} :
      Steps ⟨.escaped q, depth⟩ c next (⟨c, true, decide (0 < depth)⟩, ⟨.quoted q, depth⟩)
  | doubled {q c : Char} {next : Option Char} {depth : Nat} :
      Steps ⟨.doubled q, depth⟩ c next (⟨c, true, decide (0 < depth)⟩, ⟨.quoted q, depth⟩)
  | backslash {q : Char} {next : Option Char} {depth : Nat} :
      Steps ⟨.quoted q, depth⟩ '\\' next (⟨'\\', true, decide (0 < depth)⟩, ⟨.escaped q, depth⟩)
  | doubling {q : Char} {depth : Nat} (slash : q ≠ '\\') :
      Steps ⟨.quoted q, depth⟩ q (some q) (⟨q, true, decide (0 < depth)⟩, ⟨.doubled q, depth⟩)
  | closing {q : Char} {next : Option Char} {depth : Nat} (slash : q ≠ '\\') (single : next ≠ some q) :
      Steps ⟨.quoted q, depth⟩ q next (⟨q, false, decide (0 < depth)⟩, ⟨.plain, depth⟩)
  | held {q c : Char} {next : Option Char} {depth : Nat} (slash : c ≠ '\\') (other : c ≠ q) :
      Steps ⟨.quoted q, depth⟩ c next (⟨c, true, decide (0 < depth)⟩, ⟨.quoted q, depth⟩)
  | opening {c : Char} {next : Option Char} {depth : Nat} (quote : isQuote c = true) :
      Steps ⟨.plain, depth⟩ c next (⟨c, false, decide (0 < depth)⟩, ⟨.quoted c, depth⟩)
  | deeper {next : Option Char} {depth : Nat} :
      Steps ⟨.plain, depth⟩ '(' next (⟨'(', false, decide (0 < depth)⟩, ⟨.plain, depth + 1⟩)
  | shallower {next : Option Char} {depth : Nat} :
      Steps ⟨.plain, depth⟩ ')' next (⟨')', false, decide (0 < depth - 1)⟩, ⟨.plain, depth - 1⟩)
  | plain {c : Char} {next : Option Char} {depth : Nat} (clean : isMark c = false) :
      Steps ⟨.plain, depth⟩ c next (⟨c, false, decide (0 < depth)⟩, ⟨.plain, depth⟩)

/-- What a step can do is what it does. -/
theorem Steps.eq {w : Walk} {c : Char} {next : Option Char} {found : Cell × Walk} (steps : Steps w c next found) :
    w.step c next = found := by
  cases steps with
  | escaped | doubled | backslash | deeper | shallower => rfl
  | doubling slash => simp [step, slash]
  | closing slash single => simp [step, slash, single]
  | held slash other => simp [step, slash, other]
  | opening quote => simp [step, quote]
  | plain clean =>
    simp only [isMark, Bool.or_eq_false_iff] at clean
    simp [step, clean]

/-- Every step is one of these. -/
theorem steps (w : Walk) (c : Char) (next : Option Char) : Steps w c next (w.step c next) := by
  suffices listed : ∃ found, Steps w c next found by
    obtain ⟨found, steps⟩ := listed
    rwa [steps.eq]
  obtain ⟨mode, depth⟩ := w
  cases mode with
  | escaped q => exact ⟨_, .escaped⟩
  | doubled q => exact ⟨_, .doubled⟩
  | quoted q =>
    by_cases slash : c = '\\'
    · subst slash
      exact ⟨_, .backslash⟩
    by_cases same : c = q
    · subst same
      by_cases double : next = some c
      · subst double
        exact ⟨_, .doubling slash⟩
      · exact ⟨_, .closing slash double⟩
    · exact ⟨_, .held slash same⟩
  | plain =>
    by_cases quote : isQuote c = true
    · exact ⟨_, .opening quote⟩
    by_cases left : c = '('
    · subst left
      exact ⟨_, .deeper⟩
    by_cases right : c = ')'
    · subst right
      exact ⟨_, .shallower⟩
    · exact ⟨_, .plain (by simp [isMark, quote, left, right])⟩

theorem step_char (w : Walk) (c : Char) (next : Option Char) : (w.step c next).1.char = c := by
  have steps := w.steps c next
  generalize w.step c next = found at steps ⊢
  cases steps <;> rfl

/-- The walk visits every character once and in order. -/
@[simp] theorem map_char_cells (w : Walk) (t : Text) : (w.cells t).map Cell.char = t := by
  induction t generalizing w with
  | nil => rfl
  | cons c rest ih => rw [cells, List.map_cons, step_char, ih]

theorem sound_start (depth : Nat) : Sound ⟨.plain, depth⟩ := by
  intro q empty
  cases empty

theorem Sound.step {w : Walk} (sound : w.Sound) (c : Char) (next : Option Char) : (w.step c next).2.Sound := by
  have steps := w.steps c next
  generalize w.step c next = found at steps ⊢
  cases steps with
  | escaped | doubled | backslash | doubling | held => exact sound
  | closing | deeper | shallower | plain => exact sound_start _
  | opening quote =>
    rintro q ⟨⟩
    exact quote

/-- A character that shows and is no quote stands outside literals. -/
theorem mode_of_step {w : Walk} (sound : w.Sound) {c : Char} {next : Option Char} (plain : isQuote c = false)
    (seen : (w.step c next).1.quoted = false) : w.mode = .plain := by
  have steps := w.steps c next
  generalize w.step c next = found at steps seen
  cases steps with
  | escaped | doubled | backslash | doubling | held => cases seen
  | closing =>
    rw [sound c rfl] at plain
    cases plain
  | opening | deeper | shallower | plain => rfl

/-- What follows a character matters only to a quote, and there only whether it is the same quote. -/
theorem step_apart {w : Walk} (sound : w.Sound) {c : Char} {next : Option Char}
    (apart : next = some c → isQuote c = false) : w.step c next = w.step c none := by
  refine (Steps.eq ?_).symm
  have steps := w.steps c next
  generalize w.step c next = found at steps ⊢
  cases steps with
  | doubling =>
    have quote : isQuote c = true := sound c rfl
    rw [apart rfl] at quote
    cases quote
  | closing slash => exact .closing slash (by simp)
  | _ => constructor <;> assumption

theorem run_append {w : Walk} (sound : w.Sound) {u v : Text} (apart : Apart u v) :
    w.run (u ++ v) = (w.run u).run v := by
  induction u generalizing w with
  | nil => rfl
  | cons c u ih =>
    cases u with
    | nil =>
      rw [List.cons_append, List.nil_append, run, run, run, List.head?_nil, step_apart sound (apart c rfl)]
    | cons d u =>
      rw [List.cons_append, run, run]
      exact ih (sound.step c _) (apart.of_append (u := [c]))

/-- **The walk over two texts is the walk over the first and then, from where it stopped, over the second.** -/
theorem cells_append {w : Walk} (sound : w.Sound) {u v : Text} (apart : Apart u v) :
    w.cells (u ++ v) = w.cells u ++ (w.run u).cells v := by
  induction u generalizing w with
  | nil => rfl
  | cons c u ih =>
    cases u with
    | nil =>
      rw [List.cons_append, List.nil_append, cells, cells, cells, run, run, List.head?_nil,
        step_apart sound (apart c rfl)]
      rfl
    | cons d u =>
      rw [List.cons_append, cells, cells, run]
      exact congrArg (_ :: ·) (ih (sound.step c _) (apart.of_append (u := [c])))

end Walk

/-! ## Closed texts -/

theorem isClosed_iff {t : Text} : isClosed t = true ↔ Walk.run {} t = {} := beq_iff_eq

theorem isClosed_append {u v : Text} (left : isClosed u = true) (right : isClosed v = true) (apart : Apart u v) :
    isClosed (u ++ v) = true := by
  rw [isClosed_iff] at *
  rw [Walk.run_append (Walk.sound_start 0) apart, left, right]

theorem cells_append {u v : Text} (closed : isClosed u = true) (apart : Apart u v) :
    cells (u ++ v) = cells u ++ cells v := by
  unfold cells
  rw [Walk.cells_append (Walk.sound_start 0) apart, isClosed_iff.1 closed]

/-- **After a closed text the mask starts anew.** -/
theorem mask_append {u v : Text} (cover : Cover) (closed : isClosed u = true) (apart : Apart u v) :
    mask cover (u ++ v) = mask cover u ++ mask cover v := by
  unfold mask
  rw [cells_append closed apart, List.flatMap_append]

/-! ## Text without quotes and parentheses -/

/-- The text has no quote and no parenthesis. -/
def Plain (t : Text) : Prop := ∀ c ∈ t, isMark c = false

instance (t : Text) : Decidable (Plain t) := List.decidableBAll (fun c => isMark c = false) t

@[simp] theorem plain_nil : Plain [] := by
  intro c mem
  cases mem

@[simp] theorem plain_cons {c : Char} {t : Text} : Plain (c :: t) ↔ isMark c = false ∧ Plain t :=
  List.forall_mem_cons

@[simp] theorem plain_append {s t : Text} : Plain (s ++ t) ↔ Plain s ∧ Plain t := by
  simp only [Plain, List.mem_append, or_imp, forall_and]

/-- A class without quotes and parentheses makes plain text. -/
theorem isMark_of_class {p : Char → Bool} (unlisted : ['\'', '"', '(', ')'].any p = false) {c : Char} (member : p c = true) :
    isMark c = false := by
  by_contra mark
  simp only [isMark, isQuote, Bool.not_eq_false, Bool.or_eq_true, beq_iff_eq, or_assoc] at mark
  have listed : c ∈ ['\'', '"', '(', ')'] := by simpa using mark
  exact List.any_eq_false.1 unlisted c listed member

theorem plain_of_class {p : Char → Bool} (unlisted : ['\'', '"', '(', ')'].any p = false) {t : Text}
    (members : ∀ c ∈ t, p c = true) : Plain t := fun c mem => isMark_of_class unlisted (members c mem)

theorem Blank.plain {t : Text} (blank : Blank t) : Plain t := plain_of_class (by decide) blank

theorem isQuote_of_isMark {c : Char} (plain : isMark c = false) : isQuote c = false := by
  simp only [isMark, Bool.or_eq_false_iff] at plain
  exact plain.1.1

theorem Plain.apart_left {u v : Text} (plain : Plain u) : Apart u v := by
  intro c last _
  exact isQuote_of_isMark (plain c (List.mem_of_getLast? last))

theorem Plain.apart_append {u w : Text} (plain : Plain w) (filled : w ≠ []) (v : Text) : Apart (u ++ w) v := by
  intro c last _
  rw [List.getLast?_append_of_ne_nil _ filled] at last
  exact isQuote_of_isMark (plain c (List.mem_of_getLast? last))

theorem Plain.apart_right {u v : Text} (plain : Plain v) : Apart u v := by
  intro c _ first
  exact isQuote_of_isMark (plain c (List.mem_of_head? first))

namespace Walk

theorem step_plain {c : Char} (plain : isMark c = false) (depth : Nat) (next : Option Char) :
    step ⟨.plain, depth⟩ c next = (⟨c, false, decide (0 < depth)⟩, ⟨.plain, depth⟩) := (Steps.plain plain).eq

theorem run_plain {t : Text} (plain : Plain t) (depth : Nat) : run ⟨.plain, depth⟩ t = ⟨.plain, depth⟩ := by
  induction t with
  | nil => rfl
  | cons c t ih =>
    rw [plain_cons] at plain
    rw [run, step_plain plain.1]
    exact ih plain.2

end Walk

theorem Plain.isClosed {t : Text} (plain : Plain t) : isClosed t = true := isClosed_iff.2 (Walk.run_plain plain 0)

/-- Text without quotes and parentheses is its own mask. -/
theorem Plain.mask {t : Text} (plain : Plain t) (cover : Cover) : mask cover t = t := by
  unfold Text.mask cells
  induction t with
  | nil => rfl
  | cons c t ih =>
    rw [plain_cons] at plain
    rw [Walk.cells, Walk.step_plain plain.1, List.flatMap_cons, ih plain.2]
    cases cover <;> rfl

theorem mask_append_plain {u v : Text} (cover : Cover) (closed : isClosed u = true) (plain : Plain v) :
    mask cover (u ++ v) = mask cover u ++ v := by
  rw [mask_append cover closed plain.apart_right, plain.mask]

theorem mask_plain_append {u v : Text} (cover : Cover) (plain : Plain u) :
    mask cover (u ++ v) = u ++ mask cover v := by
  rw [mask_append cover plain.isClosed plain.apart_left, plain.mask]

/-! ## The last character -/

namespace Walk

/-- The step that leaves the last literal or parenthesis is seen. -/
theorem step_shown {w : Walk} {c : Char} {next : Option Char} (leaves : (w.step c next).2 = {}) :
    (w.step c next).1 = ⟨c, false, false⟩ := by
  have steps := w.steps c next
  generalize w.step c next = found at steps leaves ⊢
  cases steps with
  | escaped | doubled | backslash | doubling | held | opening | deeper => cases leaves
  | closing | plain =>
    cases leaves
    rfl
  | @shallower _ depth =>
    have outer : depth - 1 = 0 := congrArg Walk.depth leaves
    rw [outer]
    rfl

/-- The last character of a text that the walk leaves outside is seen. -/
theorem last_cell {w : Walk} {t : Text} {c : Char} (last : t.getLast? = some c) (leaves : w.run t = {}) :
    (w.cells t).getLast? = some ⟨c, false, false⟩ := by
  induction t generalizing w with
  | nil => cases last
  | cons d t ih =>
    cases t with
    | nil =>
      cases last
      rw [cells, step_shown leaves]
      rfl
    | cons e t =>
      rw [cells, List.getLast?_cons, ih (by simpa using last) leaves]
      rfl

end Walk

/-! ## Sizes -/

theorem size_spaces (n : Nat) : size (List.replicate n ' ') = n := by
  induction n with
  | zero => rfl
  | succ n ih =>
    rw [List.replicate_succ, size, ih, show ' '.utf8Size = 1 from rfl]
    omega

theorem Cell.size_shown (cover : Cover) (cell : Cell) : size (cell.shown cover) = cell.char.utf8Size := by
  unfold Cell.shown
  split
  · exact size_spaces _
  · simp [size]

/-- The mask has at least as many characters as the text. -/
theorem length_le_mask (cover : Cover) (t : Text) : t.length ≤ (mask cover t).length := by
  have shown (cell : Cell) : 1 ≤ (cell.shown cover).length := by
    unfold Cell.shown
    split
    · rw [List.length_replicate]
      exact cell.char.utf8Size_pos
    · exact le_refl 1
  have rows (cs : List Cell) : cs.length ≤ (cs.flatMap (Cell.shown cover)).length := by
    induction cs with
    | nil => exact le_refl 0
    | cons cell cs ih =>
      have first := shown cell
      rw [List.flatMap_cons, List.length_append, List.length_cons]
      omega
  have all := rows (cells t)
  have chars : (cells t).length = t.length := by
    rw [← List.length_map Cell.char, cells, Walk.map_char_cells]
  rwa [chars] at all

theorem size_flatMap_shown (cover : Cover) (cs : List Cell) :
    size (cs.flatMap (Cell.shown cover)) = size (cs.map Cell.char) := by
  induction cs with
  | nil => rfl
  | cons cell cs ih => rw [List.flatMap_cons, size_append, ih, List.map_cons, size, Cell.size_shown]

/-- The mask has the length of the text. -/
theorem size_mask (cover : Cover) (t : Text) : size (mask cover t) = size t := by
  rw [mask, size_flatMap_shown, cells, Walk.map_char_cells]

end Text
end QueryCode
