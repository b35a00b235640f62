import QueryCode.Proofs.Text.Mask

/-!
# Parentheses that match, and lists

The inside of parentheses is found at their full width when its literals are closed and its own parentheses match,
and then the mask shows only spaces between them. A list of such texts is again one, and a separator that shows in its
mask ends the piece before it.
-/

namespace QueryCode
set_option autoImplicit false

namespace Text

/-! ## Parentheses -/

/-- The parentheses and what they hold are all that is taken. -/
theorem parenBody_append {t body rest : Text} (found : parenBody? t = some (body, rest)) :
    t = '(' :: body ++ ')' :: rest := by
  unfold parenBody? at found
  split at found
  · rename_i inside
    have chars : ((cells ('(' :: inside)).tail).map Cell.char = inside := by
      rw [List.map_tail, cells, Walk.map_char_cells]
      rfl
    have parts := List.takeWhile_append_dropWhile (p := (!closes ·)) (l := (cells ('(' :: inside)).tail)
    dsimp only at found
    split at found
    · cases found
    · rename_i close after dropped
      cases found
      rw [dropped] at parts
      have shown : closes close = true := by
        have stopped := List.head?_dropWhile_not (!closes ·) (cells ('(' :: inside)).tail
        rw [dropped] at stopped
        simpa using stopped
      have char : close.char = ')' := by
        simp only [closes, Bool.and_eq_true, beq_iff_eq] at shown
        exact shown.2
      have whole : inside = ((cells ('(' :: inside)).tail.takeWhile (!closes ·)).map Cell.char
          ++ ')' :: after.map Cell.char := by
        calc inside = ((cells ('(' :: inside)).tail).map Cell.char := chars.symm
          _ = ((cells ('(' :: inside)).tail.takeWhile (!closes ·) ++ close :: after).map Cell.char := by rw [parts]
          _ = _ := by rw [List.map_append, List.map_cons, char]
      exact congrArg ('(' :: ·) whole
  · cases found


/-- Every closing parenthesis that the walk meets outside literals has an opening one before it. -/
def Walk.matched (w : Walk) : Text → Bool
  | [] => true
  | c :: rest => !(w == {} && c == ')') && matched (w.step c rest.head?).2 rest

/-- The literals of the text are closed, and its parentheses match. -/
def isBalanced (t : Text) : Bool := Walk.matched {} t && isClosed t

namespace Walk

/-- The walk with one more parenthesis around it. -/
def deeper (w : Walk) : Walk := { w with depth := w.depth + 1 }

theorem matched_append {w : Walk} (sound : w.Sound) {u v : Text} (apart : Apart u v) :
    w.matched (u ++ v) = (w.matched u && (w.run u).matched v) := by
  induction u generalizing w with
  | nil => rfl
  | cons c u ih =>
    cases u with
    | nil =>
      rw [List.cons_append, List.nil_append, matched, matched, matched, run, run, List.head?_nil,
        step_apart sound (apart c rfl), Bool.and_true]
    | cons d u =>
      rw [List.cons_append, matched, matched, run, Bool.and_assoc]
      exact congrArg (_ && ·) (ih (sound.step c _) (apart.of_append (u := [c])))

theorem matched_plain {t : Text} (plain : Plain t) (depth : Nat) : matched ⟨.plain, depth⟩ t = true := by
  induction t with
  | nil => rfl
  | cons c t ih =>
    rw [plain_cons] at plain
    have other : (c == ')') = false := by
      have parts := plain.1
      simp only [isMark, Bool.or_eq_false_iff] at parts
      exact parts.2
    rw [matched, step_plain plain.1, ih plain.2, other, Bool.and_false]
    rfl

/-- Inside one more parenthesis every character is enclosed, and the walk is the same otherwise. -/
theorem step_deeper {w : Walk} {c : Char} (matched : (w == {} && c == ')') = false) (next : Option Char) :
    w.deeper.step c next = ({ (w.step c next).1 with enclosed := true }, (w.step c next).2.deeper) := by
  refine Steps.eq ?_
  have steps := w.steps c next
  generalize w.step c next = found at steps ⊢
  cases steps with
  | @shallower _ depth =>
    -- the parenthesis that it closes was opened before, so there are two around it
    cases depth with
    | zero => exact absurd matched (by decide)
    | succ depth => exact .shallower
  | _ => constructor <;> assumption

theorem run_deeper {w : Walk} {t : Text} (matched : w.matched t = true) : w.deeper.run t = (w.run t).deeper := by
  induction t generalizing w with
  | nil => rfl
  | cons c t ih =>
    rw [Walk.matched, Bool.and_eq_true, Bool.not_eq_true'] at matched
    rw [run, run, step_deeper matched.1]
    exact ih matched.2

/-- Inside one more parenthesis every closing one has an opening one before it. -/
theorem matched_deeper {w : Walk} {t : Text} (matched : w.matched t = true) : w.deeper.matched t = true := by
  induction t generalizing w with
  | nil => rfl
  | cons c t ih =>
    rw [Walk.matched, Bool.and_eq_true, Bool.not_eq_true'] at matched
    have deep : (w.deeper == {}) = false := by
      rw [beq_eq_false_iff_ne]
      exact fun same => Nat.succ_ne_zero _ (congrArg Walk.depth same)
    rw [Walk.matched, step_deeper matched.1, deep, Bool.false_and, ih matched.2]
    rfl

theorem cells_deeper {w : Walk} {t : Text} (matched : w.matched t = true) :
    w.deeper.cells t = (w.cells t).map fun cell => { cell with enclosed := true } := by
  induction t generalizing w with
  | nil => rfl
  | cons c t ih =>
    rw [Walk.matched, Bool.and_eq_true, Bool.not_eq_true'] at matched
    rw [cells, cells, step_deeper matched.1, List.map_cons]
    exact congrArg (_ :: ·) (ih matched.2)

end Walk

theorem isBalanced_iff {t : Text} : isBalanced t = true ↔ Walk.matched {} t = true ∧ isClosed t = true :=
  Bool.and_eq_true_iff

theorem isClosed_of_isBalanced {t : Text} (balanced : isBalanced t = true) : isClosed t = true :=
  (isBalanced_iff.1 balanced).2

theorem Plain.isBalanced {t : Text} (plain : Plain t) : isBalanced t = true :=
  isBalanced_iff.2 ⟨Walk.matched_plain plain 0, plain.isClosed⟩

theorem isBalanced_append {u v : Text} (left : isBalanced u = true) (right : isBalanced v = true) (apart : Apart u v) :
    isBalanced (u ++ v) = true := by
  rw [isBalanced_iff] at *
  have matched : Walk.matched {} (u ++ v) = true := by
    rw [Walk.matched_append (Walk.sound_start 0) apart, isClosed_iff.1 left.2, left.1, right.1]
    rfl
  exact ⟨matched, isClosed_append left.2 right.2 apart⟩

/-- The cells of balanced text in parentheses, and of what follows them. -/
theorem cells_parens {body rest : Text} (balanced : isBalanced body = true) :
    cells ('(' :: body ++ ')' :: rest) =
      ⟨'(', false, false⟩ :: ((cells body).map fun cell => { cell with enclosed := true }) ++
        ⟨')', false, false⟩ :: cells rest := by
  obtain ⟨matched, closed⟩ := isBalanced_iff.1 balanced
  have inside : Walk.cells ⟨.plain, 1⟩ (body ++ ')' :: rest) =
      ((cells body).map fun cell => { cell with enclosed := true }) ++ ⟨')', false, false⟩ :: cells rest := by
    have stop : Walk.run ⟨.plain, 1⟩ body = ⟨.plain, 1⟩ := by
      have deep := Walk.run_deeper matched
      rw [isClosed_iff.1 closed] at deep
      exact deep
    rw [Walk.cells_append (Walk.sound_start 1) (apart_of_head (by decide)), stop]
    exact congrArg (· ++ _) (Walk.cells_deeper matched)
  exact congrArg (_ :: ·) inside

/-- **The inside of parentheses is balanced text, and all of it.** -/
theorem parenBody_of_isBalanced {body rest : Text} (balanced : isBalanced body = true) :
    parenBody? ('(' :: body ++ ')' :: rest) = some (body, rest) := by
  have open' : ∀ cell ∈ (cells body).map fun cell => { cell with enclosed := true }, (!closes cell) = true := by
    intro cell mem
    obtain ⟨inner, _, rfl⟩ := List.mem_map.1 mem
    simp [closes, Cell.hidden]
  have chars : ∀ t : Text, (cells t).map Cell.char = t := Walk.map_char_cells {}
  have closing : (!closes ⟨')', false, false⟩) = false := rfl
  simp only [parenBody?, List.cons_append]
  rw [← List.cons_append, cells_parens balanced, List.cons_append, List.tail_cons,
    List.takeWhile_append_of_pos open', List.dropWhile_append_of_pos open', List.takeWhile_cons_of_neg (by simp [closing]),
    List.dropWhile_cons_of_neg (by simp [closing])]
  simp only [List.append_nil, List.map_map]
  rw [chars rest]
  exact congrArg (fun body => some (body, rest)) (chars body)

/-- Between parentheses the mask shows a space for each byte. -/
theorem mask_parens {body rest : Text} (balanced : isBalanced body = true) :
    mask .nested ('(' :: body ++ ')' :: rest) =
      '(' :: List.replicate (size body) ' ' ++ ')' :: mask .nested rest := by
  have spaces : ∀ cs : List Cell,
      (cs.map fun cell => { cell with enclosed := true }).flatMap (Cell.shown .nested) =
        List.replicate (size (cs.map Cell.char)) ' ' := by
    intro cs
    induction cs with
    | nil => rfl
    | cons cell cs ih =>
      rw [List.map_cons, List.flatMap_cons, ih, List.map_cons, size, List.replicate_add]
      simp [Cell.shown, Cell.hidden]
  unfold mask
  rw [cells_parens balanced, List.cons_append, List.flatMap_cons, List.flatMap_append, List.flatMap_cons, spaces, cells,
    Walk.map_char_cells]
  rfl

theorem isBalanced_parens {body : Text} (balanced : isBalanced body = true) :
    isBalanced ('(' :: body ++ [')']) = true := by
  obtain ⟨matched, closed⟩ := isBalanced_iff.1 balanced
  have stop : Walk.run ⟨.plain, 1⟩ body = ⟨.plain, 1⟩ := by
    have deep := Walk.run_deeper matched
    rw [isClosed_iff.1 closed] at deep
    exact deep
  have inside : Walk.matched ⟨.plain, 1⟩ body = true := Walk.matched_deeper matched
  have apart : Apart body [')'] := apart_of_head (by decide)
  rw [isBalanced_iff, isClosed_iff]
  constructor
  · change Walk.matched ⟨.plain, 1⟩ (body ++ [')']) = true
    rw [Walk.matched_append (Walk.sound_start 1) apart, inside, stop]
    rfl
  · change Walk.run ⟨.plain, 1⟩ (body ++ [')']) = {}
    rw [Walk.run_append (Walk.sound_start 1) apart, stop]
    rfl

/-! ## Lists -/

theorem mask_join {vs : List Text} (closed : ∀ v ∈ vs, isClosed v = true) (cover : Cover) :
    mask cover (join ", " vs) = join ", " (vs.map (mask cover)) := by
  induction vs with
  | nil => rfl
  | cons v vs ih =>
    rw [List.forall_mem_cons] at closed
    cases vs with
    | nil => rw [List.map_singleton, join_singleton, join_singleton]
    | cons w vs =>
      have separator : Plain ", ".toList := by decide
      have apart : Apart v (", ".toList ++ join ", " (w :: vs)) := apart_of_head (c := ',') (by decide)
      rw [join_cons_cons, mask_append cover closed.1 apart, mask_plain_append cover separator, ih closed.2]
      exact (join_cons_cons _ _ _ _).symm

theorem isClosed_join {vs : List Text} (closed : ∀ v ∈ vs, isClosed v = true) : isClosed (join ", " vs) = true := by
  induction vs with
  | nil => rfl
  | cons v vs ih =>
    rw [List.forall_mem_cons] at closed
    cases vs with
    | nil =>
      rw [join_singleton]
      exact closed.1
    | cons w vs =>
      have separator : Plain ", ".toList := by decide
      have rest := isClosed_append separator.isClosed (ih closed.2) separator.apart_left
      rw [join_cons_cons]
      exact isClosed_append closed.1 rest (apart_of_head (c := ',') (by decide))

theorem isBalanced_join {vs : List Text} (balanced : ∀ v ∈ vs, isBalanced v = true) :
    isBalanced (join ", " vs) = true := by
  induction vs with
  | nil => rfl
  | cons v vs ih =>
    rw [List.forall_mem_cons] at balanced
    cases vs with
    | nil =>
      rw [join_singleton]
      exact balanced.1
    | cons w vs =>
      have separator : Plain ", ".toList := by decide
      have rest := isBalanced_append separator.isBalanced (ih balanced.2) separator.apart_left
      rw [join_cons_cons]
      exact isBalanced_append balanced.1 rest (apart_of_head (c := ',') (by decide))

/-- The separator shows at the cell. -/
def shows (sep : Char) (cell : Cell) : Bool := !cell.hidden .nested && cell.char == sep

/-- A character other than a space is in the mask exactly where one of the cells shows it. -/
theorem mem_mask_iff {sep : Char} (solid : sep ≠ ' ') {t : Text} :
    sep ∈ mask .nested t ↔ ∃ cell ∈ cells t, shows sep cell = true := by
  rw [mask, List.mem_flatMap]
  refine exists_congr fun cell => and_congr_right fun _ => ?_
  by_cases hidden : cell.hidden .nested = true
  · simp [Cell.shown, shows, hidden, solid]
  · rw [Bool.not_eq_true] at hidden
    simp only [Cell.shown, shows, hidden, Bool.false_eq_true, if_false, List.mem_singleton, Bool.not_false, Bool.true_and,
      beq_iff_eq]
    exact eq_comm

/-- The last character of a text that ends outside literals and parentheses is seen in its mask. -/
theorem last_mem_mask {t : Text} {c : Char} (solid : c ≠ ' ') (last : t.getLast? = some c) (closed : isClosed t = true) :
    c ∈ mask .nested t := by
  refine (mem_mask_iff solid).2 ⟨⟨c, false, false⟩, List.mem_of_getLast? (Walk.last_cell last (isClosed_iff.1 closed)), ?_⟩
  simp [shows, Cell.hidden]

/-- The texts between the cells at which the separator shows. -/
def splitCells (sep : Char) : List Cell → List Text
  | [] => [[]]
  | cell :: rest =>
    if shows sep cell then [] :: splitCells sep rest
    else
      match splitCells sep rest with
      | [] => [[cell.char]]
      | part :: parts => (cell.char :: part) :: parts

theorem splitCells_shown {sep : Char} {cell : Cell} (shown : shows sep cell = true) (rest : List Cell) :
    splitCells sep (cell :: rest) = [] :: splitCells sep rest := if_pos shown

theorem splitCells_hidden {sep : Char} {cell : Cell} {rest : List Cell} {part : Text} {parts : List Text}
    (hidden : shows sep cell = false) (split : splitCells sep rest = part :: parts) :
    splitCells sep (cell :: rest) = (cell.char :: part) :: parts := by
  rw [splitCells, hidden, split]
  rfl

/-- Cells without the separator are one piece. -/
theorem splitCells_single {sep : Char} {cs : List Cell} (hidden : ∀ cell ∈ cs, shows sep cell = false) :
    splitCells sep cs = [cs.map Cell.char] := by
  induction cs with
  | nil => rfl
  | cons cell cs ih =>
    rw [List.forall_mem_cons] at hidden
    exact splitCells_hidden hidden.1 (ih hidden.2)

/-- The separator ends the piece before it. -/
theorem splitCells_append {sep : Char} {cs : List Cell} {cell : Cell} (hidden : ∀ cell ∈ cs, shows sep cell = false)
    (shown : shows sep cell = true) (rest : List Cell) :
    splitCells sep (cs ++ cell :: rest) = cs.map Cell.char :: splitCells sep rest := by
  induction cs with
  | nil => exact splitCells_shown shown rest
  | cons first cs ih =>
    rw [List.forall_mem_cons] at hidden
    exact splitCells_hidden hidden.1 (ih hidden.2)

/-! ## Slices at the separators of the mask -/

theorem offsetsOf_append {c : Char} {u : Text} (absent : c ∉ u) (start : Nat) (v : Text) :
    offsetsOf c start (u ++ v) = offsetsOf c (start + size u) v := by
  induction u generalizing start with
  | nil => rfl
  | cons d u ih =>
    rw [List.mem_cons, not_or] at absent
    have other : (d == c) = false := beq_eq_false_iff_ne.2 fun same => absent.1 same.symm
    rw [List.cons_append, offsetsOf, other, if_neg Bool.false_ne_true, ih absent.2, size, Nat.add_assoc]

/-- What a cell without the separator shows has none: a space is no separator. -/
theorem not_mem_shown {sep : Char} (solid : sep ≠ ' ') {cell : Cell} (hidden : shows sep cell = false) :
    sep ∉ cell.shown .nested := by
  unfold shows at hidden
  unfold Cell.shown
  split
  · exact fun mem => solid (List.eq_of_mem_replicate mem)
  · rename_i seen
    simp only [Bool.not_eq_true] at seen
    rw [seen] at hidden
    intro mem
    rw [List.mem_singleton.1 mem, Bool.not_false, Bool.true_and, beq_self_eq_true] at hidden
    cases hidden

theorem shown_of_shows {sep : Char} {cell : Cell} (shown : shows sep cell = true) :
    cell.char = sep ∧ cell.shown .nested = [sep] := by
  rw [shows, Bool.and_eq_true, Bool.not_eq_true', beq_iff_eq] at shown
  rw [Cell.shown, shown.1, shown.2]
  exact ⟨rfl, rfl⟩

theorem slicesAt_cons {width start stop : Nat} {t part : Text} {stops : List Nat} {parts : List Text}
    (first : slice start stop t = .ok part) (rest : slicesAt width t (stop + width) stops = .ok parts) :
    slicesAt width t start (stop :: stops) = .ok (part :: parts) := by
  rw [slicesAt, first]
  change (slicesAt width t (stop + width) stops >>= fun parts => pure (part :: parts)) = _
  rw [rest]
  rfl

/-- The slices behind `front`, when `held` has been passed since the last separator: every offset in the mask is an
offset of the text between two characters, so all the cuts are made. -/
theorem slicesAt_cells {sep : Char} (solid : sep ≠ ' ') (cs : List Cell) (front held : Text) :
    ∃ part parts, splitCells sep cs = part :: parts ∧
      slicesAt sep.utf8Size (front ++ held ++ cs.map Cell.char) (size front)
        (offsetsOf sep (size (front ++ held)) (cs.flatMap (Cell.shown .nested))) = .ok ((held ++ part) :: parts) := by
  induction cs generalizing front held with
  | nil =>
    refine ⟨[], [], rfl, ?_⟩
    have last := slice_append front held []
    rw [List.append_nil] at last
    simp only [List.map_nil, List.flatMap_nil, List.append_nil, offsetsOf, slicesAt, last]
    rfl
  | cons cell cs ih =>
    cases shown : shows sep cell with
    | true =>
      obtain ⟨char, face⟩ := shown_of_shows shown
      obtain ⟨part, parts, split, slices⟩ := ih (front ++ held ++ [sep]) []
      refine ⟨[], part :: parts, by rw [splitCells_shown shown, split], ?_⟩
      have text : front ++ held ++ (cell :: cs).map Cell.char = front ++ held ++ [sep] ++ [] ++ cs.map Cell.char := by
        simp [char]
      have here := slice_append front held ([sep] ++ cs.map Cell.char)
      have width : size (front ++ held ++ [sep]) = size (front ++ held) + sep.utf8Size := by
        rw [size_append (front ++ held)]
        rfl
      rw [← List.append_assoc] at here
      rw [List.append_nil] at slices text
      rw [width] at slices
      rw [List.flatMap_cons, face, List.singleton_append, offsetsOf, beq_self_eq_true, if_pos rfl, text, List.append_nil]
      exact slicesAt_cons here slices
    | false =>
      obtain ⟨part, parts, split, slices⟩ := ih front (held ++ [cell.char])
      refine ⟨cell.char :: part, parts, splitCells_hidden shown split, ?_⟩
      have text : front ++ held ++ (cell :: cs).map Cell.char = front ++ (held ++ [cell.char]) ++ cs.map Cell.char := by
        simp
      have width : size (front ++ held) + size (cell.shown .nested) = size (front ++ (held ++ [cell.char])) := by
        rw [Cell.size_shown, ← List.append_assoc, size_append (front ++ held)]
        rfl
      rw [List.flatMap_cons, offsetsOf_append (not_mem_shown solid shown), width, text, slices, List.append_assoc]
      rfl

/-- **A text is cut at the offsets of a separator in its mask**, whatever is hidden there. -/
theorem splitTop_eq {sep : Char} (solid : sep ≠ ' ') (t : Text) :
    splitTop sep t = .ok (((splitCells sep (cells t)).map trim).filter (!·.isEmpty)) := by
  obtain ⟨part, parts, split, slices⟩ := slicesAt_cells solid (cells t) [] []
  rw [List.append_nil, List.nil_append, List.nil_append, cells, Walk.map_char_cells] at slices
  unfold splitTop mask
  rw [split]
  change (slicesAt _ _ (size []) (offsetsOf _ (size []) _) >>= _) = _
  rw [cells, slices]
  rfl

/-- An item of a list: it is not empty, has no white space around it and no comma outside its literals and
parentheses, and ends outside them. -/
structure IsItem (t : Text) : Prop where
  filled : t ≠ []
  trimmed : trim t = t
  closed : isClosed t = true
  whole : ',' ∉ mask .nested t

end Text
end QueryCode
