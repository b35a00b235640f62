import QueryCode.Proofs.Text.Infix
import QueryCode.Proofs.Text.Remask
import QueryCode.Proofs.Text.Scan

/-!
# Marked texts

A pattern takes a text apart into its hits outside quoted literals and the characters between them. `Marked` says of a row
of parts that each hit is one and that the pattern fits at none of the characters between. The search finds the only such
row, so what becomes of the hits when a text is changed need not be searched for again: the changed row is marked too.

Three changes are followed here. Hits are exchanged for other parts (`Marked.replace`), what stands in literals is shown as
spaces (`Marked.veil`), and both do the same in either order (`source_replace_veil`). The patterns are those for texts of a
shape that stand on their own: a hit starts with a word character, a word does not go on over its ends, and no other
hit starts inside it.
-/

namespace QueryCode
set_option autoImplicit false

namespace Text

/-! ## Parts -/

/-- The text that the parts make up. -/
def source (parts : List Part) : Text := mapHits id parts

@[simp] theorem source_plain (c : Char) (parts : List Part) : source (.plain c :: parts) = c :: source parts := rfl

@[simp] theorem source_hit (t : Text) (parts : List Part) : source (.hit t :: parts) = t ++ source parts := rfl

@[simp] theorem source_append (parts more : List Part) : source (parts ++ more) = source parts ++ source more :=
  List.flatMap_append

@[simp] theorem source_map_plain (t : Text) : source (t.map .plain) = t := by
  induction t with
  | nil => rfl
  | cons c t ih => rw [List.map_cons, source_plain, ih]

theorem source_mark (p : Scan Unit) (t : Text) : source (mark p t) = t := mapHits_mark p t

/-- The parts with others in place of each hit. -/
def replace (g : Text → List Part) : List Part → List Part
  | [] => []
  | .plain c :: parts => .plain c :: replace g parts
  | .hit t :: parts => g t ++ replace g parts

theorem replace_append (g : Text → List Part) (parts more : List Part) :
    replace g (parts ++ more) = replace g parts ++ replace g more := by
  induction parts with
  | nil => rfl
  | cons part parts ih =>
    cases part with
    | plain c => rw [List.cons_append, replace, replace, ih, List.cons_append]
    | hit t => rw [List.cons_append, replace, replace, ih, List.append_assoc]

@[simp] theorem replace_map_plain (g : Text → List Part) (t : Text) : replace g (t.map .plain) = t.map .plain := by
  induction t with
  | nil => rfl
  | cons c t ih => rw [List.map_cons, replace, ih]

@[simp] theorem replace_hit (parts : List Part) : replace (fun t => [.hit t]) parts = parts := by
  induction parts with
  | nil => rfl
  | cons part parts ih =>
    cases part with
    | plain c => rw [replace, ih]
    | hit t => rw [replace, ih, List.singleton_append]

/-- The character before a place behind `c` is the last one of what follows `c`, or `c`. -/
theorem getLast?_cons_or (c : Char) (u : Text) (last : Option Char) :
    (c :: u).getLast?.or last = u.getLast?.or (some c) := by
  rw [List.getLast?_cons]
  cases u.getLast? <;> rfl

/-- The text with every hit changed is the text of the parts with every hit exchanged. -/
theorem mapHits_eq_source {f : Text → Text} {g : Text → List Part} {parts : List Part}
    (same : ∀ t ∈ hits parts, source (g t) = f t) : mapHits f parts = source (replace g parts) := by
  induction parts with
  | nil => rfl
  | cons part parts ih =>
    cases part with
    | plain c => exact congrArg (c :: ·) (ih same)
    | hit t =>
      obtain ⟨here, later⟩ := List.forall_mem_cons.1 same
      rw [replace, source_append, here, ← ih later]
      rfl

/-! ## What the walk shows -/

namespace Walk

/-- What a walk shows of a text, with a space for each hidden character. -/
def faces (w : Walk) (t : Text) : Text := (w.cells t).map (Cell.face .quotes)

theorem faces_cons (w : Walk) (c : Char) (t : Text) :
    w.faces (c :: t) = (w.step c t.head?).1.face .quotes :: (w.step c t.head?).2.faces t := rfl

/-- The cells of text without quotes and parentheses, outside literals. -/
def plainRow (depth : Nat) (u : Text) : List Cell := u.map (⟨·, false, decide (0 < depth)⟩)

theorem map_char_plainRow (depth : Nat) (u : Text) : (plainRow depth u).map Cell.char = u := by
  rw [plainRow, List.map_map]
  exact List.map_id u

theorem map_face_plainRow (depth : Nat) (u : Text) : (plainRow depth u).map (Cell.face .quotes) = u := by
  rw [plainRow, List.map_map]
  exact List.map_id u

theorem flatMap_shown_plainRow (depth : Nat) (u : Text) : (plainRow depth u).flatMap (Cell.shown .quotes) = u := by
  rw [plainRow, List.flatMap_map]
  exact List.flatMap_singleton' u

theorem cells_plain_append {u : Text} (plain : Plain u) (depth : Nat) (t : Text) :
    cells ⟨.plain, depth⟩ (u ++ t) = plainRow depth u ++ cells ⟨.plain, depth⟩ t := by
  induction u with
  | nil => rfl
  | cons c u ih =>
    rw [plain_cons] at plain
    rw [List.cons_append, cells, step_plain plain.1, ih plain.2]
    rfl

/-- Text without quotes and parentheses is shown where it stands outside literals. -/
theorem faces_plain_append {u : Text} (plain : Plain u) (depth : Nat) (t : Text) :
    faces ⟨.plain, depth⟩ (u ++ t) = u ++ faces ⟨.plain, depth⟩ t := by
  rw [faces, cells_plain_append plain, List.map_append, map_face_plainRow]
  rfl

/-- What shows and is no quote stands outside literals. -/
theorem mode_of_face {w : Walk} (sound : w.Sound) {c : Char} {next : Option Char} {x : Char}
    (shown : (w.step c next).1.face .quotes = x) (clean : isMark x = false) (solid : x ≠ ' ') : w.mode = .plain ∧ c = x := by
  have seen : (w.step c next).1.quoted = false := by
    by_contra hidden
    rw [Cell.face, if_pos (by simpa [Cell.hidden] using hidden)] at shown
    exact solid shown.symm
  have same : c = x := by
    rwa [Cell.face, Cell.hidden, seen, if_neg Bool.false_ne_true, step_char] at shown
  subst same
  exact ⟨mode_of_step sound (isQuote_of_isMark clean) seen, rfl⟩

/-- **Text without spaces, quotes and parentheses that shows at a place stands there**, outside literals. -/
theorem faces_eq_append {w : Walk} (sound : w.Sound) {t found after : Text} (filled : found ≠ [])
    (clean : ∀ c ∈ found, isMark c = false ∧ c ≠ ' ') (split : w.faces t = found ++ after) :
    w.mode = .plain ∧ ∃ rest, t = found ++ rest ∧ after = w.faces rest := by
  induction found generalizing t with
  | nil => exact absurd rfl filled
  | cons x found ih =>
    cases t with
    | nil => cases split
    | cons c t =>
      obtain ⟨here, later⟩ := List.forall_mem_cons.1 clean
      rw [faces_cons, List.cons_append] at split
      obtain ⟨shown, below⟩ := List.cons.inj split
      obtain ⟨mode, rfl⟩ := mode_of_face sound shown here.1 here.2
      obtain ⟨_, depth⟩ := w
      cases mode
      rw [step_plain here.1] at below
      cases found with
      | nil => exact ⟨rfl, t, rfl, below.symm⟩
      | cons y found =>
        obtain ⟨-, rest, rfl, ends⟩ := ih (by simp) later below
        exact ⟨rfl, rest, rfl, ends⟩

/-- Two texts move the walk alike if the same quote follows or none. -/
theorem step_alike {w : Walk} (sound : w.Sound) {c : Char} {next next' : Option Char}
    (alike : ∀ q, isQuote q = true → (next = some q ↔ next' = some q)) : w.step c next = w.step c next' := by
  by_cases doubles : next = some c ∧ isQuote c = true
  · rw [doubles.1, (alike c doubles.2).1 doubles.1]
  · have apart : next = some c → isQuote c = false := fun same => by simpa [same] using doubles
    have apart' : next' = some c → isQuote c = false := by
      intro same
      by_contra quote
      rw [Bool.not_eq_false] at quote
      exact doubles ⟨(alike c quote).2 same, quote⟩
    rw [step_apart sound apart, step_apart sound apart']

end Walk

/-! ## Hits -/

/-- No word goes on over the end of the text. -/
def WordEnds (t after : Text) : Prop := t.getLast?.any isWord = true → after.head?.any isWord = false

theorem WordEnds.of_append {u v after : Text} (ends : WordEnds (u ++ v) after) (filled : v ≠ []) : WordEnds v after := by
  rwa [WordEnds, List.getLast?_append_of_ne_nil _ filled] at ends

variable {S : Text → Prop}

/-- A text of the shape, and no word goes on over its ends. -/
structure IsHit (S : Text → Prop) (last : Option Char) (found after : Text) : Prop where
  shape : S found
  starts : last.any isWord = false
  ends : WordEnds found after

/-- A text of the shape is cut where a word may start. -/
structure IsJoint (S : Text → Prop) (u v : Text) : Prop where
  shape : S (u ++ v)
  left : u ≠ []
  right : v ≠ []
  edge : u.getLast?.any isWord = false

/-- Texts of the shape start with a word character, stand outside literals and do not meet. -/
structure IsShape (S : Text → Prop) : Prop where
  head : ∀ {t}, S t → t.head?.any isWord = true
  clean : ∀ {t}, S t → ∀ c ∈ t, isMark c = false ∧ c ≠ ' '
  unique : ∀ {last t t' after after'}, IsHit S last t after → IsHit S last t' after' → t ++ after = t' ++ after' → t = t'
  joint : ∀ {u v t after after'}, IsJoint S u v → WordEnds v after → S t → v ++ after ≠ t ++ after'

namespace IsShape

variable (shape : IsShape S)
include shape

theorem ne_nil {t : Text} (holds : S t) : t ≠ [] := by
  rintro rfl
  cases shape.head holds

theorem head_append {t : Text} (holds : S t) (after : Text) : (t ++ after).head?.any isWord = true := by
  have head := shape.head holds
  obtain ⟨c, more, rfl⟩ := List.exists_cons_of_ne_nil (shape.ne_nil holds)
  exact head

theorem plain {t : Text} (holds : S t) : Plain t := fun c mem => (shape.clean holds c mem).1

end IsShape

/-- The scan fits where a text of the shape stands on its own. -/
def Finds (p : Scan Unit) (S : Text → Prop) : Prop :=
  ∀ offset last rest after, (∃ stop, p ⟨offset, last, rest⟩ = some ((), stop) ∧ stop.rest = after) ↔
    ∃ found, rest = found ++ after ∧ IsHit S last found after

namespace Scan

variable {offset : Nat} {last : Option Char} {rest : Text} {stop : Cursor}

theorem skip_append (offset : Nat) (last : Option Char) (u rest : Text) :
    (⟨offset, last, u ++ rest⟩ : Cursor).skip u.length = ⟨offset + size u, u.getLast?.or last, rest⟩ := by
  rw [Cursor.skip, List.take_left, List.drop_left]

theorem one_at {member : Char → Bool} {c : Char} :
    one member ⟨offset, last, rest⟩ = some (c, stop) ↔
      ∃ after, rest = c :: after ∧ member c = true ∧ stop = ⟨offset + size [c], some c, after⟩ := by
  unfold one
  cases rest with
  | nil => simp
  | cons d rest =>
    have skipped := skip_append offset last [d] rest
    rw [List.singleton_append, List.length_singleton] at skipped
    dsimp only
    rw [skipped]
    split
    · rename_i is
      constructor
      · rintro ⟨⟩
        exact ⟨rest, rfl, is, rfl⟩
      · rintro ⟨after, ⟨⟩, _, rfl⟩
        rfl
    · rename_i other
      refine iff_of_false (by simp) ?_
      rintro ⟨after, ⟨⟩, is, _⟩
      exact other is

theorem letters_at {w found : Text} :
    letters w ⟨offset, last, rest⟩ = some (found, stop) ↔
      ∃ after, rest = found ++ after ∧ sameFold w found = true ∧ stop = ⟨offset + size found, found.getLast?.or last, after⟩ := by
  unfold letters
  constructor
  · intro read
    dsimp only at read
    split at read
    · rename_i same
      cases read
      have skipped := skip_append offset last (rest.take w.length) (rest.drop w.length)
      rw [List.take_append_drop, length_of_sameFold same] at skipped
      exact ⟨rest.drop w.length, (List.take_append_drop _ _).symm, same, skipped⟩
    · cases read
  · rintro ⟨after, rfl, same, rfl⟩
    rw [← length_of_sameFold same]
    dsimp only
    rw [List.take_left, if_pos same, skip_append]

end Scan

/-! ## Marked parts -/

/-- Behind a character and in a state of the walk, the parts are marked: every hit is one, and at no other character does
one start. -/
inductive Marked (S : Text → Prop) : Walk → Option Char → List Part → Prop
  | nil (w : Walk) (last : Option Char) : Marked S w last []
  | plain {w : Walk} {last : Option Char} {c : Char} {parts : List Part}
      (free : ∀ found after, w.faces (c :: source parts) = found ++ after → ¬ IsHit S last found after)
      (rest : Marked S (w.step c (source parts).head?).2 (some ((w.step c (source parts).head?).1.face .quotes)) parts) :
      Marked S w last (.plain c :: parts)
  | hit {depth : Nat} {last : Option Char} {t : Text} {parts : List Part}
      (fits : IsHit S last t (Walk.faces ⟨.plain, depth⟩ (source parts)))
      (rest : Marked S ⟨.plain, depth⟩ t.getLast? parts) : Marked S ⟨.plain, depth⟩ last (.hit t :: parts)

/-- Every text has marked parts. -/
theorem exists_marked (shape : IsShape S) {w : Walk} (sound : w.Sound) (last : Option Char) (t : Text) :
    ∃ parts, source parts = t ∧ Marked S w last parts := by
  induction length : t.length using Nat.strong_induction_on generalizing w last t with
  | _ n ih =>
    cases t with
    | nil => exact ⟨[], rfl, .nil w last⟩
    | cons c t =>
      by_cases fits : ∃ found after, w.faces (c :: t) = found ++ after ∧ IsHit S last found after
      · obtain ⟨found, after, split, hit⟩ := fits
        have filled := shape.ne_nil hit.shape
        obtain ⟨outside, rest, whole, rfl⟩ := Walk.faces_eq_append sound filled (shape.clean hit.shape) split
        obtain ⟨_, depth⟩ := w
        cases outside
        have shorter : rest.length < n := by
          have lengths := congrArg List.length whole
          have positive := List.length_pos_of_ne_nil filled
          rw [length, List.length_append] at lengths
          omega
        obtain ⟨parts, rfl, marked⟩ := ih rest.length shorter sound found.getLast? rest rfl
        exact ⟨.hit found :: parts, whole.symm, .hit hit marked⟩
      · have shorter : t.length < n := by
          rw [← length, List.length_cons]
          omega
        obtain ⟨parts, rfl, marked⟩ := ih t.length shorter (sound.step c t.head?)
          (some ((w.step c t.head?).1.face .quotes)) t rfl
        exact ⟨.plain c :: parts, rfl, .plain (fun found after split hit => fits ⟨found, after, split, hit⟩) marked⟩

/-! ## The search -/

theorem markCells_skip (p : Scan Unit) (last : Option Char) (row rest : List Cell) :
    markCells p row.length last (row ++ rest) = markCells p 0 ((row.map (Cell.face .quotes)).getLast?.or last) rest := by
  induction row generalizing last with
  | nil => rfl
  | cons cell row ih =>
    rw [List.length_cons, List.cons_append, markCells, ih, List.map_cons, getLast?_cons_or]

theorem markCells_of_none {p : Scan Unit} {last : Option Char} {cell : Cell} {rest : List Cell}
    (missed : p ⟨0, last, (cell :: rest).map (Cell.face .quotes)⟩ = none) :
    markCells p 0 last (cell :: rest) = .plain cell.char :: markCells p 0 (some (cell.face .quotes)) rest := by
  rw [markCells, missed]
  rfl

theorem markCells_of_some {p : Scan Unit} {last : Option Char} {row rest : List Cell} {stop : Cursor} (filled : row ≠ [])
    (found : p ⟨0, last, (row ++ rest).map (Cell.face .quotes)⟩ = some ((), stop))
    (ends : stop.rest = rest.map (Cell.face .quotes)) :
    markCells p 0 last (row ++ rest) =
      .hit (row.map Cell.char) :: markCells p 0 (row.map (Cell.face .quotes)).getLast? rest := by
  obtain ⟨cell, row, rfl⟩ := List.exists_cons_of_ne_nil filled
  have length : (cell :: (row ++ rest)).length - stop.rest.length = row.length + 1 := by
    rw [ends, List.length_map, List.length_cons, List.length_append]
    omega
  have skipped := markCells_skip p (some (cell.face .quotes)) row rest
  rw [List.cons_append] at found ⊢
  rw [markCells, found]
  simp only [length]
  rw [if_neg (by simp), Nat.add_sub_cancel, skipped, List.take_succ_cons, List.take_left, List.map_cons, List.map_cons,
    ← getLast?_cons_or _ _ none, Option.or_none]

section Search

variable {p : Scan Unit} (finds : Finds p S) (shape : IsShape S)
include finds shape

/-- **The search finds the parts that are marked.** -/
theorem Marked.markCells_eq {w : Walk} {last : Option Char} {parts : List Part} (marked : Marked S w last parts) :
    markCells p 0 last (w.cells (source parts)) = parts := by
  induction marked with
  | nil => rfl
  | plain free rest ih =>
    rename_i w last c parts
    have missed : p ⟨0, last, w.faces (c :: source parts)⟩ = none := by
      by_contra found
      obtain ⟨⟨_, stop⟩, found⟩ := Option.ne_none_iff_exists'.1 found
      obtain ⟨text, split, fits⟩ := (finds 0 last _ _).1 ⟨stop, found, rfl⟩
      exact free text _ split fits
    rw [source_plain, Walk.cells, markCells_of_none missed, Walk.step_char, ih]
  | hit fits rest ih =>
    rename_i depth last t parts
    have rows := Walk.cells_plain_append (shape.plain fits.shape) depth (source parts)
    have shown := Walk.map_face_plainRow depth t
    have filled : Walk.plainRow depth t ≠ [] := by simpa [Walk.plainRow] using shape.ne_nil fits.shape
    obtain ⟨stop, found, ends⟩ := (finds 0 last (t ++ Walk.faces ⟨.plain, depth⟩ (source parts)) _).2 ⟨t, rfl, fits⟩
    have found' : p ⟨0, last, (Walk.plainRow depth t ++ Walk.cells ⟨.plain, depth⟩ (source parts)).map (Cell.face .quotes)⟩ =
        some ((), stop) := by
      rw [List.map_append, shown]
      exact found
    rw [source_hit, rows, markCells_of_some filled found' ends, Walk.map_char_plainRow, shown, ih]

theorem mark_source {parts : List Part} (marked : Marked S {} none parts) : mark p (source parts) = parts :=
  marked.markCells_eq finds shape

/-- **What the search finds is marked.** -/
theorem marked_mark (t : Text) : Marked S {} none (mark p t) := by
  obtain ⟨parts, rfl, marked⟩ := exists_marked shape (Walk.sound_start 0) none t
  rw [mark_source finds shape marked]
  exact marked

end Search

end Text
end QueryCode
