import QueryCode.Proofs.Statement.Clause
import QueryCode.Proofs.Text.Hidden
import QueryCode.Proofs.Text.Infix

/-!
# The end of a statement

White space and semicolons at the end of a statement are taken away before it is read. What stands in front of them keeps
all that it shows, and so does a text that comes last in the statement.
-/

namespace QueryCode
set_option autoImplicit false

open Text Text.Scan Text.Cursor Pattern

namespace Statement

theorem infix_strip (t : Text) : strip t <:+: t :=
  ((infix_rdropWhile _ _).trans (infix_rdropWhile _ _)).trans (infix_trim t)

/-- The text without the white space and the semicolons at its end. -/
def stripEnd (t : Text) : Text := trimEnd ((trimEnd t).rdropWhile (· == ';'))

theorem rdropWhile_append (p : Char → Bool) (b t : Text) :
    (b ++ t).rdropWhile p = if (t.rdropWhile p).isEmpty then b.rdropWhile p else b ++ t.rdropWhile p := by
  unfold List.rdropWhile
  rw [List.reverse_append, List.dropWhile_append, apply_ite List.reverse, List.reverse_append, List.reverse_reverse,
    List.isEmpty_reverse]

theorem rdropWhile_append_of_last {p : Char → Bool} {b : Text} (last : b.getLast?.any p = false) (t : Text) :
    (b ++ t).rdropWhile p = b ++ t.rdropWhile p := by
  have kept : b.rdropWhile p = b := by
    rw [List.rdropWhile_eq_self_iff]
    intro filled
    rw [List.getLast?_eq_some_getLast filled] at last
    simpa using last
  rw [rdropWhile_append, kept]
  split
  next empty => rw [List.isEmpty_iff.1 empty, List.append_nil]
  next => rfl

/-- A statement is cut behind the last character that is neither white space nor a semicolon. -/
theorem strip_append {b : Text} (first : b.head?.any isBlank = false)
    (last : b.getLast?.any (fun c => isBlank c || c == ';') = false) (filled : b ≠ []) (t : Text) :
    strip (b ++ t) = b ++ stripEnd t := by
  obtain ⟨c, more, rfl⟩ := List.exists_cons_of_ne_nil filled
  have solid : isBlank c = false := by simpa using first
  have kept : trimStart (c :: more ++ t) = c :: more ++ t := List.dropWhile_cons_of_neg (by simp [solid])
  have ends (p : Char → Bool) (weaker : ∀ c, p c = true → (isBlank c || c == ';') = true) :
      (c :: more).getLast?.any p = false := by
    rw [List.getLast?_eq_some_getLast filled] at last ⊢
    rw [Option.any_some, ← Bool.not_eq_true] at last ⊢
    exact fun holds => last (weaker _ holds)
  have blank := ends isBlank (by simp +contextual)
  have semicolon := ends (· == ';') (by simp +contextual)
  have cut (t : Text) : trimEnd (c :: more ++ t) = c :: more ++ trimEnd t := rdropWhile_append_of_last blank t
  have cut' (t : Text) : ((c :: more ++ t).reverse.dropWhile (· == ';')).reverse = c :: more ++ t.rdropWhile (· == ';') :=
    rdropWhile_append_of_last semicolon t
  rw [strip, trim, kept, cut, cut', cut]
  rfl

/-- The end of a name is kept. -/
theorem last_word {name : Text} (named : isTableWord name = true) (before : Text) :
    (before ++ name).getLast?.any (fun c => isBlank c || c == ';') = false := by
  have filled := ne_nil_of_isTableWord named
  have word := chars_of_isTableWord named _ (List.getLast_mem filled)
  have other : name.getLast filled ≠ ';' := by
    intro same
    rw [same] at word
    cases word
  rw [List.getLast?_append_of_ne_nil _ filled, List.getLast?_eq_some_getLast filled]
  simp [not_isBlank_of_isWord word, other]

/-- Behind a keyword the end of a statement is taken away from what follows the keyword. -/
theorem strip_keyword {b k : Text} (first : b.head?.any isBlank = false) (filled : b ≠ []) (named : isTableWord k = true)
    (t : Text) : strip (b ++ ' ' :: (k ++ t)) = b ++ ' ' :: (k ++ stripEnd t) := by
  have head : (b ++ ' ' :: k).head?.any isBlank = false := by
    obtain ⟨c, more, rfl⟩ := List.exists_cons_of_ne_nil filled
    exact first
  have last := last_word named (b ++ [' '])
  have cut := strip_append head (by simpa using last) (by simp) t
  simpa using cut

/-- What is taken away from the end of a statement. -/
theorem exists_stripEnd (t : Text) : ∃ trail, t = stripEnd t ++ trail ∧ ∀ c ∈ trail, isBlank c = true ∨ c = ';' := by
  obtain ⟨trail, blank, first⟩ := exists_trimEnd t
  obtain ⟨trail', blank', last⟩ := exists_trimEnd ((trimEnd t).rdropWhile (· == ';'))
  have middle : (trimEnd t).rdropWhile (· == ';') ++ (trimEnd t).rtakeWhile (· == ';') = trimEnd t :=
    List.rdropWhile_append_rtakeWhile
  refine ⟨trail' ++ ((trimEnd t).rtakeWhile (· == ';') ++ trail), ?_, ?_⟩
  · calc
      t = trimEnd t ++ trail := first
      _ = (trimEnd t).rdropWhile (· == ';') ++ (trimEnd t).rtakeWhile (· == ';') ++ trail := by rw [middle]
      _ = stripEnd t ++ trail' ++ (trimEnd t).rtakeWhile (· == ';') ++ trail := by rw [stripEnd, ← last]
      _ = stripEnd t ++ (trail' ++ ((trimEnd t).rtakeWhile (· == ';') ++ trail)) := by simp
  · intro c mem
    rcases List.mem_append.1 mem with white | mem
    · exact .inl (blank' c white)
    · rcases List.mem_append.1 mem with semicolon | white
      · have same : (c == ';') = true := List.mem_rtakeWhile_imp (p := (· == ';')) semicolon
        exact .inr (beq_iff_eq.1 same)
      · exact .inl (blank c white)

theorem plain_trail {trail : Text} (ends : ∀ c ∈ trail, isBlank c = true ∨ c = ';') : Plain trail := by
  intro c mem
  rcases ends c mem with blank | rfl
  · exact isMark_of_class (by decide) blank
  · decide

theorem head_trail {trail : Text} (ends : ∀ c ∈ trail, isBlank c = true ∨ c = ';') : trail.head?.any isWord = false := by
  cases trail with
  | nil => rfl
  | cons c trail =>
    rcases ends c List.mem_cons_self with blank | rfl
    · exact not_isWord_of_isBlank blank
    · exact (by decide : isWord ';' = false)

theorem spaced_stripEnd {t : Text} (spaced : Spaced t) : Spaced (stripEnd t) := by
  obtain ⟨trail, split, _⟩ := exists_stripEnd t
  cases kept : stripEnd t with
  | nil => exact .inl rfl
  | cons c more =>
    rw [kept] at split
    obtain ⟨rest, eq⟩ := spaced.resolve_left (by simp [split])
    obtain ⟨rfl, _⟩ := List.cons.inj (split.symm.trans eq)
    exact .inr ⟨more, rfl⟩

/-- A character that belongs to no word is masked by one that belongs to none. -/
theorem head_shown {cell : Cell} (edge : isWord cell.char = false) (rest : Text) :
    (cell.shown .nested ++ rest).head?.any isWord = false := by
  unfold Cell.shown
  split
  · obtain ⟨n, size⟩ := Nat.exists_eq_succ_of_ne_zero cell.char.utf8Size_pos.ne'
    rw [size, List.replicate_succ]
    exact not_isWord_of_isBlank (by decide)
  · exact edge

/-- A key that a text shows is shown also with what is taken away from its end. -/
theorem occurs_trail {x trail : Text} {k : Key} (has : k.Occurs (mask .nested x))
    (ends : ∀ c ∈ trail, isBlank c = true ∨ c = ';') : k.Occurs (mask .nested (x ++ trail)) := by
  have apart : Apart x trail := (plain_trail ends).apart_right
  have shown : mask .nested (x ++ trail) =
      mask .nested x ++ ((Walk.run {} x).cells trail).flatMap (Cell.shown .nested) := by
    rw [mask, cells, Walk.cells_append (Walk.sound_start 0) apart, List.flatMap_append]
    rfl
  rw [shown]
  refine has.append ?_
  cases trail with
  | nil => rfl
  | cons c trail =>
    have edge : isWord ((Walk.run {} x).step c trail.head?).1.char = false := by
      rw [Walk.step_char]
      exact head_trail ends
    rw [Walk.cells, List.flatMap_cons]
    exact head_shown edge _

/-- The text between the white space in front of it and what is taken away behind it. -/
theorem trim_stripEnd (t : Text) : trim (stripEnd t) = strip t := by
  obtain ⟨lead, blank, split⟩ := exists_trimStart t
  have solid := head_trimStart_any t
  have whole : strip t = stripEnd (trimStart t) := rfl
  rw [whole]
  generalize trimStart t = core at split solid ⊢
  subst split
  have noLead : trimEnd lead = [] := trimEnd_eq_nil.2 blank
  have last : lead.getLast?.any (· == ';') = false := by
    cases given : lead.getLast? with
    | none => rfl
    | some c =>
      have white := blank c (List.mem_of_getLast? given)
      rw [Option.any_some, beq_eq_false_iff_ne]
      rintro rfl
      cases white
  -- the white space in front goes only if nothing else is left
  have step (x : Text) : trimEnd (lead ++ x) = lead ++ trimEnd x ∨ trimEnd (lead ++ x) = [] ∧ trimEnd x = [] := by
    have cut : trimEnd (lead ++ x) = if (trimEnd x).isEmpty then trimEnd lead else lead ++ trimEnd x :=
      rdropWhile_append isBlank lead x
    rw [cut, noLead]
    split
    next empty => exact .inr ⟨rfl, List.isEmpty_iff.1 empty⟩
    next => exact .inl rfl
  have parts : stripEnd (lead ++ core) = lead ++ stripEnd core ∨ stripEnd (lead ++ core) = [] ∧ stripEnd core = [] := by
    unfold stripEnd
    rcases step core with first | ⟨empty, empty'⟩
    · rw [first, rdropWhile_append_of_last last]
      exact step _
    · rw [empty, empty']
      exact .inr ⟨rfl, rfl⟩
  have trimmed : trim (stripEnd core) = stripEnd core := by
    obtain ⟨trail, split, _⟩ := exists_stripEnd core
    have first : (stripEnd core).head?.any isBlank = false := by
      cases kept : stripEnd core with
      | nil => rfl
      | cons c more =>
        rw [split, kept] at solid
        exact solid
    exact trim_eq_self first (trimEnd_eq_self_iff.1 (trimEnd_trimEnd _))
  rcases parts with found | ⟨empty, empty'⟩
  · have around := trim_append (t := stripEnd core) blank blank_nil
    rw [List.append_nil] at around
    rw [found, around, trimmed]
  · rw [empty, empty']
    rfl

end Statement
end QueryCode
