import QueryCode.Proofs.Statement.JoinFits
import QueryCode.Proofs.Statement.Parts

/-!
# Aggregates read back

The argument of an aggregate starts with `DISTINCT` only where the word leaves white space and a column behind it.
Trimming an argument does not change which of the two it is, so an aggregate that was read is printed as a text that is
read as the same aggregate.
-/

namespace QueryCode
set_option autoImplicit false

namespace Aggregate

open Text (Blank trim trimStart sameFold isBlank)
open Text.Cursor (between)
open Text.Scan

/-! ## The argument -/

/-- The argument is the word `DISTINCT`, white space, and what the word applies to. -/
structure StartsDistinct (t gap rest : Text) : Prop where
  word : ∃ word, sameFold "distinct" word = true ∧ trimStart t = word ++ (gap ++ rest)
  blank : Blank gap
  ends : rest.head?.any isBlank = false
  parted : gap ≠ []
  column : rest ≠ [] ∨ 2 ≤ gap.length

theorem distinctHead_eq_some {t gap rest : Text} :
    distinctHead t = some (gap, rest) ↔
      ∃ word, sameFold "distinct" word = true ∧ trimStart t = word ++ (gap ++ rest) ∧ Blank gap ∧
        rest.head?.any isBlank = false := by
  unfold distinctHead
  rw [Text.Cursor.start_eq]
  constructor
  · intro found
    split at found
    · rename_i word stop read
      obtain ⟨after, split, same, rfl⟩ := letters_some.1 read
      cases found
      refine ⟨word, same, ?_, fun c mem => List.mem_takeWhile_imp mem, ?_⟩
      · rw [split, Text.Cursor.rest_between, List.takeWhile_append_dropWhile]
      · have stopped := List.head?_dropWhile_not isBlank after
        rw [Text.Cursor.rest_between]
        revert stopped
        cases (after.dropWhile isBlank).head? <;> simp
    · cases found
  · rintro ⟨word, same, split, blank, ends⟩
    rw [split, Pattern.letters_between' same]
    dsimp only
    rw [Text.Cursor.rest_between, Text.takeWhile_run blank ends, Text.dropWhile_run blank ends]

theorem argument_of_startsDistinct {t gap rest : Text} (starts : StartsDistinct t gap rest) :
    argument t = (true, trim rest) := by
  obtain ⟨⟨word, same, split⟩, blank, ends, parted, column⟩ := starts
  have kept : (!gap.isEmpty && (!rest.isEmpty || decide (2 ≤ gap.length))) = true := by
    simpa [List.isEmpty_iff] using ⟨parted, column⟩
  rw [argument, distinctHead_eq_some.2 ⟨word, same, split, blank, ends⟩]
  exact if_pos kept

/-- **An argument is `DISTINCT` with a column, or all of it is the column.** -/
theorem argument_cases (t : Text) :
    (∃ gap rest, StartsDistinct t gap rest ∧ argument t = (true, trim rest)) ∨
      ((∀ gap rest, ¬ StartsDistinct t gap rest) ∧ argument t = (false, trim t)) := by
  by_cases starts : ∃ gap rest, StartsDistinct t gap rest
  · obtain ⟨gap, rest, starts⟩ := starts
    exact .inl ⟨gap, rest, starts, argument_of_startsDistinct starts⟩
  · refine .inr ⟨fun gap rest holds => starts ⟨gap, rest, holds⟩, ?_⟩
    unfold argument
    split
    · rename_i gap rest found
      obtain ⟨word, same, split, blank, ends⟩ := distinctHead_eq_some.1 found
      refine if_neg fun kept => ?_
      obtain ⟨parted, column⟩ : gap ≠ [] ∧ (rest ≠ [] ∨ 2 ≤ gap.length) := by simpa [List.isEmpty_iff] using kept
      exact starts ⟨gap, rest, ⟨word, same, split⟩, blank, ends, parted, column⟩
    · rfl

/-- White space around an argument hides no `DISTINCT`. -/
theorem StartsDistinct.of_trim {t gap rest : Text} (starts : StartsDistinct (trim t) gap rest) :
    ∃ rest, StartsDistinct t gap rest := by
  obtain ⟨⟨word, same, split⟩, blank, ends, parted, _⟩ := starts
  rw [Text.trimStart_trim] at split
  obtain ⟨trail, blankTrail, whole⟩ := Text.exists_trimEnd (trimStart t)
  -- A trimmed text does not end in the gap, so something stands behind it.
  have solid : rest ≠ [] := by
    rintro rfl
    have last := Text.last_of_trim (Text.trim_trim t)
    rw [split, List.append_nil, List.getLast?_append_of_ne_nil _ parted, List.getLast?_eq_some_getLast parted] at last
    rw [Option.any_some, blank _ (List.getLast_mem parted)] at last
    cases last
  obtain ⟨c, more, rfl⟩ := List.exists_cons_of_ne_nil solid
  refine ⟨c :: more ++ trail, ⟨word, same, ?_⟩, blank, ends, parted, .inl (by simp)⟩
  rw [whole, show Text.trimEnd (trimStart t) = word ++ (gap ++ c :: more) from split]
  simp only [List.append_assoc]

theorem trim_argument (t : Text) : trim (argument t).2 = (argument t).2 := by
  rcases argument_cases t with ⟨gap, rest, _, value⟩ | ⟨_, value⟩ <;> rw [value] <;> exact Text.trim_trim _

/-- **The argument of an aggregate is printed as it was read**, white space at its ends apart. -/
theorem argument_argumentText {t : Text} {a : Aggregate} (read : argument t = (a.distinct, a.column))
    (named : a.column ≠ []) : argument a.argumentText = (a.distinct, a.column) := by
  have trimmed : trim a.column = a.column := by
    have trims := trim_argument t
    rwa [read] at trims
  rcases argument_cases t with ⟨gap, rest, _, value⟩ | ⟨plain, value⟩
  · obtain ⟨distinct, _⟩ := Prod.mk.inj (read.symm.trans value)
    have starts : StartsDistinct a.argumentText " " a.column := by
      refine ⟨⟨"DISTINCT", by decide, ?_⟩, by decide, Text.head_of_trim trimmed, by decide, .inl named⟩
      rw [argumentText, if_pos distinct]
      rfl
    rw [argument_of_startsDistinct starts, distinct, trimmed]
  · obtain ⟨distinct, column⟩ := Prod.mk.inj (read.symm.trans value)
    have whole : a.argumentText = trim t := by
      rw [argumentText, distinct, column]
      rfl
    rcases argument_cases (trim t) with ⟨gap, rest, starts, _⟩ | ⟨_, kept⟩
    · obtain ⟨rest, starts⟩ := starts.of_trim
      exact absurd starts (plain gap rest)
    · rw [whole, kept, Text.trim_trim, distinct, column]

/-! ## The whole expression -/

theorem parse_eq_some {e : Text} {a : Aggregate} (found : parse? e = some a) :
    ∃ body, ')' ∉ body ∧ argument body = (a.distinct, a.column) := by
  unfold parse? at found
  split at found
  · cases found
  · rename_i name stop _
    dsimp only at found
    split at found
    · rename_i closed
      cases found
      rw [Bool.and_eq_true, Bool.not_eq_true', List.contains_eq_mem, decide_eq_false_iff_not] at closed
      exact ⟨stop.rest.dropLast, closed.2, rfl⟩
    · cases found

/-- The name of a function is read back. -/
theorem opening_text (f : AggregateFunction) (rest : Text) :
    opening (between [] (f.text ++ ('(' :: rest))) = some (f.text, between (f.text ++ ['(']) rest) := by
  have names : first [letters "count", letters "sum", letters "avg", letters "min", letters "max"]
      (between [] (f.text ++ ('(' :: rest))) = some (f.text, between ([] ++ f.text) ('(' :: rest)) := by
    cases f <;> rfl
  have gap : blanks (between f.text ('(' :: rest)) = some ((), between f.text ('(' :: rest)) :=
    blanks_some.2 ⟨[], _, rfl, Text.blank_nil, rfl, by rw [List.append_nil]⟩
  have parenthesis : char '(' (between f.text ('(' :: rest)) = some ('(', between (f.text ++ ['(']) rest) :=
    one_some.2 ⟨rest, rfl, rfl, rfl⟩
  unfold opening
  rw [bind_of_some names, List.nil_append, bind_of_some gap, bind_of_some (discard_of_some parenthesis)]
  rfl

theorem functionOf_text (f : AggregateFunction) : functionOf f.text = f := by cases f <;> decide

/-- **A function applied to an argument is read**, whatever the argument is that has no parenthesis in it. -/
theorem parse_application (f : AggregateFunction) {body : Text} (solid : body ≠ []) (closed : ')' ∉ body) :
    parse? (f.text ++ "(" ++ body ++ ")") = some ⟨f, (argument body).1, (argument body).2⟩ := by
  have trimmed : trim (f.text ++ "(" ++ body ++ ")") = f.text ++ "(" ++ body ++ ")" :=
    Text.trim_eq_self (by cases f <;> rfl) (by rw [List.getLast?_append_of_ne_nil _ (by decide)]; rfl)
  have written : (f.text ++ "(" ++ body ++ ")" : Text) = f.text ++ ('(' :: (body ++ [')'])) := by
    simp
  have kept : ((body ++ [')']).getLast? == some ')' && !body.isEmpty && !body.contains ')') = true := by
    simpa [List.isEmpty_iff] using ⟨solid, closed⟩
  unfold parse?
  rw [trimmed, written, Text.Cursor.start_eq, opening_text]
  dsimp only
  rw [Text.Cursor.rest_between, List.dropLast_concat, if_pos kept, functionOf_text]

/-- **An aggregate that was read has a normal form.** Its column is trimmed and has no closing parenthesis, and the
printed aggregate is read as the same one. -/
theorem parse_text_of_parse {e : Text} {a : Aggregate} (found : parse? e = some a) (named : a.column ≠ []) :
    trim a.column = a.column ∧ ')' ∉ a.column ∧ parse? a.text = some a := by
  obtain ⟨body, closed, read⟩ := parse_eq_some found
  have column : (argument body).2 = a.column := by rw [read]
  have trimmed : trim a.column = a.column := column ▸ trim_argument body
  have free : ')' ∉ a.column := fun mem => closed ((column ▸ infix_argument body).subset mem)
  refine ⟨trimmed, free, ?_⟩
  have solid : a.argumentText ≠ [] := by
    rw [argumentText]
    split
    · simp
    · exact named
  have closed' : ')' ∉ a.argumentText := by
    rw [argumentText]
    split
    · rw [List.mem_append, not_or]
      exact ⟨by decide, free⟩
    · exact free
  rw [text, parse_application a.function solid closed', argument_argumentText read named]

theorem parse_text_of_parse_nested :
    parse? " Count ( distinct\t DISTINCT  id ) " = some ⟨.count, true, "DISTINCT  id"⟩ ∧
      parse? "COUNT(DISTINCT DISTINCT  id)" = some ⟨.count, true, "DISTINCT  id"⟩ := by
  have found : parse? " Count ( distinct\t DISTINCT  id ) " = some ⟨.count, true, "DISTINCT  id"⟩ := by decide
  exact ⟨found, (parse_text_of_parse found (by decide)).2.2⟩

end Aggregate
end QueryCode
