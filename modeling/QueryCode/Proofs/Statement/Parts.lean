import QueryCode.Proofs.Ensures
import QueryCode.Proofs.Statement.Strip
import QueryCode.Proofs.Statement.Total
import QueryCode.Statement.Aggregate

/-!
# Parts of a statement

The body of a clause, the items of a list, the condition of a join and the column of an aggregate are parts of the
text they are read from.
-/

namespace QueryCode
set_option autoImplicit false

open Text (Cursor Scan)

theorem Text.ensures_slice (t : Text) (start stop : Nat) : Ensures (slice start stop t) (· <:+: t) :=
  fun _ cut => infix_slice cut

namespace Statement

namespace Source

theorem infix_body (t : Text) (start : Cursor) (stop : Scan Unit) : Ensures ((ofText t).body start stop) (· <:+: t) :=
  (Text.ensures_slice t _ _).bind fun found part => ensures_pure ((Text.infix_trim found).trans part)

theorem infix_clause (t : Text) (start stop : Scan Unit) :
    Ensures ((ofText t).clause start stop) fun found => ∀ text ∈ found, text <:+: t := by
  unfold clause
  split
  · exact ensures_ok fun _ => nofun
  · refine (infix_body t _ _).bind fun found part => ensures_pure ?_
    split
    · exact fun _ => nofun
    · rintro _ ⟨⟩
      exact part

theorem infix_items {t u : Text} (part : u <:+: t) :
    Ensures (Text.splitTop ',' u) fun items => ∀ item ∈ items, item <:+: t :=
  fun _ split item mem => (Text.infix_splitTop split item mem).trans part

theorem infix_list (t : Text) (start : Cursor) :
    Ensures ((ofText t).list start) fun found => ∀ items ∈ found, ∀ item ∈ items, item <:+: t := by
  unfold list
  split
  · exact ensures_ok fun _ => nofun
  · refine (Text.ensures_slice t _ _).bind fun inner part => (infix_items part).bind fun items parts => ensures_pure ?_
    rintro _ ⟨⟩
    exact parts

theorem infix_on (t : Text) (hit : Scan.Hit Pattern.JoinMatch) :
    Ensures ((ofText t).join hit) fun join => join.on <:+: t := by
  unfold Source.join
  refine .after _ fun keyword => ?_
  dsimp only
  split
  · exact (infix_body t _ _).bind fun on part => ensures_pure part
  · exact ensures_pure List.nil_infix

end Source

theorem ReadsAs.infix_condition {t : Text} {s : Statement} (reads : ReadsAs t s) : s.condition <:+: t := by
  obtain ⟨found, read, given⟩ := reads.condition
  have parts := Source.infix_clause t _ _ found read
  rw [← given]
  cases found with
  | none => exact List.nil_infix
  | some text => exact parts text rfl

end Statement

/-! ## Aggregates -/

namespace Aggregate

theorem suffix_opening {t name : Text} {stop : Cursor} (found : opening (Cursor.start t) = some (name, stop)) :
    stop.rest <:+ t := by
  rw [Cursor.start_eq] at found
  unfold opening at found
  simp only [Scan.bind_some, Scan.discard_some, Scan.pure_some] at found
  obtain ⟨word, mid, function, _, gap, blanks, _, after, ⟨_, parenthesis⟩, rfl, rfl⟩ := found
  obtain ⟨p, listed, fits⟩ := Scan.first_some function
  obtain ⟨w, rfl⟩ : ∃ w : Text, p = Scan.letters w := by
    simp only [List.mem_cons, List.not_mem_nil, or_false] at listed
    rcases listed with rfl | rfl | rfl | rfl | rfl <;> exact ⟨_, rfl⟩
  obtain ⟨rest, rfl, _, rfl⟩ := Scan.letters_some.1 fits
  obtain ⟨white, rest, rfl, _, _, rfl⟩ := Scan.blanks_some.1 blanks
  obtain ⟨rest, rfl, _, rfl⟩ := Scan.one_some.1 parenthesis
  exact (List.suffix_cons _ rest).trans ((List.suffix_append white _).trans (List.suffix_append word _))

theorem infix_argument (t : Text) : (argument t).2 <:+: t := by
  unfold argument
  split
  · rename_i gap rest found
    split
    · refine (Text.infix_trim rest).trans ?_
      unfold distinctHead at found
      split at found
      · rename_i word stop fits
        cases found
        rw [Cursor.start_eq] at fits
        obtain ⟨after, split, _, rfl⟩ := Scan.letters_some.1 fits
        have trimmed : Text.trimStart t <:+ t := List.dropWhile_suffix _
        rw [split] at trimmed
        exact ((List.dropWhile_suffix _).trans ((List.suffix_append word after).trans trimmed)).isInfix
      · cases found
    · exact Text.infix_trim t
  · exact Text.infix_trim t

/-- The column of an aggregate is a part of its expression. -/
theorem infix_column {expr : Text} {a : Aggregate} (found : parse? expr = some a) : a.column <:+: expr := by
  unfold parse? at found
  split at found
  · cases found
  · rename_i name stop opened
    dsimp only at found
    split at found
    · cases found
      refine (infix_argument _).trans ((List.dropLast_prefix _).isInfix.trans ?_)
      exact (suffix_opening opened).isInfix.trans (Text.infix_trim expr)
    · cases found

end Aggregate
end QueryCode
