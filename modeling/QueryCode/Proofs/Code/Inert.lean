import QueryCode.Proofs.Code.Scanner

/-!
# Inert words

Code is inert if no word in it has a quote or a bracket. Strings may hold anything, and brackets come from lists
alone, so the text of inert code is well formed.
-/

namespace QueryCode
set_option autoImplicit false

/-- No character is a quote or a bracket. -/
def Text.Inert (t : Text) : Prop := ∀ c ∈ t, Scanner.isInert c = true

namespace Text

instance (t : Text) : Decidable t.Inert := List.decidableBAll (fun c => Scanner.isInert c = true) t

theorem inert_nil : Inert [] := by
  intro c mem
  cases mem

theorem inert_cons {c : Char} {t : Text} : Inert (c :: t) ↔ Scanner.isInert c = true ∧ Inert t :=
  List.forall_mem_cons

theorem inert_append {t u : Text} : Inert (t ++ u) ↔ Inert t ∧ Inert u := List.forall_mem_append

theorem Inert.subset {t u : Text} (inert : Inert t) (part : u ⊆ t) : Inert u := fun c mem => inert c (part mem)

end Text

namespace Code

mutual

/-- No word of the code has a quote or a bracket. -/
def Inert : Code → Prop
  | .word t => t.Inert
  | .quoted _ => True
  | .row parts => AllInert parts
  | .list _ _ items => AllInert items

/-- No word of the pieces has a quote or a bracket. -/
def AllInert : List Code → Prop
  | [] => True
  | part :: parts => Inert part ∧ AllInert parts

end

theorem allInert_iff {parts : List Code} : AllInert parts ↔ ∀ part ∈ parts, Inert part := by
  induction parts with
  | nil => simp [AllInert]
  | cons part parts ih => rw [AllInert, ih, List.forall_mem_cons]

theorem neutral_pad (padded : Bool) : Scanner.Neutral (if padded then " " else "" : Text) := by
  cases padded
  · exact Scanner.neutral_nil
  · exact Scanner.run_inert (by decide)

mutual

/-- The text of inert code leaves the scan as it was. -/
theorem neutral_text : (code : Code) → Inert code → Scanner.Neutral code.text
  | .word t, inert => Scanner.neutral_of_inert inert
  | .quoted t, _ => Scanner.neutral_quote t
  | .row parts, inert => neutral_rowText parts inert
  | .list bracket padded [], _ => Scanner.neutral_nil.enclose bracket
  | .list bracket padded (item :: items), inert => by
    have pad := neutral_pad padded
    have first := neutral_text item inert.1
    have rest := neutral_itemsText items inert.2
    have inside := ((pad.append first).append rest).append pad
    rw [text]
    simpa using inside.enclose bracket

theorem neutral_rowText : (parts : List Code) → AllInert parts → Scanner.Neutral (rowText parts)
  | [], _ => Scanner.neutral_nil
  | part :: parts, inert => (neutral_text part inert.1).append (neutral_rowText parts inert.2)

theorem neutral_itemsText : (items : List Code) → AllInert items → Scanner.Neutral (itemsText items)
  | [], _ => Scanner.neutral_nil
  | item :: items, inert => by
    have comma : Scanner.Neutral (", " : Text) := Scanner.neutral_of_inert (show Text.Inert _ by decide)
    exact (comma.append (neutral_text item inert.1)).append (neutral_itemsText items inert.2)

end

/-- **Inert code is well formed.** -/
theorem Inert.wellFormed {code : Code} (inert : Inert code) : Scanner.WellFormed code.text :=
  neutral_text code inert []

theorem inert_quoted (t : Text) : Inert (.quoted t) := trivial

end Code
end QueryCode
