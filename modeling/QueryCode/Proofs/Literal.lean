import QueryCode.Literal
import QueryCode.Proofs.Code.Inert

/-!
# Literals without quotes and brackets

A literal is written as a fixed word, a number or a string literal. Numbers are digits with a sign, a point and
zeros at most, or the word for an infinite one.
-/

namespace QueryCode
set_option autoImplicit false

namespace Text

theorem isInert_of_isDigit {c : Char} (digit : c.isDigit = true) : Scanner.isInert c = true :=
  Scanner.isInert_of_class (by decide) digit

theorem inert_toDigits (n : Nat) : Inert (Nat.toDigits 10 n) := fun _ mem =>
  isInert_of_isDigit (Nat.isDigit_of_mem_toDigits (by decide) (by decide) mem)

end Text

namespace Double

open Text (inert_append)

theorem inert_sign (negative : Bool) : (sign negative).Inert := by
  cases negative <;> decide

theorem Decimal.trimZeros_subset (digits : Text) : trimZeros digits ⊆ digits := fun c mem => by
  have kept := (List.dropWhile_sublist _).subset (List.mem_reverse.1 mem)
  exact List.mem_reverse.1 kept

/-- A decimal is written with digits and a point. -/
theorem Decimal.isDigit_of_mem_text {d : Decimal} {c : Char} (mem : c ∈ d.text) : c.isDigit = true ∨ c = '.' := by
  have digit {n : Nat} (mem : c ∈ Nat.toDigits 10 n) : c.isDigit = true :=
    Nat.isDigit_of_mem_toDigits (by decide) (by decide) mem
  have zero {n : Nat} (mem : c ∈ List.replicate n '0') : c.isDigit = true := by
    rw [List.eq_of_mem_replicate mem]
    decide
  have padded {n : Nat} (mem : c ∈ List.replicate n '0' ++ Nat.toDigits 10 d.digits) : c.isDigit = true :=
    (List.mem_append.1 mem).elim zero digit
  unfold Decimal.text at mem
  dsimp only at mem
  split at mem
  · exact .inl ((List.mem_append.1 mem).elim digit zero)
  · split at mem
    · exact .inl (padded (List.mem_of_mem_take mem))
    · rcases List.mem_append.1 mem with whole | rest
      · exact .inl (padded (List.mem_of_mem_take whole))
      · rcases List.mem_cons.1 rest with point | fraction
        · exact .inr point
        · exact .inl (padded (List.mem_of_mem_drop (trimZeros_subset _ fraction)))

theorem Decimal.inert_text (d : Decimal) : d.text.Inert := by
  intro c mem
  rcases isDigit_of_mem_text mem with digit | rfl
  · exact Text.isInert_of_isDigit digit
  · decide

theorem inert_text (x : Double) : x.text.Inert := by
  cases x with
  | infinite negative => exact inert_append.2 ⟨inert_sign negative, by decide⟩
  | finite negative mantissa exponent =>
    rw [text]
    split
    · decide
    · exact inert_append.2 ⟨inert_sign negative, Decimal.inert_text _⟩

end Double

namespace Literal

theorem inert_integerText (n : Int) : (integerText n).Inert := by
  cases n with
  | ofNat n => exact Text.inert_toDigits n
  | negSucc n => exact Text.inert_cons.2 ⟨by decide, Text.inert_toDigits _⟩

end Literal
end QueryCode
