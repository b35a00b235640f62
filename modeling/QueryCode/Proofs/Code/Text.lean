import QueryCode.Naming.Identifier
import QueryCode.Proofs.Code.Scanner
import QueryCode.Proofs.Text.Basic

/-!
# Texts of lists and keys

A bracketed list is written as its items with commas between them. A name is written bare or as a string literal, and
its text tells which name it is: no two names have the same key in an object or a hash.
-/

namespace QueryCode
set_option autoImplicit false

namespace Code

/-! ## Lists -/

theorem text_itemsText (item : Code) (items : List Code) :
    text item ++ itemsText items = Text.join ", " ((item :: items).map text) := by
  induction items generalizing item with
  | nil => rw [itemsText, List.append_nil, List.map_singleton, Text.join_singleton]
  | cons next items ih =>
    rw [itemsText, List.append_assoc, ih]
    simp only [List.map_cons, Text.join_cons_cons]

theorem text_list_cons (bracket : Bracket) (padded : Bool) (item : Code) (items : List Code) :
    (list bracket padded (item :: items)).text =
      let pad : Text := if padded then " " else ""
      bracket.left :: pad ++ Text.join ", " ((item :: items).map text) ++ pad ++ [bracket.right] := by
  rw [text, ← text_itemsText]
  simp only [List.append_assoc]

theorem text_list (bracket : Bracket) (items : List Code) :
    (list bracket false items).text = bracket.left :: Text.join ", " (items.map text) ++ [bracket.right] := by
  cases items with
  | nil => rw [text]; rfl
  | cons item items => simp [text_list_cons]

theorem text_args (items : List Code) : (args items).text = '(' :: Text.join ", " (items.map text) ++ [')'] :=
  text_list .round items

theorem text_array (items : List Code) : (array items).text = '[' :: Text.join ", " (items.map text) ++ [']'] :=
  text_list .square items

theorem text_object_nil : (object []).text = "\x7b\x7d".toList := by
  rw [object, text]
  rfl

theorem text_object {items : List Code} (filled : items ≠ []) :
    (object items).text = "\x7b ".toList ++ Text.join ", " (items.map text) ++ " \x7d".toList := by
  cases items with
  | nil => exact absurd rfl filled
  | cons item items => simp [object, text_list_cons, Bracket.left, Bracket.right]

/-! ## String literals -/

theorem escapeChar_cases (c : Char) : escapeChar c = ['\\', c] ∨ (escapeChar c = [c] ∧ c ≠ '\\') := by
  unfold escapeChar
  split
  · exact .inl rfl
  · rename_i plain
    refine .inr ⟨rfl, ?_⟩
    rintro rfl
    exact plain rfl

/-- An escaped character is told from what follows it. -/
theorem escapeChar_append_inj {c d : Char} {s t : Text} (same : escapeChar c ++ s = escapeChar d ++ t) :
    c = d ∧ s = t := by
  rcases escapeChar_cases c with left | ⟨left, plain⟩ <;> rcases escapeChar_cases d with right | ⟨right, plain'⟩ <;>
    rw [left, right] at same
  · simpa using same
  · exact absurd (List.cons.inj same).1.symm plain'
  · exact absurd (List.cons.inj same).1 plain
  · simpa using same

theorem escape_injective : Function.Injective escape := by
  intro s
  induction s with
  | nil =>
    intro t same
    cases t with
    | nil => rfl
    | cons d t => rcases escapeChar_cases d with right | ⟨right, _⟩ <;> simp [escape_cons, right] at same
  | cons c s ih =>
    intro t same
    cases t with
    | nil => rcases escapeChar_cases c with left | ⟨left, _⟩ <;> simp [escape_cons, left] at same
    | cons d t =>
      rw [escape_cons, escape_cons] at same
      obtain ⟨rfl, rest⟩ := escapeChar_append_inj same
      rw [ih rest]

theorem quote_injective : Function.Injective quote := by
  intro s t same
  rw [quote, quote, List.cons_append, List.cons_append, List.cons.injEq, List.append_left_inj] at same
  exact escape_injective same.2

end Code

namespace Naming

/-! ## Keys -/

/-- A bare key starts with a letter or an underscore, any other with a quote. -/
theorem head_key (name : Text) : ∃ c rest, (key name).text = c :: rest ∧ (isPlainStart c = true ∨ c = '"') := by
  unfold key
  split
  · rename_i plain
    cases name with
    | nil => cases plain
    | cons c rest =>
      rw [isIdentifier, Bool.and_eq_true] at plain
      exact ⟨c, rest, by rw [Code.text], .inl plain.1⟩
  · exact ⟨'"', _, by rw [Code.text]; rfl, .inr rfl⟩

theorem identifier_ne_quote {name : Text} (plain : isIdentifier name = true) (other : Text) :
    name ≠ Code.quote other := by
  rintro rfl
  rw [Code.quote, List.cons_append, isIdentifier, Bool.and_eq_true] at plain
  exact absurd plain.1 (by decide)

/-- **The text of a key tells its name.** -/
theorem key_text_injective : Function.Injective fun name => (key name).text := by
  intro s t same
  dsimp only [key] at same
  split at same <;> split at same <;> rename_i left right <;> rw [Code.text, Code.text] at same
  · exact same
  · exact absurd same (identifier_ne_quote left t)
  · exact absurd same.symm (identifier_ne_quote right s)
  · exact Code.quote_injective same

theorem hashKey_text (name : Text) : (hashKey name).text = (key name).text ++ [':'] := by
  show (Code.row [key name, ":"]).text = _
  simp [Code.text, Code.rowText]

theorem hashKey_text_injective : Function.Injective fun name => (hashKey name).text := by
  intro s t same
  dsimp only at same
  rw [hashKey_text, hashKey_text, List.append_left_inj] at same
  exact key_text_injective same

end Naming
end QueryCode
