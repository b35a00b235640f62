import QueryCode.Literal
import QueryCode.Proofs.Code.Strings
import QueryCode.Proofs.Condition.Token

/-!
# Tokens in quotes

A token whose first and last characters are the same quote stands for the text between them, with doubled quotes made
single. A string literal in quotes reaches the code as it is: `string_code_ofToken`. The reader of conditions is
stricter about what a literal is, since a lone quote ends one and a backslash takes the next quote along. The two differ
exactly on the tokens between whose quotes no literal could stand: `unquote_agrees_iff`.
-/

namespace QueryCode
set_option autoImplicit false

namespace Literal

open Condition (Quoted stringLiteral? literalTail?)

/-- The token is `body` between two quotes of one kind. -/
structure InQuotes (token : Text) (quote : Char) (body : Text) : Prop where
  opening : Text.isQuote quote = true
  split : token = quote :: body ++ [quote]

theorem InQuotes.unique {token body body' : Text} {quote quote' : Char} (first : InQuotes token quote body)
    (second : InQuotes token quote' body') : quote = quote' ∧ body = body' := by
  have same : quote :: body ++ [quote] = quote' :: body' ++ [quote'] := first.split.symm.trans second.split
  obtain ⟨rfl, rest⟩ := List.cons.inj same
  exact ⟨rfl, List.append_cancel_right rest⟩

/-! ## Values of quoted tokens -/

theorem InQuotes.unquote {token body : Text} {quote : Char} (enclosed : InQuotes token quote body) :
    unquote? token = some (undouble quote body) := by
  rw [enclosed.split, List.cons_append, unquote?, enclosed.opening, List.getLast?_concat, List.dropLast_concat,
    beq_self_eq_true]
  rfl

theorem unquote_eq_some_iff {token value : Text} :
    unquote? token = some value ↔ ∃ quote body, InQuotes token quote body ∧ undouble quote body = value := by
  constructor
  · intro found
    unfold unquote? at found
    split at found
    · cases found
    · rename_i quote rest
      split at found
      · rename_i ends
        rw [Bool.and_eq_true, beq_iff_eq] at ends
        obtain ⟨body, rfl⟩ := List.getLast?_eq_some_iff.1 ends.2
        rw [List.dropLast_concat] at found
        exact ⟨quote, body, ⟨ends.1, rfl⟩, Option.some.inj found⟩
      · cases found
  · rintro ⟨quote, body, enclosed, rfl⟩
    exact enclosed.unquote

theorem unquote_isSome_iff {token : Text} :
    (unquote? token).isSome = true ↔ ∃ quote body, InQuotes token quote body := by
  rw [Option.isSome_iff_exists]
  constructor
  · rintro ⟨value, found⟩
    obtain ⟨quote, body, enclosed, -⟩ := unquote_eq_some_iff.1 found
    exact ⟨quote, body, enclosed⟩
  · rintro ⟨quote, body, enclosed⟩
    exact ⟨_, enclosed.unquote⟩

/-- The quotes of a token have one byte each. -/
theorem InQuotes.slice {token body : Text} {quote : Char} (enclosed : InQuotes token quote body) :
    Text.slice 1 (Text.size token - 1) token = .ok body := by
  have narrow : quote.utf8Size = 1 := by
    have kinds := enclosed.opening
    simp only [Text.isQuote, Bool.or_eq_true, beq_iff_eq] at kinds
    rcases kinds with rfl | rfl <;> rfl
  have cut := Text.slice_append [quote] body [quote]
  have start : Text.size [quote] = 1 := by rw [Text.size, Text.size, narrow]
  have stop : Text.size ([quote] ++ body) = Text.size token - 1 := by
    rw [enclosed.split, Text.size_append (quote :: body) [quote], start]
    rfl
  rw [start, stop] at cut
  rw [← cut, enclosed.split]
  rfl

theorem length_undouble_le (quote : Char) (t : Text) : (undouble quote t).length ≤ t.length := by
  fun_induction undouble quote t with
  | case1 => exact Nat.le_refl _
  | case2 c => exact Nat.le_refl _
  | case3 c d rest both ih =>
    simp only [List.length_cons]
    omega
  | case4 c d rest other ih =>
    simp only [List.length_cons] at ih ⊢
    omega

/-- Without its quotes a token is shorter. -/
theorem InQuotes.undouble_ne {token body : Text} {quote : Char} (enclosed : InQuotes token quote body) :
    undouble quote body ≠ token := by
  intro same
  have length := congrArg List.length (same.trans enclosed.split)
  have shorter := length_undouble_le quote body
  simp only [List.cons_append, List.length_cons, List.length_append, List.length_nil] at length
  omega

theorem ofNumeric_string {token value : Text} (string : ofNumeric token = .string value) : value = token := by
  unfold ofNumeric at string
  split at string
  · cases string
  · split at string
    · cases string
    · cases string
      rfl

/-- A string is a quoted token without its quotes, or a token as it stands. -/
theorem ofToken_eq_string_iff {raw value : Text} :
    ofToken raw = .string value ∧ value ≠ Text.trim raw ↔ unquote? (Text.trim raw) = some value := by
  constructor
  · rintro ⟨string, other⟩
    unfold ofToken at string
    dsimp only at string
    split at string
    · cases string
    · split at string
      · rename_i inner found
        cases string
        exact found
      · split at string
        · cases string
        · split at string
          · cases string
          · split at string
            · cases string
            · split at string
              · exact absurd (ofNumeric_string string) other
              · cases string
                exact absurd rfl other
  · intro found
    obtain ⟨quote, body, enclosed, rfl⟩ := unquote_eq_some_iff.1 found
    have filled : (Text.trim raw).isEmpty = false := by
      rw [enclosed.split]
      rfl
    refine ⟨?_, enclosed.undouble_ne⟩
    rw [ofToken, filled, found]
    rfl

/-! ## Quoted tokens and literals -/

theorem stringLiteral_whole_iff {token : Text} :
    stringLiteral? token = some (token, []) ↔ ∃ quote body, InQuotes token quote body ∧ Quoted quote body := by
  constructor
  · intro read
    obtain ⟨-, spelled⟩ := Condition.stringLiteral_spelled read
    generalize (unquote? token).getD token = value at spelled
    cases spelled with
    | quoted opening inside => exact ⟨_, _, ⟨opening, rfl⟩, inside⟩
  · rintro ⟨quote, body, ⟨opening, rfl⟩, inside⟩
    have slash : quote ≠ '\\' := by
      rintro rfl
      exact absurd opening (by decide)
    have tail := Condition.literalTail_append inside slash (show ([] : Text).head? ≠ some quote by simp)
    rw [List.cons_append, stringLiteral?, if_pos opening, tail]
    rfl

/-- **Where quotes are taken off and what the scanners take for a literal.** A token that is one literal loses its
quotes. The converse fails exactly if the characters between the quotes could not stand in a literal: then the scanners
see the literal end earlier or not at all, and the token loses its first and last quote all the same. -/
theorem unquote_agrees_iff (token : Text) :
    (stringLiteral? token = some (token, []) → (unquote? token).isSome = true) ∧
    (((unquote? token).isSome = true ↔ stringLiteral? token = some (token, [])) ↔
      ∀ quote body, InQuotes token quote body → Quoted quote body) ∧
    ∀ raw, Text.trim raw = token → ∀ value,
      (ofToken raw = .string value ∧ value ≠ token ↔
        ∃ quote body, InQuotes token quote body ∧ undouble quote body = value) := by
  have whole : stringLiteral? token = some (token, []) → (unquote? token).isSome = true := by
    intro literal
    obtain ⟨quote, body, enclosed, -⟩ := stringLiteral_whole_iff.1 literal
    exact unquote_isSome_iff.2 ⟨quote, body, enclosed⟩
  refine ⟨whole, ⟨?_, ?_⟩, ?_⟩
  · intro same quote body enclosed
    obtain ⟨quote', body', enclosed', inside⟩ :=
      stringLiteral_whole_iff.1 (same.1 (unquote_isSome_iff.2 ⟨quote, body, enclosed⟩))
    obtain ⟨rfl, rfl⟩ := enclosed.unique enclosed'
    exact inside
  · intro inside
    refine ⟨fun present => ?_, whole⟩
    obtain ⟨quote, body, enclosed⟩ := unquote_isSome_iff.1 present
    exact stringLiteral_whole_iff.2 ⟨quote, body, enclosed, inside quote body enclosed⟩
  · rintro raw rfl value
    rw [ofToken_eq_string_iff, unquote_eq_some_iff]

/-- The concatenation of two literals loses the first quote and the last. -/
theorem unquote_agrees_iff_concatenation :
    stringLiteral? "'a' || 'b'" = some ("'a'".toList, " || 'b'".toList) ∧
    ofToken " 'a' || 'b'" = .string "a' || 'b" ∧
    ∃ quote body, InQuotes "'a' || 'b'" quote body ∧ ¬ Quoted quote body := by
  have token : Text.trim " 'a' || 'b'" = "'a' || 'b'" := by decide
  have enclosed : InQuotes "'a' || 'b'" '\'' "a' || 'b" := ⟨by decide, rfl⟩
  have read : stringLiteral? "'a' || 'b'" = some ("'a'".toList, " || 'b'".toList) := by decide
  obtain ⟨-, agree, strips⟩ := unquote_agrees_iff "'a' || 'b'"
  refine ⟨read, ((strips _ token _).2 ⟨_, _, enclosed, by decide⟩).1, '\'', _, enclosed, fun inside => ?_⟩
  have all : ∀ quote body, InQuotes "'a' || 'b'" quote body → Quoted quote body := by
    intro quote body other
    obtain ⟨rfl, rfl⟩ := enclosed.unique other
    exact inside
  have whole := (agree.2 all).1 (unquote_isSome_iff.2 ⟨_, _, enclosed⟩)
  rw [read] at whole
  exact absurd whole (by decide)

/-! ## Strings from tokens to code -/

/-- The text with every quote of this kind doubled. -/
def double (quote : Char) (t : Text) : Text := t.flatMap fun c => if c == quote then [quote, quote] else [c]

theorem double_quote (quote : Char) (t : Text) : double quote (quote :: t) = quote :: quote :: double quote t := by
  simp [double]

theorem double_other {quote c : Char} (other : c ≠ quote) (t : Text) : double quote (c :: t) = c :: double quote t := by
  simp [double, other]

theorem undouble_double (quote : Char) (t : Text) : undouble quote (double quote t) = t := by
  induction t with
  | nil => rfl
  | cons c t ih =>
    by_cases same : c = quote
    · subst same
      rw [double_quote, undouble, ih, beq_self_eq_true]
      rfl
    · rw [double_other same]
      cases tail : double quote t with
      | nil =>
        rw [tail] at ih
        rw [← ih]
        rfl
      | cons d more =>
        rw [undouble, beq_eq_false_iff_ne.2 same, Bool.false_and, ← tail, ih]
        rfl

theorem ofToken_inQuotes {raw body : Text} {quote : Char} (enclosed : InQuotes (Text.trim raw) quote body) :
    ofToken raw = .string (undouble quote body) :=
  (ofToken_eq_string_iff.2 enclosed.unquote).1

/-- **A string literal reaches the code with its value.** The text in quotes, every quote in it doubled and white space
around, is the string of that text. Its code in either language reads back as the text, and the reader stops right
behind it. -/
theorem string_code_ofToken {quote : Char} (opening : Text.isQuote quote = true) {lead trail : Text}
    (before : Text.Blank lead) (after : Text.Blank trail) (t : Text) (target : Target) (rest : Text) :
    let raw := lead ++ (quote :: double quote t ++ [quote]) ++ trail
    ofToken raw = .string t ∧ Code.string? (((ofToken raw).code target).text ++ rest) = some (t, rest) := by
  intro raw
  have solid : Text.isBlank quote = false := by
    simp only [Text.isQuote, Bool.or_eq_true, beq_iff_eq] at opening
    rcases opening with rfl | rfl <;> decide
  have trimmed : Text.trim raw = quote :: double quote t ++ [quote] := by
    rw [Text.trim_append before after]
    refine Text.trim_eq_self solid ?_
    rw [List.getLast?_concat]
    exact solid
  have value : ofToken raw = .string t := by
    rw [ofToken_inQuotes ⟨opening, trimmed⟩, undouble_double]
  refine ⟨value, ?_⟩
  rw [value, code, Code.text]
  exact Code.string_quote t rest

/-- A text that starts with a quote and ends with a backslash and two quotes, in double quotes. -/
theorem string_code_ofToken_edges :
    ofToken " \"\"\"a\\\"\"\"\"\"\n" = .string "\"a\\\"\"" ∧
    Code.string? (((ofToken " \"\"\"a\\\"\"\"\"\"\n").code .activeRecord).text ++ "\")") =
      some ("\"a\\\"\"".toList, "\")".toList) :=
  @string_code_ofToken '"' (by decide) " " "\n" (by decide) (by decide) "\"a\\\"\"" .activeRecord "\")"

end Literal
end QueryCode
