import QueryCode.Proofs.Code.Strings
import QueryCode.Proofs.Literal
import QueryCode.Proofs.Naming.Inert
import QueryCode.Proofs.Text.Ban

/-!
# Clean code

Code is clean of a ban if its words are inert and no string in it holds anything banned. What remains for each writer
is to say that its words have no quotes and brackets and that the texts it makes strings of avoid the ban.
-/

namespace QueryCode
set_option autoImplicit false

namespace Code

variable {ban : Text.Ban}

/-- The words of the code are inert, and its strings hold nothing banned. -/
structure Clean (ban : Text.Ban) (code : Code) : Prop where
  inert : code.Inert
  strings : ∀ t ∈ code.strings, t.Avoids ban

theorem allStrings_eq_flatMap (parts : List Code) : allStrings parts = parts.flatMap strings := by
  induction parts with
  | nil => rw [allStrings, List.flatMap_nil]
  | cons part parts ih => rw [allStrings, ih, List.flatMap_cons]

theorem forall_clean_iff {parts : List Code} :
    (∀ part ∈ parts, part.Clean ban) ↔ AllInert parts ∧ ∀ t ∈ allStrings parts, t.Avoids ban := by
  rw [allInert_iff, allStrings_eq_flatMap, List.forall_mem_flatMap]
  constructor
  · exact fun clean => ⟨fun part mem => (clean part mem).inert, fun part mem => (clean part mem).strings⟩
  · exact fun both part mem => ⟨both.1 part mem, both.2 part mem⟩

@[simp] theorem clean_word {t : Text} : Clean ban (.word t) ↔ t.Inert where
  mp := fun clean => clean.inert
  mpr := fun inert => ⟨inert, fun _ mem => absurd mem List.not_mem_nil⟩

@[simp] theorem clean_number (n : Nat) : Clean ban (number n) := clean_word.2 (Text.inert_toDigits n)

@[simp] theorem clean_quoted {t : Text} : Clean ban (.quoted t) ↔ t.Avoids ban where
  mp := fun clean => clean.strings t (List.mem_singleton_self t)
  mpr := fun avoids => ⟨inert_quoted t, List.forall_mem_singleton.2 avoids⟩

@[simp] theorem clean_row {parts : List Code} : Clean ban (.row parts) ↔ ∀ part ∈ parts, Clean ban part :=
  ⟨fun clean => forall_clean_iff.2 ⟨clean.inert, clean.strings⟩, fun each =>
    ⟨(forall_clean_iff.1 each).1, (forall_clean_iff.1 each).2⟩⟩

@[simp] theorem clean_list {bracket : Bracket} {padded : Bool} {items : List Code} :
    Clean ban (.list bracket padded items) ↔ ∀ item ∈ items, Clean ban item :=
  ⟨fun clean => forall_clean_iff.2 ⟨clean.inert, clean.strings⟩, fun each =>
    ⟨(forall_clean_iff.1 each).1, (forall_clean_iff.1 each).2⟩⟩

@[simp] theorem clean_append {a b : Code} : Clean ban (a ++ b) ↔ Clean ban a ∧ Clean ban b := by
  show Clean ban (.row [a, b]) ↔ _
  rw [clean_row, List.forall_mem_cons, List.forall_mem_singleton]

@[simp] theorem clean_args {items : List Code} : Clean ban (args items) ↔ ∀ item ∈ items, Clean ban item := clean_list

@[simp] theorem clean_array {items : List Code} : Clean ban (array items) ↔ ∀ item ∈ items, Clean ban item := clean_list

@[simp] theorem clean_object {fields : List Code} : Clean ban (object fields) ↔ ∀ field ∈ fields, Clean ban field :=
  clean_list

@[simp] theorem clean_options {fields : List Code} : Clean ban (options fields) ↔ ∀ field ∈ fields, Clean ban field :=
  clean_list

@[simp] theorem clean_call {name : String} {items : List Code} :
    Clean ban (call name items) ↔ Text.Inert name.toList ∧ ∀ item ∈ items, Clean ban item := by
  simp [call]

end Code

namespace Naming

variable {ban : Text.Ban} {name : Text} (avoids : name.Avoids ban)
include avoids

theorem clean_symbol : (symbol name).Clean ban := by
  unfold symbol
  split
  · rename_i plain
    exact Code.clean_word.2 (Text.inert_cons.2 ⟨by decide, inert_of_isIdentifier plain⟩)
  · exact Code.clean_quoted.2 avoids

theorem clean_key : (key name).Clean ban := by
  unfold key
  split
  · rename_i plain
    exact Code.clean_word.2 (inert_of_isIdentifier plain)
  · exact Code.clean_quoted.2 avoids

theorem clean_hashKey : (hashKey name).Clean ban := by
  rw [hashKey, Code.clean_append]
  exact ⟨clean_key avoids, Code.clean_word.2 (by decide)⟩

end Naming
end QueryCode
