import QueryCode.Naming.Identifier
import QueryCode.Naming.Noun
import QueryCode.Proofs.Code.Inert
import QueryCode.Proofs.Text.Basic

/-!
# Names without quotes and brackets

A name is written bare only if it is plain, and a model's name is made from that of its table by dropping and
replacing endings and by changing letter case. None of this brings in a quote or a bracket: the endings are
letters, and the table of capital letters has no such character among its images.
-/

namespace QueryCode
set_option autoImplicit false

namespace Naming

/-! ## Bare names -/

theorem isInert_of_isPlain {c : Char} (plain : isPlain c = true) : Scanner.isInert c = true :=
  Scanner.isInert_of_class (by decide) plain

theorem inert_of_isIdentifier {name : Text} (plain : isIdentifier name = true) : name.Inert := by
  match name with
  | [] => cases plain
  | c :: rest =>
    rw [isIdentifier, Bool.and_eq_true, List.all_eq_true] at plain
    have first : isPlain c = true := by rw [isPlain, plain.1, Bool.true_or]
    exact Text.inert_cons.2 ⟨isInert_of_isPlain first, fun d mem => isInert_of_isPlain (plain.2 d mem)⟩

end Naming

/-! ## Letter case -/

namespace Text

/-- The code point is that of no quote and no bracket. -/
def isInertCode (n : Nat) : Bool := Scanner.special.all fun c => c.toNat != n

theorem isInertCode_toNat {c : Char} : isInertCode c.toNat = Scanner.isInert c := by
  rw [Bool.eq_iff_iff]
  simp only [isInertCode, List.all_eq_true, bne_iff_ne, Scanner.isInert, List.contains_eq_mem, Bool.not_eq_true',
    decide_eq_false_iff_not, ne_eq, Char.toNat_inj]
  exact ⟨fun other listed => other c listed rfl, fun absent d listed same => absent (same ▸ listed)⟩

theorem isInert_ofNat {n : Nat} (inert : isInertCode n = true) : Scanner.isInert (Char.ofNat n) = true := by
  by_cases valid : n.isValidChar
  · have same : (Char.ofNat n).toNat = n := by
      rw [Char.ofNat, dif_pos valid]
      rfl
    rw [← isInertCode_toNat, same, inert]
  · rw [Char.ofNat, dif_neg valid]
    decide

/-- There is no quote or bracket between the round and the square ones, between the square and the curly ones, and
above those. -/
theorem isInertCode_of_range {n : Nat} (range : 0x29 < n ∧ n < 0x5B ∨ 0x5D < n ∧ n < 0x7B ∨ 0x7D < n) :
    isInertCode n = true := by
  simp only [isInertCode, Scanner.special, List.all_cons, List.all_nil, Bool.and_true, Bool.and_eq_true, bne_iff_ne]
  refine ⟨?_, ?_, ?_, ?_, ?_, ?_, ?_⟩ <;> simp <;> omega

/-- The images of a run lie above all brackets, or between the round and the square ones. -/
def isInertRun : Nat × Nat × Nat × Nat → Bool
  | (first, last, _, image) => 0x7D < image || (0x29 < image && image + (last - first) < 0x5B)

theorem isInertCode_runImage (runs : List (Nat × Nat × Nat × Nat)) (all : runs.all isInertRun = true) {n : Nat}
    (inert : isInertCode n = true) : isInertCode (runImage runs n) = true := by
  induction runs with
  | nil => exact inert
  | cons run runs ih =>
    obtain ⟨first, last, step, image⟩ := run
    rw [List.all_cons, Bool.and_eq_true] at all
    rw [runImage]
    split
    · exact inert
    split
    · rename_i within
      have bounds := all.1
      simp only [isInertRun, Bool.or_eq_true, Bool.and_eq_true, decide_eq_true_eq] at bounds within
      exact isInertCode_of_range (by omega)
    · exact ih all.2

/-- Capital letters are inert. -/
theorem inert_capital {c : Char} (inert : Scanner.isInert c = true) : Inert (capital c) := by
  unfold capital
  split
  · rename_i form found
    have listed : (longCapitals.all fun entry => entry.2.all isInertCode) = true := by decide
    have codes := forall_lookup listed found
    intro d mem
    obtain ⟨n, part, rfl⟩ := List.mem_map.1 mem
    exact isInert_ofNat (List.all_eq_true.1 codes n part)
  · have image := isInertCode_runImage capitalRuns (by decide) (isInertCode_toNat.trans inert)
    exact inert_cons.2 ⟨isInert_ofNat image, inert_nil⟩

theorem Inert.capitalize {t : Text} (inert : Inert t) : Inert (capitalize t) := by
  match t with
  | [] => exact inert
  | c :: rest =>
    have parts := inert_cons.1 inert
    exact inert_append.2 ⟨inert_capital parts.1, parts.2⟩

theorem isInert_toLower {c : Char} (inert : Scanner.isInert c = true) : Scanner.isInert c.toLower = true := by
  obtain same | ⟨_, low, high⟩ := toLower_cases c
  · rw [same, inert]
  · rw [← isInertCode_toNat]
    exact isInertCode_of_range (by omega)

theorem Inert.lower {t : Text} (inert : Inert t) : Inert (lower t) := by
  intro d mem
  obtain ⟨c, member, rfl⟩ := List.mem_map.1 mem
  exact isInert_toLower (inert c member)

end Text

/-! ## Nouns -/

namespace Naming

/-- The rule puts letters in the place of an ending. -/
def Rule.isLettered : Rule → Bool
  | .ending _ _ _ singular => singular.toList.all Char.isAlpha
  | .start _ _ => true

theorem Rule.mem_singular {rule : Rule} {word result : Text} (lettered : rule.isLettered = true)
    (found : rule.singular? word = some result) {c : Char} (mem : c ∈ result) : c ∈ word ∨ c.isAlpha = true := by
  cases rule with
  | ending whole stems endings singular =>
    obtain ⟨last, _, given⟩ := List.exists_of_findSome?_eq_some found
    split at given
    · dsimp only at given
      split at given
      · cases given
        exact (List.mem_append.1 mem).imp (List.take_subset _ _ ·) (List.all_eq_true.1 lettered c)
      · cases given
    · cases given
  | start stem last =>
    rw [Rule.singular?] at found
    split at found
    · cases found
      exact .inl ((List.mem_append.1 mem).elim (List.take_subset _ _ ·) (List.drop_subset _ _ ·))
    · cases found

theorem mem_singularWord {word : Text} {c : Char} (mem : c ∈ singularWord word) : c ∈ word ∨ c.isAlpha = true := by
  unfold singularWord at mem
  dsimp only at mem
  split at mem
  · exact .inl mem
  split at mem
  · rename_i singular found
    have listed : (irregular.all fun entry => entry.2.toList.all Char.isAlpha
        && (Text.capitalize entry.2.toList).all Char.isAlpha) = true := by decide +kernel
    obtain ⟨plain, capital⟩ := Bool.and_eq_true_iff.1 (Text.forall_lookup listed found)
    split at mem
    · exact .inr (List.all_eq_true.1 capital c mem)
    · exact .inr (List.all_eq_true.1 plain c mem)
  · cases found : rules.findSome? (Rule.singular? word) with
    | none =>
      rw [found] at mem
      exact .inl mem
    | some result =>
      rw [found] at mem
      obtain ⟨rule, member, given⟩ := List.exists_of_findSome?_eq_some found
      have lettered : rules.all Rule.isLettered = true := by decide
      exact Rule.mem_singular (List.all_eq_true.1 lettered rule member) given mem

/-- A singular has the characters of its plural and letters. -/
theorem mem_singular {name : Text} {c : Char} (mem : c ∈ singular name) : c ∈ name ∨ c.isAlpha = true := by
  rcases List.mem_append.1 mem with front | last
  · exact .inl (List.take_subset _ _ front)
  · refine (mem_singularWord last).imp_left fun kept => ?_
    exact List.mem_reverse.1 ((List.takeWhile_sublist _).subset (List.mem_reverse.1 kept))

theorem inert_singular {name : Text} (inert : name.Inert) : (singular name).Inert := by
  intro c mem
  rcases mem_singular mem with kept | letter
  · exact inert c kept
  · exact Scanner.isInert_of_class (by decide) letter

/-- **A model's name is inert if that of its table is.** -/
theorem inert_modelName {table : Text} (inert : table.Inert) : (modelName table).Inert := by
  intro d mem
  obtain ⟨part, member, within⟩ := List.mem_flatMap.1 mem
  have piece := Text.subset_of_mem_pieces (List.mem_filter.1 member).1
  exact ((inert_singular inert).subset piece).lower.capitalize d within

end Naming
end QueryCode
