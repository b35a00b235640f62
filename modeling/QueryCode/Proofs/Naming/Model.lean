import QueryCode.Proofs.Naming.Inert
import QueryCode.Proofs.Naming.LetterCase

/-!
# Names of models

A model's name has no underscore, and no other sign that is not in the name of its table. All rules for singulars but the
last leave something of a word; the last one drops a final `s`, and of the word `s` nothing is left. So a model's name is
empty exactly for underscores and for such a word behind underscores: `modelName_eq_nil`.
-/

namespace QueryCode
set_option autoImplicit false

/-! ## Capital letters -/

namespace Text

theorem capital_ne_nil (c : Char) : capital c ≠ [] := by
  unfold capital
  split
  · rename_i form found
    have all : (longCapitals.all fun entry => !entry.2.isEmpty) = true := by decide
    have filled := forall_lookup all found
    intro empty
    rw [List.map_eq_nil_iff.1 empty] at filled
    cases filled
  · exact List.cons_ne_nil _ _

theorem capitalize_eq_nil {t : Text} : capitalize t = [] ↔ t = [] := by
  cases t with
  | nil => exact Iff.rfl
  | cons c t =>
    refine iff_of_false (fun empty => ?_) (List.cons_ne_nil c t)
    exact capital_ne_nil c (List.append_eq_nil_iff.1 empty).1

/-- A printed ASCII character that is no letter. -/
def isSign (c : Char) : Bool := 0x20 < c.toNat && c.toNat < 0x7F && !c.isAlpha

/-- The images of a run are capital letters, or lie beyond all signs. -/
def isCapitalRun : Nat × Nat × Nat × Nat → Bool
  | (first, last, _, image) => 0x7F < image || (0x41 ≤ image && image + (last - first) ≤ 0x5A)

theorem runImage_cases {runs : List (Nat × Nat × Nat × Nat)} (all : runs.all isCapitalRun = true) (n : Nat) :
    runImage runs n = n ∨ 0x7F < runImage runs n ∨ (0x41 ≤ runImage runs n ∧ runImage runs n ≤ 0x5A) := by
  induction runs with
  | nil => exact .inl rfl
  | cons run runs ih =>
    obtain ⟨first, last, step, image⟩ := run
    rw [List.all_cons, Bool.and_eq_true] at all
    rw [runImage]
    split
    · exact .inl rfl
    split
    · rename_i within
      have bounds := all.1
      simp only [isCapitalRun, Bool.or_eq_true, Bool.and_eq_true, decide_eq_true_eq] at bounds within
      omega
    · exact ih all.2

/-- The only sign among the capital forms of a character is the character itself. -/
theorem eq_of_mem_capital {c d : Char} (mem : d ∈ capital c) (sign : isSign d = true) : d = c := by
  unfold capital at mem
  split at mem
  · rename_i form found
    have all : (longCapitals.all fun entry => entry.2.all fun n => !isSign (Char.ofNat n)) = true := by decide
    obtain ⟨n, part, rfl⟩ := List.mem_map.1 mem
    have other := List.all_eq_true.1 (forall_lookup all found) n part
    rw [sign] at other
    cases other
  · obtain rfl := List.mem_singleton.1 mem
    have small : (Char.ofNat (runImage capitalRuns c.toNat)).toNat < 0x7F := by
      simp only [isSign, Bool.and_eq_true, decide_eq_true_eq] at sign
      exact sign.1.2
    rcases runImage_cases (by decide : capitalRuns.all isCapitalRun = true) c.toNat with same | far | capital
    · rw [same, Char.ofNat_toNat]
    · by_cases valid : (runImage capitalRuns c.toNat).isValidChar
      · rw [Char.ofNat, dif_pos valid] at small
        exact absurd small (Nat.not_lt.2 (Nat.le_of_lt far))
      · rw [Char.ofNat, dif_neg valid] at sign
        exact absurd sign (by decide)
    · have all : ((List.range' 0x41 26).all fun n => !isSign (Char.ofNat n)) = true := by decide
      have other := List.all_eq_true.1 all (runImage capitalRuns c.toNat) (List.mem_range'_1.2 (by omega))
      rw [sign] at other
      cases other

theorem mem_of_mem_capitalize {t : Text} {d : Char} (mem : d ∈ capitalize t) (sign : isSign d = true) : d ∈ t := by
  cases t with
  | nil => exact mem
  | cons c t =>
    rcases List.mem_append.1 mem with first | rest
    · exact eq_of_mem_capital first sign ▸ List.mem_cons_self
    · exact List.mem_cons_of_mem c rest

theorem mem_of_mem_lower {t : Text} {d : Char} (mem : d ∈ lower t) (sign : isSign d = true) : d ∈ t := by
  obtain ⟨c, member, rfl⟩ := List.mem_map.1 mem
  have own : (!isSign c.toLower || c == c.toLower) = true :=
    forall_toLower (p := fun c d => !isSign d || c == d) (fun c _ => by simp) (by decide) c
  rw [sign, Bool.not_true, Bool.false_or, beq_iff_eq] at own
  rwa [← own]

/-! ## Words between underscores -/

theorem not_mem_of_mem_pieces {sep : Char} {t piece : Text} (mem : piece ∈ pieces sep t) : sep ∉ piece := by
  induction t generalizing piece with
  | nil =>
    obtain rfl := List.mem_singleton.1 mem
    exact List.not_mem_nil
  | cons c rest ih =>
    rw [pieces] at mem
    split at mem
    · rcases List.mem_cons.1 mem with rfl | later
      · exact List.not_mem_nil
      · exact ih later
    · rename_i other
      have own : sep ≠ c := fun same => other (beq_iff_eq.2 same.symm)
      split at mem
      · obtain rfl := List.mem_singleton.1 mem
        exact List.not_mem_cons_of_ne_of_not_mem own List.not_mem_nil
      · rename_i first more split
        rw [split] at ih
        rcases List.mem_cons.1 mem with rfl | later
        · exact List.not_mem_cons_of_ne_of_not_mem own (ih List.mem_cons_self)
        · exact ih (List.mem_cons_of_mem first later)

/-- All pieces are empty exactly if there is nothing but separators. -/
theorem pieces_all_nil {sep : Char} {t : Text} : (∀ piece ∈ pieces sep t, piece = []) ↔ ∀ c ∈ t, c = sep := by
  induction t with
  | nil => simp [pieces]
  | cons c rest ih =>
    rw [pieces, List.forall_mem_cons]
    split
    · rename_i same
      rw [List.forall_mem_cons, ih]
      exact ⟨fun all => ⟨beq_iff_eq.1 same, all.2⟩, fun all => ⟨rfl, all.2⟩⟩
    · rename_i other
      have own : c ≠ sep := fun same => other (beq_iff_eq.2 same)
      refine iff_of_false (fun absent => ?_) fun all => own all.1
      split at absent
      · exact List.cons_ne_nil _ _ (absent _ List.mem_cons_self)
      · exact List.cons_ne_nil _ _ (absent _ List.mem_cons_self)

theorem fold_eq_s {c : Char} : fold c = 's' ↔ c ∈ ['s', 'S', 'ſ'] := by
  constructor
  · intro same
    have listed : (fold c != 's' || ['s', 'S', 'ſ'].contains c) = true :=
      forall_fold (p := fun c => fold c != 's' || ['s', 'S', 'ſ'].contains c) (by decide +kernel) (by rw [same]; decide)
    rw [same, bne_self_eq_false, Bool.false_or] at listed
    exact List.contains_iff_mem.1 listed
  · intro listed
    have all : (['s', 'S', 'ſ'].all fun c => fold c == 's') = true := by decide
    exact eq_of_beq (List.all_eq_true.1 all c listed)

end Text

/-! ## Singulars of whole words -/

namespace Naming

/-- The rule leaves something of every word. -/
def Rule.keeps : Rule → Bool
  | .ending whole stems _ singular => !singular.toList.isEmpty || stems.all fun stem => !stem.fits whole []
  | .start stem _ => !stem.toList.isEmpty

theorem Rule.singular_ne_nil {rule : Rule} {word result : Text} (keeps : rule.keeps = true)
    (found : rule.singular? word = some result) : result ≠ [] := by
  rintro rfl
  cases rule with
  | ending whole stems endings singular =>
    obtain ⟨last, -, given⟩ := List.exists_of_findSome?_eq_some found
    split at given
    · dsimp only at given
      split at given
      · rename_i fits
        obtain ⟨taken, dropped⟩ := List.append_eq_nil_iff.1 (Option.some.inj given)
        rw [← List.map_take, taken, List.map_nil, List.any_eq_true] at fits
        obtain ⟨stem, listed, fits⟩ := fits
        rw [Rule.keeps, dropped, List.isEmpty_nil, Bool.not_true, Bool.false_or] at keeps
        have empty := List.all_eq_true.1 keeps stem listed
        rw [fits] at empty
        cases empty
      · cases given
    · cases given
  | start stem last =>
    rw [Rule.singular?] at found
    split at found
    · rename_i starts
      obtain ⟨taken, -⟩ := List.append_eq_nil_iff.1 (Option.some.inj found)
      have long := (List.isPrefixOf_iff_prefix.1 starts).length_le
      have short := congrArg List.length taken
      rw [Rule.keeps, Bool.not_eq_true', List.isEmpty_eq_false_iff, ← List.length_pos_iff] at keeps
      rw [List.length_append, List.length_map] at long
      rw [List.length_take, List.length_nil] at short
      omega
    · cases found

/-- The rule that drops a final `s`. -/
def dropS : Rule := .ending false [.letters ""] ["s"] ""

theorem rules_eq : rules = rules.dropLast ++ [dropS] := rfl

theorem dropS_eq_nil {word : Text} (found : dropS.singular? word = some []) : ∃ c ∈ ['s', 'S', 'ſ'], word = [c] := by
  obtain ⟨last, listed, given⟩ := List.exists_of_findSome?_eq_some found
  obtain rfl := List.mem_singleton.1 listed
  split at given
  · rename_i ends
    dsimp only at given
    split at given
    · obtain ⟨taken, -⟩ := List.append_eq_nil_iff.1 (Option.some.inj given)
      obtain ⟨front, whole⟩ := List.isSuffixOf_iff_suffix.1 ends
      have short := congrArg List.length taken
      have long := congrArg List.length whole
      rw [List.length_append, List.length_map] at long
      rw [List.length_take] at short
      change front.length + 1 = word.length at long
      change min (word.length - 1) word.length = 0 at short
      obtain ⟨c, rfl⟩ := List.length_eq_one_iff.1 (show word.length = 1 by omega)
      obtain rfl := List.length_eq_zero_iff.1 (show front.length = 0 by omega)
      exact ⟨c, Text.fold_eq_s.1 (List.singleton_inj.1 whole).symm, rfl⟩
    · cases given
  · cases given

/-- **Nothing is left of the word `s`, in any letter case, and of no other word.** -/
theorem singularWord_eq_nil {word : Text} : singularWord word = [] ↔ word = [] ∨ ∃ c ∈ ['s', 'S', 'ſ'], word = [c] := by
  constructor
  · intro bare
    unfold singularWord at bare
    dsimp only at bare
    split at bare
    · exact .inl bare
    split at bare
    · rename_i singular found
      have all : (irregular.all fun entry => !entry.2.toList.isEmpty) = true := by decide
      have filled := Text.forall_lookup all found
      have empty : singular.toList = [] := by
        split at bare
        · exact Text.capitalize_eq_nil.1 bare
        · exact bare
      rw [empty] at filled
      cases filled
    · cases found : rules.findSome? (Rule.singular? word) with
      | none =>
        rw [found] at bare
        exact .inl bare
      | some result =>
        rw [found] at bare
        obtain rfl : result = [] := bare
        obtain ⟨rule, listed, given⟩ := List.exists_of_findSome?_eq_some found
        rw [rules_eq, List.mem_append, List.mem_singleton] at listed
        rcases listed with earlier | rfl
        · have keeps : rules.dropLast.all Rule.keeps = true := by decide
          exact absurd rfl (Rule.singular_ne_nil (List.all_eq_true.1 keeps rule earlier) given)
        · exact .inr (dropS_eq_nil given)
  · rintro (rfl | ⟨c, listed, rfl⟩)
    · rfl
    · have all : (['s', 'S', 'ſ'].all fun c => singularWord [c] == []) = true := by decide +kernel
      exact eq_of_beq (List.all_eq_true.1 all c listed)

/-! ## Singulars of names -/

theorem singular_append {front last : Text} (ends : front.getLast?.any (· != '_') = false) (plain : '_' ∉ last) :
    singular (front ++ last) = front ++ singularWord last := by
  have found : ((front ++ last).reverse.takeWhile (· != '_')).reverse = last := by
    rw [List.reverse_append, Text.takeWhile_run, List.reverse_reverse]
    · intro c mem
      rw [bne_iff_ne]
      rintro rfl
      exact plain (List.mem_reverse.1 mem)
    · rw [List.head?_reverse]
      exact ends
  unfold singular
  dsimp only
  rw [found, List.length_append, Nat.add_sub_cancel, List.take_left]

/-- A name is its last word behind what ends in an underscore. -/
theorem exists_last_word (name : Text) :
    ∃ front last, name = front ++ last ∧ front.getLast?.any (· != '_') = false ∧ '_' ∉ last := by
  refine ⟨(name.reverse.dropWhile (· != '_')).reverse, (name.reverse.takeWhile (· != '_')).reverse, ?_, ?_, ?_⟩
  · rw [← List.reverse_append, List.takeWhile_append_dropWhile, List.reverse_reverse]
  · rw [List.getLast?_reverse]
    have first := List.head?_dropWhile_not (· != '_') name.reverse
    cases start : (name.reverse.dropWhile (· != '_')).head? with
    | none => rfl
    | some c =>
      rw [start] at first
      exact first
  · intro mem
    have other := List.mem_takeWhile_imp (List.mem_reverse.1 mem)
    revert other
    decide

/-- Of underscores alone, a text without any is empty. -/
theorem eq_nil_of_underscores {t : Text} (all : ∀ c ∈ t, c = '_') (plain : '_' ∉ t) : t = [] := by
  rw [List.eq_nil_iff_forall_not_mem]
  intro c mem
  exact plain (all c mem ▸ mem)

/-- The name is the letter `s`, in any letter case, behind underscores. -/
def IsLoneS (table : Text) : Prop := ∃ n, ∃ c ∈ ['s', 'S', 'ſ'], table = List.replicate n '_' ++ [c]

theorem singular_underscores {table : Text} :
    (∀ c ∈ singular table, c = '_') ↔ (∀ c ∈ table, c = '_') ∨ IsLoneS table := by
  have bare (word : Text) (plain : '_' ∉ word) : '_' ∉ singularWord word := by
    intro mem
    rcases mem_singularWord mem with kept | letter
    · exact plain kept
    · revert letter
      decide
  constructor
  · obtain ⟨front, last, rfl, ends, plain⟩ := exists_last_word table
    rw [singular_append ends plain, List.forall_mem_append]
    rintro ⟨before, word⟩
    have empty : singularWord last = [] := eq_nil_of_underscores word (bare last plain)
    rcases singularWord_eq_nil.1 empty with rfl | ⟨c, listed, rfl⟩
    · left
      rwa [List.append_nil]
    · right
      exact ⟨front.length, c, listed, congrArg (· ++ [c]) (List.eq_replicate_iff.2 ⟨rfl, before⟩)⟩
  · rintro (all | ⟨n, c, listed, rfl⟩)
    · obtain ⟨front, last, rfl, ends, plain⟩ := exists_last_word table
      rw [List.forall_mem_append] at all
      rw [singular_append ends plain, eq_nil_of_underscores all.2 plain, singularWord_eq_nil.2 (.inl rfl), List.append_nil]
      exact all.1
    · have plain : '_' ∉ [c] := by
        intro mem
        obtain rfl := List.mem_singleton.1 mem
        revert listed
        decide
      have ends : (List.replicate n '_').getLast?.any (· != '_') = false := by
        rw [List.getLast?_replicate]
        split <;> rfl
      rw [singular_append ends plain, singularWord_eq_nil.2 (.inr ⟨c, listed, rfl⟩), List.append_nil]
      exact fun d mem => List.eq_of_mem_replicate mem

/-! ## Models -/

/-- **A model's name is empty for underscores and for a lone `s` behind them, and for no other table.** -/
theorem modelName_eq_nil {table : Text} : modelName table = [] ↔ (∀ c ∈ table, c = '_') ∨ IsLoneS table := by
  rw [← singular_underscores, ← Text.pieces_all_nil, modelName, List.flatMap_eq_nil_iff]
  refine forall_congr' fun part => ?_
  rw [List.mem_filter, Text.capitalize_eq_nil, Text.lower, List.map_eq_nil_iff, and_imp]
  refine imp_congr_right fun _ => ?_
  cases part <;> simp

/-- **The signs in a model's name are those of its table, but for the underscores.** -/
theorem mem_of_mem_modelName {table : Text} {d : Char} (mem : d ∈ modelName table) (sign : Text.isSign d = true) :
    d ∈ table ∧ d ≠ '_' := by
  obtain ⟨part, member, within⟩ := List.mem_flatMap.1 mem
  have piece := (List.mem_filter.1 member).1
  have kept := Text.mem_of_mem_lower (Text.mem_of_mem_capitalize within sign) sign
  constructor
  · rcases mem_singular (Text.subset_of_mem_pieces piece kept) with own | letter
    · exact own
    · rw [Text.isSign, letter, Bool.not_true, Bool.and_false] at sign
      cases sign
  · rintro rfl
    exact Text.not_mem_of_mem_pieces piece kept

end Naming
end QueryCode
