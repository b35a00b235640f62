import QueryCode.Proofs.Text.Word
import QueryCode.Statement.Association

/-!
# Singulars in any letter case

The rules for singulars compare folded letters, the irregular words are looked up in lower case, and all that is put in
the place of an ending is in lower case. So the singular of a name in lower case is the singular in lower case, and two
spellings of one table share their model and their conventional key: `singular_ignores_case`.
-/

namespace QueryCode
set_option autoImplicit false

/-! ## Lower case -/

namespace Text

/-- A relation to the lower case is checked for the characters below 128; all others are their own lower case. -/
theorem forall_toLower {p : Char → Char → Bool} (own : ∀ c, c.toLower = c → p c c = true)
    (check : (List.range 128).all (fun n => p (Char.ofNat n) (Char.ofNat n).toLower) = true) (c : Char) :
    p c c.toLower = true := by
  rcases toLower_cases c with same | ⟨ascii, -, -⟩
  · rw [same]
    exact own c same
  · exact forall_ascii (p := fun c => p c c.toLower) check (Nat.lt_succ_of_le (UInt32.le_iff_toNat_le.1 ascii))

theorem fold_toLower (c : Char) : fold c.toLower = fold c :=
  eq_of_beq (forall_toLower (p := fun c d => fold d == fold c) (fun c _ => beq_self_eq_true (fold c)) (by decide) c)

theorem toLower_toLower (c : Char) : c.toLower.toLower = c.toLower :=
  eq_of_beq (forall_toLower (p := fun _ d => d.toLower == d) (fun _ same => beq_iff_eq.2 same) (by decide) c)

theorem toLower_beq_underscore (c : Char) : (c.toLower == '_') = (c == '_') :=
  eq_of_beq (forall_toLower (p := fun c d => (d == '_') == (c == '_')) (fun c _ => beq_self_eq_true (c == '_')) (by decide) c)

theorem lower_append (s t : Text) : lower (s ++ t) = lower s ++ lower t := List.map_append

theorem lower_take (n : Nat) (t : Text) : lower (t.take n) = (lower t).take n := List.map_take

theorem lower_drop (n : Nat) (t : Text) : lower (t.drop n) = (lower t).drop n := List.map_drop

theorem length_lower (t : Text) : (lower t).length = t.length := List.length_map _

@[simp] theorem lower_lower (t : Text) : lower (lower t) = lower t := by
  rw [lower, lower, List.map_map]
  exact List.map_congr_left fun c _ => toLower_toLower c

theorem map_fold_lower (t : Text) : (lower t).map fold = t.map fold := by
  rw [lower, List.map_map]
  exact List.map_congr_left fun c _ => fold_toLower c

/-- The words of a name are found in any letter case. -/
theorem pieces_lower (t : Text) : pieces '_' (lower t) = (pieces '_' t).map lower := by
  induction t with
  | nil => rfl
  | cons c rest ih =>
    change pieces '_' (c.toLower :: lower rest) = _
    rw [pieces, pieces, toLower_beq_underscore, ih]
    split
    · rfl
    · cases pieces '_' rest <;> rfl

end Text

/-! ## Singulars -/

namespace Naming

open Text (lower)

/-- The rule puts lower case in the place of an ending. -/
def Rule.isLower : Rule → Bool
  | .ending _ _ _ singular => lower singular == singular.toList
  | .start _ _ => true

/-- A rule applies in any letter case, and gives one singular. -/
theorem Rule.singular_lower {rule : Rule} (low : rule.isLower = true) (word : Text) :
    rule.singular? (lower word) = (rule.singular? word).map lower := by
  cases rule with
  | ending whole stems endings singular =>
    have kept : lower singular = singular.toList := eq_of_beq low
    simp only [Rule.singular?, Text.map_fold_lower, Text.length_lower]
    rw [List.map_findSome?]
    refine congrArg (endings.findSome? ·) (funext fun last => ?_)
    rw [Function.comp_apply]
    split
    · split
      · rw [Option.map_some, Text.lower_append, Text.lower_take, kept]
      · rfl
    · rfl
  | start stem last =>
    rw [Rule.singular?, Rule.singular?, Text.map_fold_lower]
    split
    · rw [Option.map_some, Text.lower_append, Text.lower_take, Text.lower_drop]
    · rfl

/-- An irregular singular is in lower case, and capitalising it changes nothing but the letter case. -/
theorem lower_irregular {plural singular : String} (found : irregular.lookup plural = some singular) :
    lower singular = singular.toList ∧ lower (Text.capitalize singular) = singular.toList := by
  have all : (irregular.all fun entry => lower entry.2 == entry.2.toList &&
      lower (Text.capitalize entry.2) == entry.2.toList) = true := by decide +kernel
  obtain ⟨plain, capital⟩ := Bool.and_eq_true_iff.1 (Text.forall_lookup all found)
  exact ⟨eq_of_beq plain, eq_of_beq capital⟩

theorem isUpper_head_lower (word : Text) : (lower word).head?.any Char.isUpper = false := by
  have own (c : Char) (same : c.toLower = c) : (!c.isUpper) = true := by
    by_contra upper
    rw [Bool.not_eq_true, Bool.not_eq_false'] at upper
    have range : c.val ≥ 65 ∧ c.val ≤ 90 := of_decide_eq_true upper
    have moved : (!c.isUpper || c.toLower != c) = true :=
      Text.forall_ascii (p := fun c => !c.isUpper || c.toLower != c) (by decide)
        (lt_of_le_of_lt (UInt32.le_iff_toNat_le.1 range.2) (by decide))
    rw [upper, same] at moved
    simp at moved
  cases word with
  | nil => rfl
  | cons c word =>
    have held : (!c.toLower.isUpper) = true := Text.forall_toLower (p := fun _ d => !d.isUpper) own (by decide) c
    rw [Bool.not_eq_true'] at held
    exact held

/-- The first rule that applies is the same in any letter case. -/
theorem findSome_singular_lower {rules : List Rule} (low : rules.all Rule.isLower = true) (word : Text) :
    rules.findSome? (Rule.singular? (lower word)) = (rules.findSome? (Rule.singular? word)).map lower := by
  induction rules with
  | nil => rfl
  | cons rule rules ih =>
    rw [List.all_cons, Bool.and_eq_true] at low
    rw [List.findSome?_cons, List.findSome?_cons, Rule.singular_lower low.1]
    cases rule.singular? word with
    | some singular => rfl
    | none => exact ih low.2

/-- The singular of a word does not depend on letter case. -/
theorem singularWord_lower (word : Text) : singularWord (lower word) = lower (singularWord word) := by
  have empty : (lower word).isEmpty = word.isEmpty := by cases word <;> rfl
  unfold singularWord
  dsimp only
  rw [Text.lower_lower, isUpper_head_lower, empty]
  split
  · rfl
  · split
    · rename_i singular found
      obtain ⟨plain, capital⟩ := lower_irregular found
      rw [if_neg Bool.false_ne_true]
      split
      · exact capital.symm
      · exact plain.symm
    · rw [findSome_singular_lower (by decide)]
      cases rules.findSome? (Rule.singular? word) <;> rfl

theorem takeWhile_lower (t : Text) : (lower t).takeWhile (· != '_') = lower (t.takeWhile (· != '_')) := by
  rw [lower, List.takeWhile_map]
  congr 2
  funext c
  rw [Function.comp_apply, bne, bne, Text.toLower_beq_underscore]

theorem singular_lower (name : Text) : singular (lower name) = lower (singular name) := by
  have turned : (lower name).reverse = lower name.reverse := List.map_reverse.symm
  have last : ((lower name).reverse.takeWhile (· != '_')).reverse = lower (name.reverse.takeWhile (· != '_')).reverse := by
    rw [turned, takeWhile_lower]
    exact List.map_reverse.symm
  unfold singular
  dsimp only
  rw [last, Text.length_lower, Text.length_lower, singularWord_lower, Text.lower_append, Text.lower_take]

theorem modelName_lower (table : Text) : modelName (lower table) = modelName table := by
  have same : (fun part : Text => !part.isEmpty) ∘ lower = fun part => !part.isEmpty := by
    funext part
    cases part <;> rfl
  unfold modelName
  rw [singular_lower, Text.pieces_lower, List.filter_map, List.flatMap_map, same]
  simp only [Text.lower_lower]

/-- **Letter case makes no difference to singulars, models and keys.** The singular in lower case is the singular of the
name in lower case, and so is the model. Two spellings of one table have the same model, and a column in any spelling
refers to the rows of both or of neither. -/
theorem singular_ignores_case (table : Text) :
    lower (singular table) = singular (lower table) ∧ modelName table = modelName (lower table) ∧
      ∀ other, Text.sameWord table other = true →
        modelName table = modelName other ∧
          ∀ column column', Text.sameWord column column' = true →
            Association.isForeignKey column table = Association.isForeignKey column' other := by
  refine ⟨(singular_lower table).symm, (modelName_lower table).symm, fun other same => ?_⟩
  have letters : lower table = lower other := eq_of_beq same
  have singulars : lower (singular table) = lower (singular other) := by
    rw [← singular_lower, letters, singular_lower]
  refine ⟨by rw [← modelName_lower table, letters, modelName_lower], fun column column' spelled => ?_⟩
  have columns : lower column = lower column' := eq_of_beq spelled
  rw [Association.isForeignKey, Association.isForeignKey, Text.sameWord, Text.sameWord, Text.lower_append, Text.lower_append,
    singulars, columns]

/-- An irregular word behind an underscore, and a word with a rule of its own. -/
theorem singular_ignores_case_irregular :
    Text.sameWord "Sales_PEOPLE" "sales_people" = true ∧
      singular "Sales_PEOPLE" = "Sales_Person".toList ∧ modelName "Sales_PEOPLE" = modelName "sales_people" ∧
      Text.sameWord "INDEX_ID" "index_Id" = true ∧ Text.sameWord "INDICES" "Indices" = true ∧
      Association.isForeignKey "INDEX_ID" "INDICES" = true ∧ Association.isForeignKey "index_Id" "Indices" = true := by
  have people : Text.sameWord "Sales_PEOPLE" "sales_people" = true := by decide
  have columns : Text.sameWord "INDEX_ID" "index_Id" = true := by decide
  have tables : Text.sameWord "INDICES" "Indices" = true := by decide
  have key : Association.isForeignKey "INDEX_ID" "INDICES" = true := by decide +kernel
  have models := ((singular_ignores_case _).2.2 _ people).1
  have keys := ((singular_ignores_case _).2.2 _ tables).2 _ _ columns
  exact ⟨people, by decide +kernel, models, columns, tables, key, keys ▸ key⟩

end Naming
end QueryCode
