import Mathlib.Data.List.Nodup
import QueryCode.Proofs.Code.Text
import QueryCode.Proofs.Partition
import QueryCode.Proofs.Relation.Filter

/-!
# Equalities spread over hashes

A hash keeps only the last of two equal keys, so the equalities of one field have to stand in different hashes. They are
placed one after the other, each in the first hash without its field. `layer` says which those are without looking at
hashes: an equality goes to the hash whose number is the count of equalities of the same field before it.
`consolidated_text_layers` says that the calls for a list of comparisons are written so, followed by the inequalities
and one template for all the others, and that every equality is written once.
-/

namespace QueryCode
set_option autoImplicit false

namespace Relation

/-! ## Layers of a list -/

section Layers

variable {α : Type} (field : α → Text)

/-- How many items are on a field. -/
def count (items : List α) (name : Text) : Nat := items.countP fun item => field item == name

/-- The items that have exactly `k` items of the same field before them. -/
def layer (items : List α) (k : Nat) : List α :=
  (items.zipIdx.filter fun place => count field (items.take place.2) (field place.1) == k).map Prod.fst

/-- The largest number of items on one field. -/
def largest (items : List α) : Nat := (items.map fun item => count field items (field item)).foldr max 0

/-- All layers, from the first items of their fields on. -/
def layers (items : List α) : List (List α) := (List.range (largest field items)).map (layer field items)

variable {field}

theorem count_append (items : List α) (item : α) (name : Text) :
    count field (items ++ [item]) name = count field items name + if field item = name then 1 else 0 := by
  rw [count, List.countP_append, count, List.countP_singleton]
  simp

/-- One more item comes last in the layer of its number. -/
theorem layer_append (items : List α) (item : α) (k : Nat) :
    layer field (items ++ [item]) k =
      layer field items k ++ if count field items (field item) = k then [item] else [] := by
  have before : ((items.zipIdx).filter fun place => count field ((items ++ [item]).take place.2) (field place.1) == k) =
      (items.zipIdx).filter fun place => count field (items.take place.2) (field place.1) == k := by
    apply List.filter_congr
    intro place mem
    have inside := List.snd_lt_of_mem_zipIdx mem
    rw [List.take_append_of_le_length (by omega)]
  rw [layer, List.zipIdx_append, List.filter_append, List.map_append, before, layer]
  congr 1
  by_cases last : count field items (field item) = k <;> simp [last]

/-- A layer has an item on a field exactly if the field has more items than the number of the layer. -/
theorem exists_mem_layer {items : List α} {k : Nat} {name : Text} :
    (∃ item ∈ layer field items k, field item = name) ↔ k < count field items name := by
  induction items using List.reverseRecOn with
  | nil => simp [layer, count]
  | append_singleton items item ih =>
    have split : (∃ other ∈ layer field (items ++ [item]) k, field other = name) ↔
        (∃ other ∈ layer field items k, field other = name) ∨
          (count field items (field item) = k ∧ field item = name) := by
      rw [layer_append]
      simp only [List.mem_append, or_and_right, exists_or]
      refine or_congr_right ?_
      split <;> rename_i last <;> simp [last]
    rw [split, ih, count_append]
    by_cases same : field item = name
    · subst same
      simp only [and_true, if_true]
      omega
    · simp [same]

/-- No field occurs twice in a layer. -/
theorem nodup_layer (items : List α) (k : Nat) : ((layer field items k).map field).Nodup := by
  induction items using List.reverseRecOn with
  | nil => simp [layer]
  | append_singleton items item ih =>
    rw [layer_append, List.map_append, List.nodup_append]
    refine ⟨ih, by split <;> simp, ?_⟩
    intro name first other last same
    split at last
    · rename_i number
      obtain ⟨earlier, mem, rfl⟩ := List.mem_map.1 first
      rw [List.map_singleton, List.mem_singleton] at last
      have more := exists_mem_layer.1 ⟨earlier, mem, same.trans last⟩
      omega
    · cases last

theorem largest_le {items : List α} {n : Nat} :
    largest field items ≤ n ↔ ∀ item ∈ items, count field items (field item) ≤ n := by
  have bound (numbers : List Nat) : numbers.foldr max 0 ≤ n ↔ ∀ m ∈ numbers, m ≤ n := by
    induction numbers with
    | nil => simp
    | cons m numbers ih => rw [List.foldr_cons, Nat.max_le, ih, List.forall_mem_cons]
  rw [largest, bound, List.forall_mem_map]

theorem mem_of_mem_layer {items : List α} {item : α} {k : Nat} (mem : item ∈ layer field items k) : item ∈ items := by
  obtain ⟨place, kept, rfl⟩ := List.mem_map.1 mem
  exact List.fst_mem_of_mem_zipIdx (List.mem_filter.1 kept).1

/-- The layers that have items are those below the largest number of items on one field. -/
theorem layer_eq_nil {items : List α} {k : Nat} : layer field items k = [] ↔ largest field items ≤ k := by
  rw [largest_le, List.eq_nil_iff_forall_not_mem]
  constructor
  · intro absent item _
    by_contra more
    obtain ⟨other, mem, _⟩ := exists_mem_layer.2 (Nat.lt_of_not_le more)
    exact absent other mem
  · intro few item mem
    have more := exists_mem_layer.1 ⟨item, mem, rfl⟩
    have most := few item (mem_of_mem_layer mem)
    omega

theorem getElem?_layers (items : List α) (k : Nat) :
    (layers field items)[k]? = if layer field items k = [] then none else some (layer field items k) := by
  rw [layers, List.getElem?_map]
  by_cases empty : layer field items k = []
  · rw [if_pos empty, List.getElem?_eq_none (by rw [List.length_range]; exact layer_eq_nil.1 empty)]
    rfl
  · have inside : k < largest field items := Nat.lt_of_not_le (mt layer_eq_nil.2 empty)
    rw [if_neg empty, List.getElem?_range inside]
    rfl

/-- Every item is in one layer, once. -/
theorem perm_layers (items : List α) : (layers field items).flatten.Perm items := by
  let number (place : α × Nat) : Nat := count field (items.take place.2) (field place.1)
  have covered : ∀ place ∈ items.zipIdx, number place ∈ List.range (largest field items) := by
    intro place mem
    rw [List.mem_range]
    refine Nat.lt_of_not_le (mt layer_eq_nil.2 (List.ne_nil_of_mem (List.mem_map_of_mem (List.mem_filter.2 ⟨mem, ?_⟩))))
    exact beq_self_eq_true (number place)
  have all := (perm_flatMap_filter number List.nodup_range covered).map Prod.fst
  rw [List.map_flatMap, List.zipIdx_map_fst] at all
  rwa [layers, ← List.flatMap_def]

end Layers

/-! ## Placing equalities -/

/-- A pair goes to the first hash without its field; those before it stay as they are, and so do those behind. -/
theorem getElem?_place {field : Text} {entry : Code} {hashes : List Hash} {n : Nat}
    (taken : ∀ k < n, ∃ hash, hashes[k]? = some hash ∧ hash.any (·.1 == field) = true)
    (free : ∀ hash, hashes[n]? = some hash → hash.any (·.1 == field) = false) (k : Nat) :
    (place field entry hashes)[k]? =
      if k = n then some (hashes[n]?.getD [] ++ [(field, entry)]) else hashes[k]? := by
  induction hashes generalizing n k with
  | nil =>
    have first : n = 0 := by
      by_contra later
      obtain ⟨hash, found, _⟩ := taken 0 (by omega)
      cases found
    subst first
    cases k <;> simp [place]
  | cons hash more ih =>
    rw [place]
    by_cases full : hash.any (·.1 == field) = true
    · cases n with
      | zero =>
        rw [free hash rfl] at full
        cases full
      | succ n =>
        rw [if_pos full]
        cases k with
        | zero => simp
        | succ k =>
          have behind := ih (fun j less => taken (j + 1) (by omega)) (fun hash found => free hash found) k
          simpa using behind
    · have first : n = 0 := by
        by_contra later
        obtain ⟨hash', found, full'⟩ := taken 0 (by omega)
        cases found
        exact full full'
      subst first
      rw [if_neg full]
      cases k <;> simp

namespace Single

variable (s : Statement)

/-- The field of a comparison, without the main table. -/
def nameOf (test : SimpleTest) : Text := unqualify s test.field

/-- The equalities among the comparisons. -/
def equalities (tests : List SimpleTest) : List SimpleTest := tests.filter (·.op == .eq)

theorem any_map_entry (tests : List SimpleTest) (name : Text) :
    (tests.map (entry s)).any (·.1 == name) = true ↔ ∃ test ∈ tests, nameOf s test = name := by
  simp [entry, nameOf]

/-- Equalities placed one after the other. -/
def spread (tests : List SimpleTest) : List Hash :=
  tests.foldl (fun hashes test => place (nameOf s test) (entry s test).2 hashes) []

theorem hashes_eq_spread (tests : List SimpleTest) : hashes s tests = spread s (equalities tests) := rfl

theorem spread_append (tests : List SimpleTest) (test : SimpleTest) :
    spread s (tests ++ [test]) = place (nameOf s test) (entry s test).2 (spread s tests) := by
  rw [spread, List.foldl_append, List.foldl_cons, List.foldl_nil, spread]

/-- **The k-th hash has the k-th equality of each field.** -/
theorem getElem?_spread (tests : List SimpleTest) (k : Nat) :
    (spread s tests)[k]? =
      if layer (nameOf s) tests k = [] then none else some ((layer (nameOf s) tests k).map (entry s)) := by
  induction tests using List.reverseRecOn generalizing k with
  | nil => simp [spread, layer]
  | append_singleton tests test ih =>
    -- the hashes below the count of the field have it, the next one does not
    have taken : ∀ j < count (nameOf s) tests (nameOf s test),
        ∃ hash, (spread s tests)[j]? = some hash ∧ hash.any (·.1 == nameOf s test) = true := by
      intro j less
      obtain ⟨earlier, mem, same⟩ := exists_mem_layer.2 less
      refine ⟨_, by rw [ih, if_neg (List.ne_nil_of_mem mem)], ?_⟩
      exact (any_map_entry s _ _).2 ⟨earlier, mem, same⟩
    have free : ∀ hash, (spread s tests)[count (nameOf s) tests (nameOf s test)]? = some hash →
        hash.any (·.1 == nameOf s test) = false := by
      intro hash found
      rw [ih] at found
      split at found
      · cases found
      · cases found
        rw [Bool.eq_false_iff]
        intro has
        have more := exists_mem_layer.1 ((any_map_entry s _ _).1 has)
        omega
    rw [spread_append, getElem?_place taken free, layer_append]
    by_cases last : k = count (nameOf s) tests (nameOf s test)
    · subst last
      rw [if_pos rfl, if_pos rfl, if_neg (by simp), ih, List.map_append]
      split
      · rename_i empty
        rw [empty]
        rfl
      · rfl
    · have other : ¬ count (nameOf s) tests (nameOf s test) = k := fun same => last same.symm
      rw [if_neg last, ih, if_neg other, List.append_nil]

theorem hashes_eq_layers (tests : List SimpleTest) :
    hashes s tests = (layers (nameOf s) (equalities tests)).map fun hash => hash.map (entry s) := by
  apply List.ext_getElem?
  intro k
  rw [hashes_eq_spread, getElem?_spread, List.getElem?_map, getElem?_layers]
  split <;> rfl

/-! ## Texts -/

/-- A key and its value as they are written. -/
def pairText (test : SimpleTest) : Text :=
  (Naming.hashKey (nameOf s test)).text ++ " " ++ (test.value.code .activeRecord).text

/-- The call for the equalities of one hash. -/
def hashText (hash : List SimpleTest) : Text := ".where(" ++ Text.join ", " (hash.map (pairText s)) ++ ")"

/-- The call for an inequality. -/
def exclusionText (test : SimpleTest) : Text := ".where.not(" ++ pairText s test ++ ")"

/-- The call for all other comparisons: a place for each of their values, and then the values. -/
def rangeText (tests : List SimpleTest) : Text :=
  if tests.isEmpty then []
  else
    let template := Text.join " AND " (tests.map fun test => nameOf s test ++ " " ++ test.op.text ++ " ?")
    let values := tests.map fun test => (test.value.code .activeRecord).text
    ".where(" ++ Text.join ", " (Code.quote template :: values) ++ ")"

theorem text_call (method : String) (items : List Code) :
    (call method items).code.text =
      '.' :: method.toList ++ "(".toList ++ Text.join ", " (items.map Code.text) ++ ")".toList := by
  rw [Call.code, call]
  simp [Code.text, Code.rowText, Code.text_args]

theorem text_entry (test : SimpleTest) : (entry s test).2.text = pairText s test := by
  rw [entry, pairText, nameOf, pair]
  simp only [Code.text, Code.rowText, List.append_nil, List.append_assoc]

theorem text_hash (hash : List SimpleTest) :
    (call "where" ((hash.map (entry s)).map Prod.snd)).code.text = hashText s hash := by
  have items : ((hash.map (entry s)).map Prod.snd).map Code.text = hash.map (pairText s) := by
    rw [List.map_map, List.map_map]
    apply List.map_congr_left
    intro test _
    exact text_entry s test
  rw [text_call, items]
  rfl

theorem text_exclusion {test : SimpleTest} (ne : test.op = .ne) :
    (simpleCall s test).code.text = exclusionText s test := by
  have own : simpleCall s test = call "where.not" [(entry s test).2] := by
    obtain ⟨field, op, value⟩ := test
    obtain rfl : op = .ne := ne
    rfl
  rw [own, text_call, List.map_singleton, text_entry, Text.join_singleton]
  rfl

theorem text_ranges (tests : List SimpleTest) :
    (rangeCalls s tests).flatMap (fun call => call.code.text) = rangeText s tests := by
  unfold rangeCalls
  split
  · rfl
  · rename_i filled
    rw [List.flatMap_singleton, Template.whereCall, text_call, rangeText, if_neg (by simpa using filled)]
    simp [Code.text, opTemplate, nameOf, Function.comp_def]

/-- **The calls for a list of comparisons repeat no key in a hash and leave no comparison out.** First come the hashes:
the k-th one has the k-th equality of each field, in order, so there are as many as one field has equalities at most.
Then each inequality has a call of its own, in order, and all other comparisons share one call, with a place in its text
and a value behind it for each of them. No field, and so no key, occurs twice in a hash, and every equality is in one. -/
theorem consolidated_text_layers (tests : List SimpleTest) :
    (consolidated s tests).flatMap (fun call => call.code.text) =
        (layers (nameOf s) (equalities tests)).flatMap (hashText s)
          ++ (tests.filter (·.op == .ne)).flatMap (exclusionText s)
          ++ rangeText s (tests.filter fun test => test.op != .eq && test.op != .ne) ∧
      (layers (nameOf s) (equalities tests)).length = largest (nameOf s) (equalities tests) ∧
      (∀ hash ∈ layers (nameOf s) (equalities tests), hash ≠ [] ∧ (hash.map (nameOf s)).Nodup ∧
        (hash.map fun test => (Naming.hashKey (nameOf s test)).text).Nodup) ∧
      (layers (nameOf s) (equalities tests)).flatten.Perm (equalities tests) := by
  refine ⟨?_, by rw [layers, List.length_map, List.length_range], ?_, perm_layers _⟩
  · rw [consolidated, List.flatMap_append, List.flatMap_append, text_ranges, hashes_eq_layers, List.map_map,
      List.flatMap_map, List.flatMap_map]
    congr 2
    · apply List.flatMap_congr
      intro hash _
      exact text_hash s hash
    · apply List.flatMap_congr
      intro test mem
      exact text_exclusion s (by simpa using (List.mem_filter.1 mem).2)
  · intro hash mem
    obtain ⟨k, inside, rfl⟩ := List.mem_map.1 mem
    have fields := @nodup_layer _ (nameOf s) (equalities tests) k
    refine ⟨fun empty => ?_, fields, ?_⟩
    · have less := List.mem_range.1 inside
      have enough := layer_eq_nil.1 empty
      omega
    · have keys := fields.map Naming.hashKey_text_injective
      rwa [List.map_map] at keys

/-- With and without the alias of the main table `role` is one field, so it needs a second hash; the equality of `team`
comes later and goes into the first one. -/
theorem consolidated_text_layers_alias :
    let s : Statement := { main := some ⟨"users".toList, some "u".toList⟩ }
    let first : List SimpleTest := [
      ⟨"role".toList, .eq, .string "admin".toList⟩, ⟨"team".toList, .eq, .integer 3⟩]
    let tests : List SimpleTest := [
      ⟨"role".toList, .eq, .string "admin".toList⟩, ⟨"u.age".toList, .ge, .integer 21⟩,
      ⟨"u.role".toList, .eq, .string "owner".toList⟩, ⟨"role".toList, .ne, .null⟩, ⟨"team".toList, .eq, .integer 3⟩,
      ⟨"age".toList, .lt, .integer 65⟩]
    first ∈ layers (nameOf s) (equalities tests) ∧ (first.map (nameOf s)).Nodup ∧
      (consolidated s tests).flatMap (fun call => call.code.text) =
        ".where(role: \"admin\", team: 3).where(role: \"owner\").where.not(role: nil)".toList ++
          ".where(\"age >= ? AND age < ?\", 21, 65)".toList := by
  intro s first tests
  have mem : first ∈ layers (nameOf s) (equalities tests) := by decide +kernel
  obtain ⟨text, _, distinct, _⟩ := consolidated_text_layers s tests
  exact ⟨mem, (distinct first mem).2.1, text.trans (by decide +kernel)⟩

end Single
end Relation
end QueryCode
