import Mathlib.Data.List.Nodup
import QueryCode.Finder.Object
import QueryCode.Proofs.Code.Text
import QueryCode.Proofs.Partition

/-!
# Tests laid out in an object

An object literal keeps only the last of two equal keys, so a test that shares its key with another one in the same
literal would be lost. `layout` says where each test goes: under the property of its key together with the other tests
of that key, or, where two of them have the same operator, into an object of its own. `assemble_text_layout` says that
condition objects are written so, that no key is written twice in a literal, and that every test is written once.
-/

namespace QueryCode
set_option autoImplicit false

namespace Finder

/-! ## Where each test goes -/

/-- The keys of the tests, in the order in which they first occur. -/
def keys (tests : List Test) : List Text := (tests.map Test.key).eraseDups

/-- The tests of a key, in order. -/
def testsOf (tests : List Test) (key : Text) : List Test := tests.filter fun test => test.key == key

/-- Two tests of the key have the same operator. -/
def isRepeated (tests : List Test) (key : Text) : Bool := !decide ((testsOf tests key).map Test.op).Nodup

/-- The tests in an object. -/
structure Layout where
  /-- Each key that is a property, and the tests under it. -/
  shared : List (Text × List Test)
  /-- The tests that have an object of their own in the conjunction. -/
  apart : List Test

/-- The layout of a list of tests: a key is shared unless one of its operators is repeated. -/
def layout (tests : List Test) : Layout where
  shared := ((keys tests).filter fun key => !isRepeated tests key).map fun key => (key, testsOf tests key)
  apart := ((keys tests).filter (isRepeated tests)).flatMap (testsOf tests)

/-- An object literal: keys and values as they are written. -/
abbrev Entries := List (Text × Text)

/-- The text of an object literal. -/
def objectText (entries : Entries) : Text :=
  if entries.isEmpty then "\x7b\x7d"
  else "\x7b " ++ Text.join ", " (entries.map fun entry => entry.1 ++ ": " ++ entry.2) ++ " \x7d"

/-- The tests of a key as an object of operators. -/
def operatorEntries (tests : List Test) : Entries :=
  tests.map fun test => ("[" ++ test.op.name ++ "]", test.value.text)

/-- The text of the tests of a key: a lone equality is the bare value. -/
def testsText : List Test → Text
  | [⟨_, .eq, value⟩] => value.text
  | tests => objectText (operatorEntries tests)

/-- The property of a key. -/
def propertyEntry (key : Text) (tests : List Test) : Text × Text := ((Naming.key key).text, testsText tests)

/-- The conjunction of the tests that stand apart, if there are any. -/
def conjunctionEntries (apart : List Test) : Entries :=
  if apart.isEmpty then []
  else [("[Op.and]", "[" ++ Text.join ", " (apart.map fun test => objectText [propertyEntry test.key [test]]) ++ "]")]

/-- The object of a layout. -/
def Layout.entries (l : Layout) : Entries :=
  l.shared.map (fun group => propertyEntry group.1 group.2) ++ conjunctionEntries l.apart

/-! ## Grouping -/

theorem keys_append (tests : List Test) (test : Test) :
    keys (tests ++ [test]) = if test.key ∈ keys tests then keys tests else keys tests ++ [test.key] := by
  simp only [keys, List.map_append, List.map_singleton, eraseDups_append_singleton, List.mem_eraseDups]

theorem nodup_keys (tests : List Test) : (keys tests).Nodup := nodup_eraseDups _

theorem mem_keys {tests : List Test} {key : Text} : key ∈ keys tests ↔ ∃ test ∈ tests, test.key = key := by
  rw [keys, List.mem_eraseDups, List.mem_map]

theorem testsOf_append (tests : List Test) (test : Test) (key : Text) :
    testsOf (tests ++ [test]) key = testsOf tests key ++ if test.key = key then [test] else [] := by
  rw [testsOf, List.filter_append, testsOf]
  by_cases same : test.key = key <;> simp [same]

theorem testsOf_eq_nil {tests : List Test} {key : Text} (fresh : key ∉ keys tests) : testsOf tests key = [] := by
  rw [testsOf, List.filter_eq_nil_iff]
  intro test mem same
  exact fresh (mem_keys.2 ⟨test, mem, by simpa using same⟩)

/-- The property of a key with these tests. -/
def property (key : Text) (tests : List Test) : Property := ⟨key, tests.map fun test => (test.op, test.value)⟩

/-- A test adds nothing to the properties of other keys. -/
theorem map_property_of_not_mem (tests : Text → List Test) {keys : List Text} {test : Test} (fresh : test.key ∉ keys) :
    (keys.map fun key => property key (tests key ++ if test.key = key then [test] else [])) =
      keys.map fun key => property key (tests key) := by
  apply List.map_congr_left
  intro key mem
  have differ : test.key ≠ key := fun same => fresh (same ▸ mem)
  rw [if_neg differ, List.append_nil]

/-- One more test goes to the end of its property; if its key has none, it makes one behind all the others. -/
theorem addTest_map (tests : Text → List Test) {keys : List Text} (distinct : keys.Nodup) (test : Test) :
    addTest test (keys.map fun key => property key (tests key)) =
      if test.key ∈ keys then
        keys.map fun key => property key (tests key ++ if test.key = key then [test] else [])
      else (keys.map fun key => property key (tests key)) ++ [property test.key [test]] := by
  induction keys with
  | nil => rfl
  | cons key more ih =>
    rw [List.nodup_cons] at distinct
    rw [List.map_cons, addTest]
    by_cases same : test.key = key
    · subst same
      rw [if_pos List.mem_cons_self, List.map_cons, if_pos rfl, map_property_of_not_mem tests distinct.1]
      simp [property]
    · have differ : ((property key (tests key)).key == test.key) = false := by
        simpa [property] using fun other => same other.symm
      rw [differ, ih distinct.2]
      by_cases mem : test.key ∈ more
      · simp [mem, same]
      · simp [mem, same]

/-- **Properties are the keys in the order of their first tests, each with its tests in order.** -/
theorem properties_eq (tests : List Test) :
    properties tests = (keys tests).map fun key => property key (testsOf tests key) := by
  induction tests using List.reverseRecOn with
  | nil => rfl
  | append_singleton tests test ih =>
    have step : properties (tests ++ [test]) = addTest test (properties tests) := by
      rw [properties, properties, List.foldl_append, List.foldl_cons, List.foldl_nil]
    rw [step, ih, addTest_map (testsOf tests) (nodup_keys tests), keys_append]
    simp only [testsOf_append]
    split
    · rfl
    · rename_i fresh
      -- the new key has had no tests, and the others get none
      rw [List.map_append, map_property_of_not_mem _ fresh, List.map_singleton, if_pos rfl, testsOf_eq_nil fresh,
        List.nil_append]

theorem repeats_property (tests : List Test) (key : Text) :
    (property key (testsOf tests key)).repeats = isRepeated tests key := by
  rw [Property.repeats, property, isRepeated, List.map_map]
  rfl

/-! ## Texts -/

theorem text_object_entries {items : List Code} {entries : Entries}
    (same : items.map Code.text = entries.map fun entry => entry.1 ++ ": ".toList ++ entry.2) :
    (Code.object items).text = objectText entries := by
  rw [objectText]
  cases entries with
  | nil =>
    rw [List.map_nil, List.map_eq_nil_iff] at same
    rw [same, Code.text_object_nil]
    rfl
  | cons entry entries =>
    have filled : items ≠ [] := by
      rintro rfl
      cases same
    rw [Code.text_object filled, same]
    rfl

theorem text_opField (op : String) (value : Code) :
    (opField op value).text = "[".toList ++ op.toList ++ "]".toList ++ ": ".toList ++ value.text := by
  simp [opField, Code.array, Code.text, Code.rowText, Code.itemsText, Bracket.left, Bracket.right]

theorem text_operators (tests : List Test) :
    (Code.object (tests.map fun test => opField test.op.name test.value)).text =
      objectText (operatorEntries tests) := by
  apply text_object_entries
  rw [operatorEntries, List.map_map, List.map_map]
  apply List.map_congr_left
  intro test _
  exact text_opField ..

/-- An object whose only entry is a row of its key and its value. -/
theorem text_row (key : Text) (value : Code) :
    (Code.row [Naming.key key, ": ", value]).text = (Naming.key key).text ++ ": ".toList ++ value.text := by
  simp [Code.text, Code.rowText]

theorem text_property (key : Text) (tests : List Test) :
    (property key tests).code.text = (propertyEntry key tests).1 ++ ": ".toList ++ (propertyEntry key tests).2 := by
  by_cases lone : ∃ own value, tests = [⟨own, .eq, value⟩]
  · obtain ⟨own, value, rfl⟩ := lone
    exact text_row key value
  · have code : (property key tests).code =
        .row [Naming.key key, ": ", Code.object (tests.map fun test => opField test.op.name test.value)] := by
      unfold Property.code
      split
      · rename_i value single
        obtain ⟨⟨own, op, value⟩, rfl, same⟩ := List.map_eq_singleton_iff.1 single
        obtain ⟨rfl, rfl⟩ := Prod.mk.inj same
        exact absurd ⟨own, value, rfl⟩ lone
      · rw [property, List.map_map]
        rfl
    have operators : testsText tests = objectText (operatorEntries tests) := by
      unfold testsText
      split
      · exact absurd ⟨_, _, rfl⟩ lone
      · rfl
    rw [code, text_row, text_operators, propertyEntry, operators]

/-- A test on its own is an object with one property. -/
theorem text_alone (test : Test) :
    (Code.object [(property test.key [test]).code]).text = objectText [propertyEntry test.key [test]] :=
  text_object_entries (congrArg (fun t => [t]) (text_property test.key [test]))

theorem apart_property (tests : List Test) (key : Text) :
    (property key (testsOf tests key)).apart =
      (testsOf tests key).map fun test => Code.object [(property test.key [test]).code] := by
  rw [Property.apart, property, List.map_map]
  apply List.map_congr_left
  intro test mem
  obtain rfl : test.key = key := by simpa [testsOf] using (List.mem_filter.1 mem).2
  rfl

/-- The object is made of the shared properties, with the conjunction behind them. -/
theorem assemble_eq (tests : List Test) :
    assemble tests = Code.object ((layout tests).shared.map (fun group => (property group.1 group.2).code) ++
      if (layout tests).apart.isEmpty then []
      else [opField "Op.and" (Code.array ((layout tests).apart.map fun test =>
        Code.object [(property test.key [test]).code]))]) := by
  have shared : ((properties tests).filter fun p => !p.repeats).map Property.code =
      (layout tests).shared.map fun group => (property group.1 group.2).code := by
    rw [properties_eq, List.filter_map, layout, List.map_map, List.map_map]
    congr 2
    funext key
    rw [Function.comp_apply, repeats_property]
  have apart : ((properties tests).filter Property.repeats).flatMap Property.apart =
      (layout tests).apart.map fun test => Code.object [(property test.key [test]).code] := by
    rw [properties_eq, List.filter_map, layout, List.flatMap_map, List.map_flatMap]
    simp only [apart_property]
    congr 2
    funext key
    rw [Function.comp_apply, repeats_property]
  unfold assemble
  dsimp only
  rw [shared, apart]
  cases (layout tests).apart with
  | nil => simp
  | cons test more => simp

theorem text_assemble (tests : List Test) : (assemble tests).text = objectText (layout tests).entries := by
  rw [assemble_eq]
  apply text_object_entries
  rw [Layout.entries, List.map_append, List.map_append, List.map_map, List.map_map]
  congr 1
  · apply List.map_congr_left
    intro group _
    exact text_property ..
  · rw [conjunctionEntries]
    split
    · rfl
    · rw [List.map_singleton, List.map_singleton, text_opField, Code.text_array, List.map_map]
      simp only [Function.comp_def, text_alone]
      rfl

/-! ## Nothing is lost -/

theorem operator_name_injective : Function.Injective Operator.name := by
  intro a b same
  cases a <;> cases b <;> first | rfl | exact absurd same (by decide)

theorem nodup_operators {tests : List Test} (distinct : (tests.map Test.op).Nodup) :
    ((operatorEntries tests).map Prod.fst).Nodup := by
  have same : (operatorEntries tests).map Prod.fst =
      (tests.map Test.op).map fun op => "[".toList ++ op.name.toList ++ "]".toList := by
    rw [operatorEntries, List.map_map, List.map_map]
    rfl
  rw [same]
  refine distinct.map ?_
  intro a b bracketed
  rw [List.append_left_inj, List.append_right_inj, String.toList_inj] at bracketed
  exact operator_name_injective bracketed

/-- No key of a field is that of the conjunction. -/
theorem key_ne_conjunction (key : Text) : (Naming.key key).text ≠ "[Op.and]".toList := by
  obtain ⟨c, rest, text, start⟩ := Naming.head_key key
  rw [text]
  intro same
  have first : c = '[' := (List.cons.inj same).1
  subst first
  rcases start with plain | quote
  · revert plain
    decide
  · cases quote

theorem nodup_entries (tests : List Test) : ((layout tests).entries.map Prod.fst).Nodup := by
  rw [Layout.entries, List.map_append, List.nodup_append]
  refine ⟨?_, ?_, ?_⟩
  · rw [layout, List.map_map, List.map_map]
    exact ((nodup_keys tests).filter _).map Naming.key_text_injective
  · rw [conjunctionEntries]
    split <;> simp
  · intro key shared other apart same
    subst same
    obtain ⟨_, mem, rfl⟩ := List.mem_map.1 shared
    obtain ⟨group, _, rfl⟩ := List.mem_map.1 mem
    rw [conjunctionEntries] at apart
    split at apart
    · cases apart
    · exact key_ne_conjunction group.1 (List.mem_singleton.1 apart)

/-- Every test is in the property of its key or apart. -/
theorem perm_layout (tests : List Test) :
    ((layout tests).shared.flatMap Prod.snd ++ (layout tests).apart).Perm tests := by
  have split : (layout tests).shared.flatMap Prod.snd ++ (layout tests).apart =
      ((keys tests).filter (fun key => !isRepeated tests key) ++ (keys tests).filter (isRepeated tests)).flatMap
        (testsOf tests) := by
    rw [layout, List.flatMap_map, List.flatMap_append]
  have all : ((keys tests).filter (fun key => !isRepeated tests key) ++ (keys tests).filter (isRepeated tests)).Perm
      (keys tests) := List.perm_append_comm.trans (List.filter_append_perm _ _)
  rw [split]
  refine (all.flatMap_right (testsOf tests)).trans ?_
  exact perm_flatMap_filter Test.key (nodup_keys tests) fun test mem => mem_keys.2 ⟨test, mem, rfl⟩

theorem entries_eq_nil {tests : List Test} : (layout tests).entries = [] ↔ tests = [] := by
  constructor
  · intro bare
    rw [Layout.entries, List.append_eq_nil_iff, List.map_eq_nil_iff, conjunctionEntries] at bare
    obtain ⟨shared, apart⟩ := bare
    have alone : (layout tests).apart = [] := by
      split at apart
      · rename_i empty
        exact List.isEmpty_iff.1 empty
      · cases apart
    have all := perm_layout tests
    rw [shared, alone] at all
    exact List.nil_perm.1 all
  · rintro rfl
    rfl

/-- **Condition objects lose no test to a repeated key.** The text is an object literal with the entries of the layout:
the tests of each key whose operators differ, in order, under that key, then the others, in order, as objects of one
property each in the one conjunction; within both groups the keys come in the order of their first tests. The literal is
empty only if there are no tests; none of its keys, and no operator in one of its properties, is written twice; and each
test stands in exactly one place. -/
theorem assemble_text_layout (tests : List Test) :
    (assemble tests).text = objectText (layout tests).entries ∧
      ((layout tests).entries = [] ↔ tests = []) ∧
      ((layout tests).entries.map Prod.fst).Nodup ∧
      (∀ group ∈ (layout tests).shared, ((operatorEntries group.2).map Prod.fst).Nodup) ∧
      ((layout tests).shared.flatMap Prod.snd ++ (layout tests).apart).Perm tests := by
  refine ⟨text_assemble tests, entries_eq_nil, nodup_entries tests, ?_, perm_layout tests⟩
  intro group mem
  rw [layout, List.mem_map] at mem
  obtain ⟨key, kept, rfl⟩ := mem
  have distinct := (List.mem_filter.1 kept).2
  rw [isRepeated, Bool.not_not, decide_eq_true_iff] at distinct
  exact nodup_operators distinct

/-- A missing value and an inequality have one operator, so the tests of `b` stand apart. -/
theorem assemble_text_layout_missing :
    let tests : List Test := [
      ⟨"b".toList, .ne, "null"⟩, ⟨"a".toList, .gt, "1"⟩, ⟨"b".toList, .ne, "2"⟩, ⟨"a".toList, .eq, "3"⟩]
    let group : Text × List Test := ("a".toList, [⟨"a".toList, .gt, "1"⟩, ⟨"a".toList, .eq, "3"⟩])
    group ∈ (layout tests).shared ∧ ((operatorEntries group.2).map Prod.fst).Nodup ∧
      (assemble tests).text = "\x7b a: \x7b [Op.gt]: 1, [Op.eq]: 3 \x7d, ".toList ++
        "[Op.and]: [\x7b b: \x7b [Op.ne]: null \x7d \x7d, \x7b b: \x7b [Op.ne]: 2 \x7d \x7d] \x7d".toList := by
  intro tests group
  have mem : group ∈ (layout tests).shared := List.mem_singleton.2 (by rfl)
  obtain ⟨text, _, _, distinct, _⟩ := assemble_text_layout tests
  exact ⟨mem, distinct group mem, text.trans (by decide +kernel)⟩

end Finder
end QueryCode
