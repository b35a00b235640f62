import QueryCode.Finder.Joined
import QueryCode.Proofs.Condition.Clean
import QueryCode.Proofs.Finder.Object
import QueryCode.Proofs.Statement.Clean
import QueryCode.Proofs.Writer

/-!
# Finders are clean

The keys of options are fixed words, those of conditions are names or strings, and the values are literals, strings
and objects of the same kind. The strings are texts of the statement, or such texts with fixed words, points and dollar
signs around them. So the calls for a statement are clean of a ban that its texts avoid.
-/

namespace QueryCode
set_option autoImplicit false

open Text (Tame)

variable {ban : Text.Ban}

namespace Finder

/-! ## Fields and tests -/

@[simp] theorem clean_field {key : String} {value : Code} :
    (field key value).Clean ban ↔ Text.Inert key.toList ∧ value.Clean ban := by
  simp +decide [field]

/-- The only option. -/
theorem clean_option {key : String} {value : Code} (inert : Text.Inert key.toList) (clean : value.Clean ban) :
    ∀ item ∈ [field key value], item.Clean ban :=
  List.forall_mem_singleton.2 (clean_field.2 ⟨inert, clean⟩)

@[simp] theorem clean_opField {op : String} {value : Code} :
    (opField op value).Clean ban ↔ Text.Inert op.toList ∧ value.Clean ban := by
  simp +decide [opField]

@[simp] theorem clean_junction {op : String} {items : List Code} :
    (junction op items).Clean ban ↔ Text.Inert op.toList ∧ ∀ item ∈ items, item.Clean ban := by
  simp [junction]

@[simp] theorem clean_literal {t : Text} : (literal t).Clean ban ↔ t.Avoids ban := by simp +decide [literal]

@[simp] theorem clean_columnRef {t : Text} : (columnRef t).Clean ban ↔ t.Avoids ban := by simp +decide [columnRef]

theorem Operator.inert_name (op : Operator) : Text.Inert op.name.toList := by
  cases op <;> decide

theorem clean_value {raw : Text} (avoids : raw.Avoids ban) : (value raw).Clean ban :=
  Literal.clean_code (Literal.avoids_ofToken avoids) _

/-- The key of the test avoids the ban, and its value is clean. -/
structure Test.Clean (ban : Text.Ban) (test : Test) : Prop where
  key : test.key.Avoids ban
  value : test.value.Clean ban

theorem clean_property {key : Text} {tests : List Test} (named : key.Avoids ban)
    (clean : ∀ test ∈ tests, test.value.Clean ban) : (property key tests).code.Clean ban := by
  have label := Naming.clean_key named
  unfold Property.code
  split
  · -- a lone equality is written as its value
    rename_i value lone
    have listed : (Operator.eq, value) ∈ (property key tests).tests := by
      rw [lone]
      exact List.mem_singleton_self _
    obtain ⟨test, mem, same⟩ := List.mem_map.1 listed
    obtain rfl : test.value = value := congrArg Prod.snd same
    rw [Code.clean_row, List.forall_mem_cons, List.forall_mem_cons, List.forall_mem_singleton]
    exact ⟨label, Code.clean_word.2 (by decide), clean test mem⟩
  · rw [Code.clean_row, List.forall_mem_cons, List.forall_mem_cons, List.forall_mem_singleton, Code.clean_object]
    refine ⟨label, Code.clean_word.2 (by decide), ?_⟩
    rw [property, List.map_map]
    exact List.forall_mem_map.2 fun test mem => clean_opField.2 ⟨test.op.inert_name, clean test mem⟩

theorem clean_assemble {tests : List Test} (clean : ∀ test ∈ tests, test.Clean ban) : (assemble tests).Clean ban := by
  have own {key : Text} {test : Test} (mem : test ∈ testsOf tests key) : test.Clean ban :=
    clean test (List.mem_filter.1 mem).1
  rw [assemble_eq, Code.clean_object, List.forall_mem_append]
  refine ⟨List.forall_mem_map.2 (List.forall_mem_map.2 fun key mem => ?_), ?_⟩
  · obtain ⟨test, member, rfl⟩ := mem_keys.1 (List.mem_filter.1 mem).1
    exact clean_property (clean test member).key fun test mem => (own mem).value
  · split
    · simp
    · rw [List.forall_mem_singleton, clean_opField, Code.clean_array]
      refine ⟨by decide, List.forall_mem_map.2 fun test mem => ?_⟩
      obtain ⟨key, _, within⟩ := List.mem_flatMap.1 mem
      rw [Code.clean_object, List.forall_mem_singleton]
      exact clean_property (own within).key (List.forall_mem_singleton.2 (own within).value)

/-! ## Conditions -/

section Conditions

variable (s : Statement)

/-- A key is a part of its field, or the field with a dollar sign on either side. -/
theorem avoids_keyOf {field : Text} (avoids : field.Avoids ban) : (keyOf s field).Avoids ban := by
  unfold keyOf
  split
  · exact avoids
  · rename_i tail
    split
    · exact avoids.of_part (Text.infix_of_dropWhile tail)
    · exact (Tame.append_avoids (by decide) avoids).append_tame (by decide)

theorem clean_simpleTest {t : SimpleTest} (avoids : t.Avoids ban) : (simpleTest s t).Clean ban where
  key := avoids_keyOf s avoids.1
  value := Literal.clean_code avoids.2 .sequelize

theorem clean_likeTest {t : LikeTest} (field : t.field.Avoids ban) (pattern : t.pattern.Avoids ban) :
    (likeTest s t).Clean ban where
  key := avoids_keyOf s field
  value := Code.clean_quoted.2 pattern

theorem clean_inTest {t : InTest} (field : t.field.Avoids ban) (values : ∀ value ∈ t.values, value.Avoids ban) :
    (inTest s t).Clean ban where
  key := avoids_keyOf s field
  value := Code.clean_array.2 (List.forall_mem_map.2 fun value mem => Literal.clean_code (values value mem) _)

theorem clean_betweenTest {t : BetweenTest} (field : t.field.Avoids ban) (low : t.low.Avoids ban)
    (high : t.high.Avoids ban) : (betweenTest s t).Clean ban where
  key := avoids_keyOf s field
  value := by simp [betweenTest, Literal.clean_code low, Literal.clean_code high]

theorem clean_nullTest {t : NullTest} (field : t.field.Avoids ban) : (nullTest s t).Clean ban where
  key := avoids_keyOf s field
  value := Code.clean_word.2 (by decide)

theorem clean_operand {raw : Text} (avoids : raw.Avoids ban) : (operand raw).Clean ban := by
  unfold operand
  split
  · exact clean_columnRef.2 avoids.trim
  · split
    · exact clean_literal.2 avoids.trim
    · exact clean_value avoids

theorem clean_leaf {p : Predicate} (avoids : p.Avoids ban) : (leaf s p).Clean ban := by
  cases p with
  | comparison field op raw =>
    exact clean_assemble (List.forall_mem_singleton.2 ⟨avoids_keyOf s avoids.1, clean_operand avoids.2⟩)
  | like => exact clean_assemble (List.forall_mem_singleton.2 (clean_likeTest s avoids.1 avoids.2))
  | inList =>
    refine clean_assemble (List.forall_mem_singleton.2 (clean_inTest s avoids.1 ?_))
    exact List.forall_mem_map.2 fun raw mem => Literal.avoids_ofToken (avoids.2 raw mem)
  | between =>
    refine clean_assemble (List.forall_mem_singleton.2 (clean_betweenTest s avoids.1 ?_ ?_))
    · exact Literal.avoids_ofToken avoids.2.1
    · exact Literal.avoids_ofToken avoids.2.2
  | isNull field negated =>
    exact clean_assemble (List.forall_mem_singleton.2 (clean_nullTest s (t := ⟨field, negated⟩) avoids))
  | inQuery => exact clean_literal.2 (Predicate.avoids_text avoids)
  | raw => exact clean_literal.2 avoids

theorem trees_eq_map (cs : List Condition) : trees s cs = cs.map (tree s) := by
  induction cs with
  | nil => rw [trees, List.map_nil]
  | cons c cs ih => rw [trees, ih, List.map_cons]

theorem clean_tree {c : Condition} (avoids : c.Avoids ban) : (tree s c).Clean ban := by
  induction c using Condition.byParts with
  | and parts ih =>
    rw [tree, clean_junction, trees_eq_map]
    exact ⟨by decide, List.forall_mem_map.2 fun part mem => ih part mem (Condition.avoids_and.1 avoids part mem)⟩
  | or parts ih =>
    rw [tree, clean_junction, trees_eq_map]
    exact ⟨by decide, List.forall_mem_map.2 fun part mem => ih part mem (Condition.avoids_or.1 avoids part mem)⟩
  | not part ih =>
    rw [tree, Code.clean_object, List.forall_mem_singleton, clean_opField]
    exact ⟨by decide, ih (Condition.avoids_not.1 avoids)⟩
  | leaf p =>
    rw [tree]
    exact clean_leaf s (Condition.avoids_predicate avoids rfl)

theorem clean_filter (wrapped : Bool) {plan : Plan} (planned : plan.Avoids ban) :
    (filter s wrapped plan).Clean ban := by
  cases plan with
  | empty => simp [filter]
  | literal t =>
    have kept : (literal t).Clean ban := clean_literal.2 planned
    rw [filter]
    split
    · exact clean_junction.2 ⟨by decide, List.forall_mem_singleton.2 kept⟩
    · exact kept
  | disjunction c | raw c => exact clean_tree s planned
  | consolidated tests =>
    exact clean_assemble (List.forall_mem_map.2 fun test mem => clean_simpleTest s (planned test mem))
  | decomposed tests =>
    rw [filter]
    refine clean_assemble ?_
    simp only [List.forall_mem_append, List.forall_mem_map]
    refine ⟨⟨⟨⟨fun test mem => ?_, fun test mem => ?_⟩, fun test mem => ?_⟩, fun test mem => ?_⟩, fun test mem => ?_⟩
    · exact clean_likeTest s (planned.like test mem).1 (planned.like test mem).2
    · exact clean_inTest s (planned.inList test mem).1 (planned.inList test mem).2
    · exact clean_betweenTest s (planned.between test mem).1 (planned.between test mem).2.1
        (planned.between test mem).2.2
    · exact clean_nullTest s (planned.null test mem)
    · exact clean_simpleTest s (planned.simple test mem)

end Conditions

variable {s : Statement}

/-! ## Clauses that both kinds of finders have -/

section Clauses

theorem clean_modelCall (avoids : s.Avoids ban) {method : String} {items : List Code}
    (name : Text.Inert method.toList) (clean : ∀ item ∈ items, item.Clean ban) :
    (modelCall s method items).Clean ban := by
  have model := Naming.inert_modelName avoids.inert_table
  simp +decide [modelCall, model, name]
  exact clean

theorem clean_limitOptions (s : Statement) : ∀ item ∈ limitOptions s, item.Clean ban := by
  unfold limitOptions
  split
  · simp
  · split <;> simp +decide

theorem clean_trailing {options : List Code} (clean : ∀ item ∈ options, item.Clean ban) :
    ∀ item ∈ trailing options, item.Clean ban := by
  unfold trailing
  split
  · simp
  · exact List.forall_mem_singleton.2 (Code.clean_object.2 clean)

theorem clean_aggregateAttribute {a : Aggregate} (avoids : a.column.Avoids ban) :
    (aggregateAttribute a).Clean ban := by
  have star : Text.Avoids ban "*" := Tame.avoids (by decide)
  unfold aggregateAttribute
  dsimp only
  rw [Code.clean_call, List.forall_mem_cons, List.forall_mem_singleton]
  refine ⟨by decide, Code.clean_quoted.2 a.function.tame_text.avoids, ?_⟩
  split
  · exact clean_literal.2 star
  · split
    · exact clean_literal.2 (Aggregate.avoids_argumentText avoids)
    · exact clean_columnRef.2 avoids

theorem clean_aggregateCall (avoids : s.Avoids ban) {a : Aggregate} {options : List Code} (named : a.column.Avoids ban)
    (clean : ∀ item ∈ options, item.Clean ban) : (aggregateCall s a options).Clean ban := by
  have column : (Code.quoted a.column).Clean ban := Code.clean_quoted.2 named
  have distinct : ∀ item ∈ (if a.distinct then [field "distinct" "true"] else []), item.Clean ban := by
    split <;> simp +decide
  have inert : Text.Inert (String.ofList (Text.lower a.function.text)).toList := by cases a.function <;> decide
  have tame : Text.Tame (String.ofList (Text.lower a.function.text)).toList := by cases a.function <;> decide
  unfold aggregateCall
  dsimp only
  split
  · exact clean_modelCall avoids (by decide) (clean_trailing clean)
  split
  · refine clean_modelCall avoids (by decide) (List.forall_mem_singleton.2 (Code.clean_object.2 ?_))
    rw [List.forall_mem_append, List.forall_mem_append, List.forall_mem_singleton, clean_field]
    exact ⟨⟨clean, by decide, column⟩, distinct⟩
  split
  · refine clean_modelCall avoids (by decide) (List.forall_mem_append.2 ⟨?_, clean_trailing ?_⟩)
    · exact List.forall_mem_cons.2 ⟨column, List.forall_mem_singleton.2 (Code.clean_quoted.2 tame.avoids)⟩
    · exact List.forall_mem_append.2 ⟨clean, distinct⟩
  · exact clean_modelCall avoids inert (List.forall_mem_cons.2 ⟨column, clean_trailing clean⟩)

/-- A name is a string, and any other expression is kept as text. -/
theorem clean_own {name : Text} (avoids : name.Avoids ban) :
    (if Naming.isIdentifier name then Code.quoted name else literal name).Clean ban := by
  split
  · exact Code.clean_quoted.2 avoids
  · exact clean_literal.2 avoids

theorem clean_columnAttribute (s : Statement) {column : Column} (named : column.Avoids ban) :
    (columnAttribute s column).Clean ban := by
  have bare : (bareAttribute s column).Clean ban := by
    unfold bareAttribute
    dsimp only
    split
    · rename_i found
      exact clean_aggregateAttribute (named.name.of_part (Aggregate.infix_column found))
    · split
      · exact clean_own named.name
      · exact clean_columnRef.2 named.qualified
    · exact clean_own named.name
  unfold columnAttribute
  split
  · rename_i given found
    rw [Code.clean_array, List.forall_mem_cons, List.forall_mem_singleton]
    exact ⟨bare, Code.clean_quoted.2 (named.alias? given found).avoids⟩
  · exact bare

variable (avoids : s.Avoids ban)
include avoids

theorem ensures_clean_condition (wrapped : Bool) : Ensures (condition s wrapped) (Code.Clean ban) :=
  (Plan.ensures_ofText avoids.condition).bind fun _ planned => ensures_pure (clean_filter s wrapped planned)

theorem ensures_clean_whereOption (wrapped : Bool) :
    Ensures (whereOption s wrapped) fun items => ∀ item ∈ items, item.Clean ban := by
  unfold whereOption
  split
  · refine (ensures_clean_condition avoids wrapped).bind fun found clean => ensures_pure ?_
    exact clean_option (by decide) clean
  · exact ensures_pure (by simp)

theorem clean_groupOption : ∀ item ∈ groupOption s, item.Clean ban := by
  unfold groupOption
  split
  · simp
  · refine clean_option (by decide) (Code.clean_array.2 (List.forall_mem_map.2 fun g mem => ?_))
    exact Code.clean_quoted.2 (avoids.groupBy g mem).qualified

theorem clean_orderOption : ∀ item ∈ orderOption s, item.Clean ban := by
  have term (o : OrderTerm) (mem : o ∈ s.orderBy) : (orderTerm s o).Clean ban := by
    have column := avoids.orderBy o mem
    unfold orderTerm
    dsimp only
    rw [Code.clean_array, List.forall_mem_cons, List.forall_mem_singleton]
    refine ⟨?_, Code.clean_quoted.2 o.direction.tame_text.avoids⟩
    split
    · split
      · exact clean_own column.name
      · exact clean_columnRef.2 column.qualified
    · exact clean_own column.name
  unfold orderOption
  split
  · simp
  · exact clean_option (by decide) (Code.clean_array.2 (List.forall_mem_map.2 term))

theorem clean_assignments : (assignments s).Clean ban := by
  refine Code.clean_object.2 (List.forall_mem_map.2 fun a mem => ?_)
  have assigned := avoids.assignment mem
  simp +decide [Naming.clean_key assigned.name, clean_value assigned.value]

end Clauses

/-! ## Finders on one model -/

namespace Single

variable (avoids : s.Avoids ban)
include avoids

omit avoids in
theorem clean_distinctAttribute {column : Column} (named : column.Avoids ban) :
    (distinctAttribute column).Clean ban := by
  have label : (column.alias?.getD column.name).Avoids ban := by
    cases given : column.alias? with
    | none => exact named.name
    | some label => exact (named.alias? label given).avoids
  rw [distinctAttribute, Code.clean_array, List.forall_mem_cons, List.forall_mem_singleton, Code.clean_call,
    List.forall_mem_cons, List.forall_mem_singleton]
  refine ⟨⟨by decide, Code.clean_quoted.2 (Tame.avoids (by decide)), ?_⟩, Code.clean_quoted.2 label⟩
  exact clean_columnRef.2 named.qualified

theorem clean_attributesOption : ∀ item ∈ attributesOption s, item.Clean ban := by
  have listed : ∀ item ∈ attributes s, item.Clean ban := by
    have columns := avoids.columns
    unfold attributes
    split
    · simp
    · rename_i column more given
      rw [given, List.forall_mem_cons] at columns
      refine List.forall_mem_cons.2 ⟨?_, List.forall_mem_map.2 fun c mem => clean_columnAttribute s (columns.2 c mem)⟩
      split
      · exact clean_distinctAttribute columns.1
      · exact clean_columnAttribute s columns.1
  unfold attributesOption
  split
  · simp
  · exact clean_option (by decide) (Code.clean_array.2 listed)

theorem clean_havingOption : ∀ item ∈ havingOption s, item.Clean ban := by
  unfold havingOption
  split
  · rename_i having found
    simp +decide [avoids.having? found]
  · simp

theorem clean_insertFields : ∀ item ∈ insertFields s, item.Clean ban := by
  unfold insertFields
  split
  · simp
  · intro item mem
    obtain ⟨i, bound, rfl⟩ := List.mem_mapIdx.1 mem
    have label := Naming.clean_key (avoids.columns _ (List.getElem_mem bound)).name
    rw [Code.clean_row, List.forall_mem_cons, List.forall_mem_cons, List.forall_mem_singleton]
    refine ⟨label, Code.clean_word.2 (by decide), ?_⟩
    split
    · rename_i raw found
      exact clean_value (avoids.value (List.mem_of_getElem? found))
    · exact Code.clean_word.2 (by decide)

theorem ensures_clean_select : Ensures (select s) (Code.Clean ban) := by
  refine (ensures_clean_whereOption avoids false).bind fun found clean => ?_
  split
  · rename_i a scalar
    refine ensures_pure (clean_aggregateCall avoids (avoids.scalar? scalar) ?_)
    simp only [List.forall_mem_append]
    exact ⟨⟨clean, clean_orderOption avoids⟩, clean_limitOptions s⟩
  · refine ensures_pure (clean_modelCall avoids (by decide) (List.forall_mem_singleton.2 (Code.clean_options.2 ?_)))
    simp only [List.forall_mem_append]
    exact ⟨⟨⟨⟨⟨clean_attributesOption avoids, clean⟩, clean_groupOption avoids⟩, clean_havingOption avoids⟩,
      clean_orderOption avoids⟩, clean_limitOptions s⟩

omit avoids in
/-- The condition object as the only option. -/
theorem clean_whereObject {found : Code} (clean : found.Clean ban) : (Code.object [field "where" found]).Clean ban :=
  Code.clean_object.2 (clean_option (by decide) clean)

/-- **Statements without joins are written as clean calls.** -/
theorem clean_writer : writer.Makes s (Code.Clean ban) where
  select := ensures_clean_select avoids
  insert := ensures_ok <| clean_modelCall avoids (by decide) <|
    List.forall_mem_singleton.2 (Code.clean_object.2 (clean_insertFields avoids))
  update := (ensures_clean_condition avoids false).bind fun _ clean => ensures_pure <|
    clean_modelCall avoids (by decide) <| List.forall_mem_cons.2
      ⟨clean_assignments avoids, List.forall_mem_singleton.2 (clean_whereObject clean)⟩
  delete := (ensures_clean_condition avoids false).bind fun _ clean => ensures_pure <|
    clean_modelCall avoids (by decide) (List.forall_mem_singleton.2 (clean_whereObject clean))

end Single

/-! ## Finders with joins -/

namespace Joined

section Includes

variable {join : Join} (joined : join.Avoids ban)
include joined

theorem clean_headFields : ∀ item ∈ headFields join, item.Clean ban := by
  unfold headFields
  have model : (field "model" (.word (Naming.modelName join.table))).Clean ban :=
    clean_field.2 ⟨by decide, Code.clean_word.2 (Naming.inert_modelName joined.table.inert)⟩
  refine List.forall_mem_cons.2 ⟨model, ?_⟩
  split
  · rename_i given found
    exact clean_option (by decide) (Code.clean_quoted.2 (joined.alias? given found).avoids)
  · simp

theorem clean_onField : (onField join).Clean ban := by simp +decide [onField, joined.on]

omit joined in
theorem clean_requiredField (join : Join) : (requiredField join).Clean ban := by
  unfold requiredField
  split <;> simp +decide

theorem clean_basicInclude : (basicInclude s join).Clean ban := by
  unfold basicInclude
  rw [Code.clean_object, List.forall_mem_append, List.forall_mem_append, List.forall_mem_singleton]
  refine ⟨⟨clean_headFields joined, clean_requiredField join⟩, ?_⟩
  split
  · exact List.forall_mem_singleton.2 (clean_onField joined)
  · simp

omit joined in
/-- The column of a field that names the joined table is a part of the field. -/
theorem avoids_localColumn {p : Predicate} (avoids : p.Avoids ban) {column : Text}
    (found : localColumn? join p = some column) : (rename column p).Avoids ban := by
  have cut {field : Text} (avoids : field.Avoids ban) (given : p.field? = some field) : column.Avoids ban := by
    unfold localColumn? at found
    rw [given] at found
    dsimp only at found
    split at found
    · cases found
    · rename_i tail
      split at found
      · cases found
        exact avoids.of_part (Text.infix_of_dropWhile tail)
      · cases found
  cases p with
  | comparison => exact ⟨cut avoids.1 rfl, avoids.2⟩
  | like => exact ⟨cut avoids.1 rfl, avoids.2⟩
  | inList => exact ⟨cut avoids.1 rfl, avoids.2⟩
  | inQuery => exact ⟨cut avoids.1 rfl, avoids.2⟩
  | between => exact ⟨cut avoids.1 rfl, avoids.2⟩
  | isNull => exact cut avoids rfl
  | raw => exact avoids

omit joined in
theorem clean_extra {c : Condition} (avoids : c.Avoids ban) {code : Code} (found : extra? s join c = some code) :
    code.Clean ban := by
  unfold extra? at found
  split at found
  · rename_i predicate
    have own : predicate.Avoids ban := Condition.avoids_predicate avoids rfl
    split at found
    · cases found
    · split at found
      · rename_i column cut
        cases found
        exact clean_leaf s (avoids_localColumn own cut)
      · cases found
        exact clean_literal.2 (Predicate.avoids_text own)
  · cases found
    exact clean_literal.2 (Condition.avoids_text avoids)

theorem ensures_clean_extraCondition (s : Statement) :
    Ensures (extraCondition? s join) fun found => ∀ code ∈ found, code.Clean ban := by
  refine (Condition.ensures_parse_avoids joined.on).bind fun parsed avoids => ?_
  split
  · exact ensures_pure (by simp)
  · rename_i c
    have extras : ∀ code ∈ c.conjuncts.filterMap (extra? s join), code.Clean ban := by
      intro code mem
      obtain ⟨part, member, found⟩ := List.mem_filterMap.1 mem
      exact clean_extra ((avoids c rfl).of_mem_conjuncts member) found
    split
    · exact ensures_pure (by simp)
    · split
      · exact ensures_pure (by simp)
      · rename_i part single
        rw [single, List.forall_mem_singleton] at extras
        exact ensures_pure (by simpa using extras)
      · refine ensures_pure ?_
        rintro _ ⟨⟩
        exact clean_junction.2 ⟨by decide, extras⟩

variable (avoids : s.Avoids ban)
include avoids

omit joined in
theorem clean_joinAttributes (i : Nat) (join : Join) : ∀ item ∈ joinAttributes s i join, item.Clean ban := by
  unfold joinAttributes
  split
  · simp
  · refine clean_option (by decide) (Code.clean_array.2 (List.forall_mem_map.2 fun column mem => ?_))
    have named := avoids.columns column (List.mem_filter.1 mem).1
    split
    · rename_i given found
      simp [named.name, (named.alias? given found).avoids]
    · exact Code.clean_quoted.2 named.name

theorem ensures_clean_fullInclude (i : Nat) : Ensures (fullInclude s i join) (Code.Clean ban) := by
  refine .after _ fun association => ?_
  have extra : Ensures (if association.isSome then extraCondition? s join else .ok none)
      fun found => ∀ code ∈ found, code.Clean ban := by
    split
    · exact ensures_clean_extraCondition joined s
    · exact ensures_ok (by simp)
  have fields (found : Option Code) (clean : ∀ code ∈ found, code.Clean ban) :
      (Code.object (headFields join ++ (found.map (field "where")).toList ++ joinAttributes s i join
        ++ [requiredField join] ++ (if join.kind == .right then [field "right" "true"] else [])
        ++ (if association.isNone then [onField join] else []))).Clean ban := by
    simp only [Code.clean_object, List.forall_mem_append, List.forall_mem_singleton]
    refine ⟨⟨⟨⟨⟨clean_headFields joined, ?_⟩, clean_joinAttributes avoids i join⟩, clean_requiredField join⟩, ?_⟩, ?_⟩
    · simp +decide
      exact clean
    · split <;> simp +decide
    · split <;> simp [clean_onField joined]
  dsimp only
  split
  · rename_i present
    rw [if_pos present] at extra
    exact extra.bind fun found clean => ensures_pure (fields found clean)
  · rename_i absent
    rw [if_neg absent] at extra
    exact extra.bind fun found clean => ensures_pure (fields found clean)

end Includes

variable (avoids : s.Avoids ban)
include avoids

theorem clean_attributesOption : ∀ item ∈ attributesOption s, item.Clean ban := by
  unfold attributesOption
  split
  · simp
  · refine clean_option (by decide) (Code.clean_array.2 (List.forall_mem_map.2 fun column mem => ?_))
    exact clean_columnAttribute s (avoids.columns column (List.mem_filter.1 mem).1)

omit avoids in
theorem ensures_clean_having (s : Statement) {t : Text} (avoids : t.Avoids ban) :
    Ensures (having s t) (Code.Clean ban) := by
  have kept : (literal (Text.trim t)).Clean ban := clean_literal.2 avoids.trim
  unfold having
  dsimp only
  split
  · exact ensures_pure kept
  · refine (Condition.ensures_parse_avoids avoids.trim).bind fun parsed avoids => ?_
    split
    · exact ensures_pure (clean_tree s (avoids _ rfl))
    · exact ensures_pure kept

theorem ensures_clean_havingOption : Ensures (havingOption s) fun items => ∀ item ∈ items, item.Clean ban := by
  unfold havingOption
  split
  · rename_i t given
    refine (ensures_clean_having s (avoids.having? given)).bind fun found clean => ensures_pure ?_
    exact clean_option (by decide) clean
  · exact ensures_pure (by simp)

theorem ensures_clean_select : Ensures (select s) (Code.Clean ban) := by
  have includes : Ensures ((s.joins.mapIdx fun i join => fullInclude s i join).mapM id)
      fun items => ∀ item ∈ items, item.Clean ban := by
    refine .mapM fun x mem => ?_
    obtain ⟨i, bound, rfl⟩ := List.mem_mapIdx.1 mem
    exact ensures_clean_fullInclude (avoids.joins _ (List.getElem_mem bound)) avoids i
  refine includes.bind fun items joined => (ensures_clean_whereOption avoids true).bind fun found clean => ?_
  have included : (field "include" (Code.array items)).Clean ban :=
    clean_field.2 ⟨by decide, Code.clean_array.2 joined⟩
  split
  · rename_i a scalar
    refine ensures_pure (clean_aggregateCall avoids (avoids.scalar? scalar) ?_)
    simp only [List.forall_mem_append, List.forall_mem_cons]
    exact ⟨⟨⟨included, clean⟩, clean_orderOption avoids⟩, clean_limitOptions s⟩
  · refine (ensures_clean_havingOption avoids).bind fun having cleanHaving => ?_
    refine ensures_pure (clean_modelCall avoids (by decide) (List.forall_mem_singleton.2 (Code.clean_options.2 ?_)))
    simp only [List.forall_mem_append, List.forall_mem_cons]
    exact ⟨⟨⟨⟨⟨⟨included, clean_attributesOption avoids⟩, clean⟩, clean_groupOption avoids⟩, cleanHaving⟩,
      clean_orderOption avoids⟩, clean_limitOptions s⟩

theorem ensures_clean_changeOptions : Ensures (changeOptions s) (Code.Clean ban) := by
  refine (ensures_clean_condition avoids true).bind fun found clean => ensures_pure (Code.clean_object.2 ?_)
  rw [List.forall_mem_cons, List.forall_mem_singleton, clean_field, clean_field, Code.clean_array]
  refine ⟨⟨by decide, clean⟩, by decide, List.forall_mem_map.2 fun join mem => ?_⟩
  exact clean_basicInclude (avoids.joins join mem)

/-- **Statements with joins are written as clean calls.** -/
theorem clean_writer : writer.Makes s (Code.Clean ban) where
  select := ensures_clean_select avoids
  insert := ensures_ok (Code.clean_word.2 (by decide))
  update := (ensures_clean_changeOptions avoids).bind fun _ clean => ensures_pure <|
    clean_modelCall avoids (by decide) <| List.forall_mem_cons.2
      ⟨clean_assignments avoids, List.forall_mem_singleton.2 clean⟩
  delete := (ensures_clean_changeOptions avoids).bind fun _ clean => ensures_pure <|
    clean_modelCall avoids (by decide) (List.forall_mem_singleton.2 clean)

end Joined
end Finder
end QueryCode
