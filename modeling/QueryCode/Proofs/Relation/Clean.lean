import QueryCode.Proofs.Condition.Clean
import QueryCode.Proofs.Naming.Inert
import QueryCode.Proofs.Relation.Filter
import QueryCode.Proofs.Relation.Template
import QueryCode.Proofs.Statement.Clean
import QueryCode.Proofs.Writer
import QueryCode.Relation.Joined

/-!
# Relations are clean

Every call on a relation has a fixed name, and its arguments are names, literals and strings. The strings are texts of
the statement, or such texts with fixed words and names of tables between them. So the chains of a statement are clean
of a ban that its texts avoid.
-/

namespace QueryCode
set_option autoImplicit false

open Text (Tame)

variable {ban : Text.Ban}

namespace Naming

theorem tame_singular {name : Text} (tame : name.Tame) : (singular name).Tame := by
  intro c mem
  rcases mem_singular mem with kept | letter
  · exact tame c kept
  · exact Text.isTame_of_class (by decide) letter

end Naming

theorem Statement.tame_classify {s : Statement} {join : Join} {a : Association} (tame : join.table.Tame)
    (found : s.classify? join = some a) : a.name.Tame := by
  have ofKeys {id reference : Association.Key} {a : Association}
      (found : Association.ofKeys? s.table join.table id reference = some a) : a.name.Tame := by
    unfold Association.ofKeys? at found
    split at found
    · split at found
      · cases found
        exact tame
      · split at found
        · cases found
          exact Naming.tame_singular tame
        · cases found
    · cases found
  unfold classify? keyAssociation? at found
  split at found
  · cases found
  · rcases Option.or_eq_some_iff.1 found with here | ⟨_, there⟩
    · exact ofKeys here
    · exact ofKeys there

namespace Relation

/-! ## Calls -/

@[simp] theorem clean_call {method : String} {items : List Code} :
    (call method items).code.Clean ban ↔ Text.Inert method.toList ∧ ∀ item ∈ items, item.Clean ban := by
  simp +decide [Call.code, call]

@[simp] theorem clean_bareCall {method : String} : (bareCall method).code.Clean ban ↔ Text.Inert method.toList := by
  simp +decide [Call.code, bareCall]

/-- All calls are clean. -/
def Clean (ban : Text.Ban) (calls : List Call) : Prop := ∀ call ∈ calls, call.code.Clean ban

@[simp] theorem clean_nil : Clean ban [] := fun _ mem => absurd mem List.not_mem_nil

@[simp] theorem clean_cons {first : Call} {calls : List Call} :
    Clean ban (first :: calls) ↔ first.code.Clean ban ∧ Clean ban calls := List.forall_mem_cons

@[simp] theorem clean_append {calls more : List Call} :
    Clean ban (calls ++ more) ↔ Clean ban calls ∧ Clean ban more := List.forall_mem_append

theorem clean_map {α : Type} {f : α → Call} {xs : List α} (each : ∀ x ∈ xs, (f x).code.Clean ban) :
    Clean ban (xs.map f) := List.forall_mem_map.2 each

/-- A single call with an argument for each element of a list. -/
theorem clean_each {α : Type} {method : String} {f : α → Code} {xs : List α} (name : Text.Inert method.toList)
    (each : ∀ x ∈ xs, (f x).Clean ban) : Clean ban [call method (xs.map f)] :=
  clean_cons.2 ⟨clean_call.2 ⟨name, List.forall_mem_map.2 each⟩, clean_nil⟩

/-- The name of the model is inert, and all calls on it are clean. -/
structure Chain.Clean (ban : Text.Ban) (chain : Chain) : Prop where
  model : chain.model.Inert
  calls : Relation.Clean ban chain.calls

theorem Chain.Clean.code {chain : Chain} (clean : chain.Clean ban) : chain.code.Clean ban := by
  rw [Chain.code, Code.clean_row, List.forall_mem_cons]
  exact ⟨Code.clean_word.2 clean.model, List.forall_mem_map.2 clean.calls⟩

theorem Chain.ensures_clean {chain : Except Fault Chain} (clean : Ensures chain (Chain.Clean ban)) :
    Ensures (do return (← chain).code) (Code.Clean ban) := clean.bind fun _ clean => ensures_pure clean.code

theorem clean_pair {field : Text} {value : Code} (avoids : field.Avoids ban) (clean : value.Clean ban) :
    (pair field value).Clean ban := by
  simp +decide [pair, Naming.clean_hashKey avoids, clean]

theorem inert_whereMethod (negated : Bool) : Text.Inert (whereMethod negated).toList := by
  cases negated <;> decide

/-! ## Fields -/

theorem infix_unqualify (s : Statement) (field : Text) : unqualify s field <:+: field := by
  unfold unqualify
  split
  · rename_i table column found
    split
    · unfold splitPoint? at found
      split at found
      · cases found
      · rename_i tail
        cases found
        exact Text.infix_of_dropWhile tail
    · exact List.infix_rfl
  · exact List.infix_rfl

theorem avoids_unqualify {field : Text} (avoids : field.Avoids ban) (s : Statement) : (unqualify s field).Avoids ban :=
  avoids.of_part (infix_unqualify s field)

theorem avoids_qualify {reference field : Text} (tame : reference.Tame) (avoids : field.Avoids ban) :
    (qualify reference field).Avoids ban := by
  unfold qualify
  split
  · exact avoids
  · exact tame.avoids.glue avoids (by decide) (by decide)

theorem avoids_opTemplate {field : Text} (avoids : field.Avoids ban) (op : Comparator) :
    (opTemplate field op).Avoids ban :=
  ((avoids.append_tame (by decide)).append_tame (Predicate.tame_comparator op)).append_tame (by decide)

theorem avoids_opTemplates {rename : Text → Text} {tests : List SimpleTest}
    (fields : ∀ test ∈ tests, (rename test.field).Avoids ban) :
    Text.Avoids ban (Text.join " AND " (tests.map fun test => opTemplate (rename test.field) test.op)) :=
  Text.avoids_join (List.forall_mem_map.2 fun test mem => avoids_opTemplate (fields test mem) test.op) (by decide)
    (by decide)

/-- An alias is replaced by the name of its table, which is tame. -/
theorem avoids_dealias {s : Statement} (statement : s.Avoids ban) {t : Text} (avoids : t.Avoids ban) :
    (dealias s t).Avoids ban := by
  unfold dealias
  split
  · exact avoids
  · refine avoids.mapHits_mark fun _ _ => .inr ⟨Text.tame_append.2 ⟨statement.table, by decide⟩, ?_⟩
    exact List.append_ne_nil_of_right_ne_nil _ (by decide)

/-! ## Templates -/

theorem clean_value {raw : Text} (avoids : raw.Avoids ban) : (value raw).Clean ban :=
  Literal.clean_code (Literal.avoids_ofToken avoids) _

/-- The text of the template avoids the ban, and its values are clean. -/
structure Template.Avoids (ban : Text.Ban) (t : Template) : Prop where
  text : t.text.Avoids ban
  params : ∀ param ∈ t.params, param.Clean ban

theorem Template.Avoids.whereCall {t : Template} (avoids : t.Avoids ban) : t.whereCall.code.Clean ban := by
  rw [Template.whereCall, clean_call, List.forall_mem_cons]
  exact ⟨by decide, Code.clean_quoted.2 avoids.text, avoids.params⟩

/-- Renaming a field keeps it clear of the ban. -/
def Keeps (ban : Text.Ban) (rename : Text → Text) : Prop := ∀ field : Text, field.Avoids ban → (rename field).Avoids ban

theorem keeps_unqualify (s : Statement) : Keeps ban (unqualify s) := fun _ avoids => avoids_unqualify avoids s

theorem keeps_qualify {reference : Text} (tame : reference.Tame) : Keeps ban (qualify reference) :=
  fun _ avoids => avoids_qualify tame avoids

section Templates

variable {rename : Text → Text} (keeps : Keeps ban rename)
include keeps

theorem avoids_predicateTemplate {p : Predicate} (avoids : p.Avoids ban) : (predicateTemplate rename p).Avoids ban := by
  have nothing : ∀ param ∈ ([] : List Code), param.Clean ban := fun _ mem => absurd mem List.not_mem_nil
  have spaced {field : Text} (avoids : field.Avoids ban) : Text.Avoids ban (rename field ++ " ") :=
    (keeps field avoids).append_tame (by decide)
  cases p with
  | comparison field op raw =>
    rw [predicateTemplate]
    have compared := (spaced avoids.1).append_tame (Predicate.tame_comparator op)
    split
    · exact ⟨compared.glue avoids.2 (by decide) (by decide), nothing⟩
    · exact ⟨compared.append_tame (by decide), List.forall_mem_singleton.2 (clean_value avoids.2)⟩
  | like field negated pattern anyCase =>
    refine ⟨?_, List.forall_mem_singleton.2 (Code.clean_quoted.2 avoids.2)⟩
    exact (((spaced avoids.1).append_tame (Predicate.tame_notWord negated)).append_tame
      (Predicate.tame_likeWord anyCase)).append_tame (by decide)
  | inList field negated values =>
    refine ⟨((spaced avoids.1).append_tame (Predicate.tame_notWord negated)).append_tame (by decide), ?_⟩
    exact List.forall_mem_singleton.2 (Code.clean_array.2 (List.forall_mem_map.2 fun raw mem =>
      clean_value (avoids.2 raw mem)))
  | between field negated low high =>
    refine ⟨((spaced avoids.1).append_tame (Predicate.tame_notWord negated)).append_tame (by decide), ?_⟩
    exact List.forall_mem_cons.2 ⟨clean_value avoids.2.1, List.forall_mem_singleton.2 (clean_value avoids.2.2)⟩
  | isNull field negated =>
    have tested : Text.Avoids ban (rename field ++ " IS ") := (keeps field avoids).append_tame (by decide)
    exact ⟨(tested.append_tame (Predicate.tame_notWord negated)).append_tame (by decide), nothing⟩
  | inQuery field negated query => exact ⟨Predicate.avoids_text avoids, nothing⟩
  | raw text => exact ⟨avoids, nothing⟩

theorem avoids_template {c : Condition} (avoids : c.Avoids ban) : (template rename c).Avoids ban where
  text := by
    -- between the predicates there are connectives and parentheses only
    rw [text_template]
    exact Condition.avoids_text_mapLeaves fun p mem => (avoids_predicateTemplate keeps (avoids p mem)).text
  params := by
    rw [params_template, List.forall_mem_flatMap]
    exact fun p mem => (avoids_predicateTemplate keeps (avoids p mem)).params

end Templates

theorem avoids_dateTemplate {t : Text} (avoids : t.Avoids ban) : (dateTemplate t).Avoids ban where
  text := by
    refine avoids.mapHits_mark fun date _ => ?_
    split
    · exact .inr (by decide)
    · exact .inl rfl
  params := by
    refine List.forall_mem_map.2 fun date mem => Code.clean_quoted.2 (avoids.of_part ?_)
    have part := Text.infix_hits (List.mem_filter.1 mem).1
    rwa [Text.mapHits_mark] at part

/-! ## Clauses that both kinds of relations have -/

section Clauses

theorem clean_limitCalls (s : Statement) : Clean ban (limitCalls s) := by
  unfold limitCalls
  split
  · exact clean_nil
  · split <;> simp +decide

theorem clean_distinctCalls (s : Statement) : Clean ban (distinctCalls s) := by
  unfold distinctCalls
  split <;> simp +decide

theorem inert_aggregateMethod (f : AggregateFunction) : Text.Inert (aggregateMethod f).toList := by
  cases f <;> decide

theorem clean_aggregateCalls {a : Aggregate} (avoids : a.column.Avoids ban) : Clean ban (aggregateCalls a) := by
  have column := Naming.clean_symbol avoids
  unfold aggregateCalls
  split
  · simp +decide
  · split <;> simp +decide [inert_aggregateMethod, column]

variable {s : Statement} (avoids : s.Avoids ban)
include avoids

theorem inert_model : (Naming.modelName s.table).Inert := Naming.inert_modelName avoids.inert_table

theorem clean_updateCall : (call "update_all" (assignmentPairs s)).code.Clean ban := by
  refine clean_call.2 ⟨by decide, List.forall_mem_map.2 fun a mem => ?_⟩
  have assigned := avoids.assignment mem
  exact clean_pair assigned.name (clean_value assigned.value)

end Clauses

/-! ## Relations on one model -/

namespace Single

section Filter

variable (s : Statement)

theorem clean_simpleCall {test : SimpleTest} (avoids : test.Avoids ban) : (simpleCall s test).code.Clean ban := by
  have field := avoids_unqualify avoids.1 s
  have value := Literal.clean_code avoids.2 .activeRecord
  unfold simpleCall
  dsimp only
  split
  · exact clean_call.2 ⟨by decide, List.forall_mem_singleton.2 (clean_pair field value)⟩
  · exact clean_call.2 ⟨by decide, List.forall_mem_singleton.2 (clean_pair field value)⟩
  · rw [clean_call, List.forall_mem_cons, List.forall_mem_singleton]
    exact ⟨by decide, Code.clean_quoted.2 (avoids_opTemplate field _), value⟩

theorem clean_hash {tests : List SimpleTest} (avoids : ∀ test ∈ tests, test.Avoids ban) {hash : Hash}
    (placed : hash ∈ hashes s tests) : ∀ pair ∈ hash, pair.2.Clean ban := by
  refine forall_hashes (fun hash => ∀ pair ∈ hash, pair.2.Clean ban) tests ?_ hash placed
  intro test mem hash before
  have entry : (entry s test).2.Clean ban :=
    clean_pair (avoids_unqualify (avoids test mem).1 s) (Literal.clean_code (avoids test mem).2 _)
  rcases before with rfl | all
  · exact List.forall_mem_singleton.2 entry
  · exact List.forall_mem_append.2 ⟨all, List.forall_mem_singleton.2 entry⟩

theorem clean_consolidated {tests : List SimpleTest} (avoids : ∀ test ∈ tests, test.Avoids ban) :
    Clean ban (consolidated s tests) := by
  have kept {p : SimpleTest → Bool} : ∀ test ∈ tests.filter p, test.Avoids ban :=
    fun test mem => avoids test (List.mem_filter.1 mem).1
  unfold consolidated
  refine clean_append.2 ⟨clean_append.2 ⟨?_, clean_map fun test mem => clean_simpleCall s (kept test mem)⟩, ?_⟩
  · intro _ mem
    obtain ⟨hash, placed, rfl⟩ := List.mem_map.1 mem
    exact clean_call.2 ⟨by decide, List.forall_mem_map.2 (clean_hash s avoids placed)⟩
  · unfold rangeCalls
    split
    · exact clean_nil
    · refine clean_cons.2 ⟨Template.Avoids.whereCall ⟨?_, ?_⟩, clean_nil⟩
      · exact avoids_opTemplates fun test mem => avoids_unqualify (kept test mem).1 s
      · exact List.forall_mem_map.2 fun test mem => Literal.clean_code (kept test mem).2 _

end Filter

variable {s : Statement} (avoids : s.Avoids ban)
include avoids

theorem clean_filter {plan : Plan} (planned : plan.Avoids ban) : Clean ban (filter s plan) := by
  cases plan with
  | empty => exact clean_nil
  | literal t => exact clean_cons.2 ⟨(avoids_dateTemplate (avoids_dealias avoids planned)).whereCall, clean_nil⟩
  | disjunction c | raw c =>
    have made := avoids_template (keeps_unqualify s) planned
    exact clean_cons.2 ⟨Template.Avoids.whereCall ⟨avoids_dealias avoids made.text, made.params⟩, clean_nil⟩
  | consolidated tests => exact clean_consolidated s planned
  | decomposed tests =>
    simp only [filter, clean_append]
    refine ⟨⟨⟨⟨clean_map fun test mem => ?_, clean_map fun test mem => ?_⟩, clean_map fun test mem => ?_⟩,
      clean_map fun test mem => ?_⟩, clean_map fun test mem => clean_simpleCall s (planned.simple test mem)⟩
    · have like := planned.like test mem
      have text : Text.Avoids ban (unqualify s test.field ++ " " ++ Predicate.likeWord test.anyCase ++ " ?") :=
        (((avoids_unqualify like.1 s).append_tame (by decide)).append_tame (Predicate.tame_likeWord _)).append_tame
          (by decide)
      rw [likeCall, clean_call, List.forall_mem_cons, List.forall_mem_singleton]
      exact ⟨inert_whereMethod _, Code.clean_quoted.2 text, Code.clean_quoted.2 like.2⟩
    · have member := planned.inList test mem
      rw [inCall, clean_call, List.forall_mem_singleton]
      refine ⟨inert_whereMethod _, clean_pair (avoids_unqualify member.1 s) (Code.clean_array.2 ?_)⟩
      refine List.forall_mem_map.2 fun value mem => ?_
      exact Literal.clean_code (member.2 value mem) _
    · have range := planned.between test mem
      rw [betweenCall, clean_call, List.forall_mem_singleton]
      refine ⟨inert_whereMethod _, clean_pair (avoids_unqualify range.1 s) ?_⟩
      simp +decide [Literal.clean_code range.2.1, Literal.clean_code range.2.2]
    · rw [nullCall, clean_call, List.forall_mem_singleton]
      refine ⟨inert_whereMethod _, clean_pair (avoids_unqualify (planned.null test mem) s) ?_⟩
      exact Code.clean_word.2 (by decide)

theorem ensures_clean_conditionCalls : Ensures (conditionCalls s) (Clean ban) :=
  (Plan.ensures_ofText avoids.condition).bind fun _ planned => ensures_pure (clean_filter avoids planned)

theorem clean_groupCalls : Clean ban (groupCalls s) := by
  have term (g : ColumnName) (mem : g ∈ s.groupBy) : (groupTerm s g).Clean ban := by
    have column := avoids.groupBy g mem
    have symbol := Naming.clean_symbol column.name
    unfold groupTerm
    split
    · split
      · exact symbol
      · exact Code.clean_quoted.2 column.qualified
    · exact symbol
  unfold groupCalls
  split
  · exact clean_nil
  · exact clean_each (by decide) term

theorem clean_havingCalls : Clean ban (havingCalls s) := by
  unfold havingCalls
  split
  · rename_i having found
    simp +decide [avoids_dealias avoids (avoids.having? found)]
  · exact clean_nil

theorem clean_orderCalls : Clean ban (orderCalls s) := by
  unfold orderCalls
  split
  · exact clean_nil
  · split
    · refine clean_each (by decide) fun o mem => ?_
      have direction : Text.Inert (Text.lower o.direction.text) := by cases o.direction <;> decide
      simp +decide [orderPair, Naming.clean_hashKey (avoids.orderBy o mem).name, direction]
    · refine clean_each (by decide) fun o mem => Code.clean_quoted.2 ?_
      have term := avoids_unqualify (avoids.orderBy o mem).qualified s
      exact (term.append_tame (by decide)).append_tame o.direction.tame_text

theorem clean_aliased {column : Column} (named : column.Avoids ban) {expr : Text} (whole : expr.Avoids ban) :
    (aliased s column expr).Clean ban := by
  have kept := avoids_dealias avoids whole
  unfold aliased
  split
  · rename_i given found
    exact Code.clean_quoted.2 ((kept.append_tame (by decide)).append_tame (named.alias? given found))
  · exact Code.clean_quoted.2 kept

theorem clean_ownItem {column : Column} (named : column.Avoids ban) : (ownItem s column).Clean ban := by
  unfold ownItem
  split
  · exact clean_aliased avoids named named.name
  · exact Naming.clean_symbol named.name

theorem clean_selectItem {column : Column} (named : column.Avoids ban) : (selectItem s column).Clean ban := by
  unfold selectItem
  split
  · rename_i found
    exact clean_aliased avoids named (Aggregate.avoids_text (named.name.of_part (Aggregate.infix_column found)))
  · split
    · exact clean_aliased avoids named named.qualified
    · split
      · exact clean_aliased avoids named (avoids.table.avoids.append_tame (by decide))
      · exact clean_ownItem avoids named
  · exact clean_ownItem avoids named

theorem clean_selectCalls : Clean ban (selectCalls s) := by
  unfold selectCalls
  split
  · exact clean_nil
  · exact clean_each (by decide) fun column mem => clean_selectItem avoids (avoids.columns column mem)

theorem clean_insertPairs : ∀ item ∈ insertPairs s, item.Clean ban := by
  unfold insertPairs
  split
  · exact fun _ mem => absurd mem List.not_mem_nil
  · intro item mem
    obtain ⟨i, bound, rfl⟩ := List.mem_mapIdx.1 mem
    refine clean_pair (avoids.columns _ (List.getElem_mem bound)).name ?_
    split
    · rename_i raw found
      exact clean_value (avoids.value (List.mem_of_getElem? found))
    · exact Code.clean_word.2 (by decide)

theorem ensures_clean_selectChain : Ensures (selectChain s) (Chain.Clean ban) := by
  refine (ensures_clean_conditionCalls avoids).bind fun found clean => ensures_pure ⟨inert_model avoids, ?_⟩
  refine clean_append.2 ⟨clean, ?_⟩
  split
  · rename_i a scalar
    simp only [clean_append]
    refine ⟨⟨clean_orderCalls avoids, clean_limitCalls s⟩, clean_aggregateCalls ?_⟩
    exact avoids_unqualify (avoids.scalar? scalar) s
  · simp only [clean_append]
    exact ⟨⟨⟨⟨⟨clean_groupCalls avoids, clean_havingCalls avoids⟩, clean_orderCalls avoids⟩, clean_limitCalls s⟩,
      clean_selectCalls avoids⟩, clean_distinctCalls s⟩

/-- **Statements without joins are written as clean chains.** -/
theorem clean_writer : writer.Makes s (Code.Clean ban) where
  select := Chain.ensures_clean (ensures_clean_selectChain avoids)
  insert := ensures_ok <| Chain.Clean.code
    ⟨inert_model avoids, clean_cons.2 ⟨clean_call.2 ⟨by decide, clean_insertPairs avoids⟩, clean_nil⟩⟩
  update := Chain.ensures_clean <| (ensures_clean_conditionCalls avoids).bind fun _ clean => ensures_pure
    ⟨inert_model avoids, clean_append.2 ⟨clean, clean_cons.2 ⟨clean_updateCall avoids, clean_nil⟩⟩⟩
  delete := Chain.ensures_clean <| (ensures_clean_conditionCalls avoids).bind fun _ clean => ensures_pure
    ⟨inert_model avoids, clean_append.2 ⟨clean, clean_cons.2 ⟨clean_bareCall.2 (by decide), clean_nil⟩⟩⟩

end Single

/-! ## Relations with joins -/

namespace Joined

theorem clean_templateCall {negated : Bool} {text : Text} {params : List Code} (avoids : text.Avoids ban)
    (clean : ∀ param ∈ params, param.Clean ban) : (templateCall negated text params).code.Clean ban :=
  clean_call.2 ⟨inert_whereMethod negated, List.forall_mem_cons.2 ⟨Code.clean_quoted.2 avoids, clean⟩⟩

section Filter

variable {reference : Text} (tame : reference.Tame)
include tame

theorem clean_simpleCall {test : SimpleTest} (avoids : test.Avoids ban) :
    (simpleCall reference test).code.Clean ban := by
  have field := avoids_qualify tame avoids.1
  have value := List.forall_mem_singleton.2 (Literal.clean_code avoids.2 .activeRecord)
  unfold simpleCall
  dsimp only
  split <;> exact clean_templateCall (avoids_opTemplate field _) value

theorem clean_filter {plan : Plan} (planned : plan.Avoids ban) : Clean ban (filter reference plan) := by
  have qualified {field : Text} (avoids : field.Avoids ban) : (qualify reference field).Avoids ban :=
    avoids_qualify tame avoids
  cases plan with
  | empty => exact clean_nil
  | literal t => exact clean_cons.2 ⟨(avoids_dateTemplate planned).whereCall, clean_nil⟩
  | disjunction c | raw c => exact clean_cons.2 ⟨(avoids_template (keeps_qualify tame) planned).whereCall, clean_nil⟩
  | consolidated tests =>
    refine clean_cons.2 ⟨Template.Avoids.whereCall ⟨?_, ?_⟩, clean_nil⟩
    · exact avoids_opTemplates fun test mem => qualified (planned test mem).1
    · exact List.forall_mem_map.2 fun test mem => Literal.clean_code (planned test mem).2 _
  | decomposed tests =>
    simp only [filter, clean_append]
    refine ⟨⟨⟨⟨clean_map fun test mem => ?_, clean_map fun test mem => ?_⟩, clean_map fun test mem => ?_⟩,
      clean_map fun test mem => ?_⟩, clean_map fun test mem => clean_simpleCall tame (planned.simple test mem)⟩
    · have like := planned.like test mem
      refine clean_templateCall ?_ (List.forall_mem_singleton.2 (Code.clean_quoted.2 like.2))
      exact (((qualified like.1).append_tame (by decide)).append_tame (Predicate.tame_likeWord _)).append_tame
        (by decide)
    · have member := planned.inList test mem
      refine clean_templateCall ((qualified member.1).append_tame (by decide)) ?_
      refine List.forall_mem_singleton.2 (Code.clean_array.2 (List.forall_mem_map.2 fun value mem => ?_))
      exact Literal.clean_code (member.2 value mem) _
    · have range := planned.between test mem
      refine clean_templateCall ((qualified range.1).append_tame (by decide)) (List.forall_mem_cons.2 ?_)
      exact ⟨Literal.clean_code range.2.1 _, List.forall_mem_singleton.2 (Literal.clean_code range.2.2 _)⟩
    · refine clean_templateCall ((qualified (planned.null test mem)).append_tame ?_) ?_
      · split <;> decide
      · exact fun _ mem => absurd mem List.not_mem_nil

end Filter

variable {s : Statement} (avoids : s.Avoids ban)
include avoids

theorem ensures_clean_conditionCalls : Ensures (conditionCalls s) (Clean ban) :=
  (Plan.ensures_ofText avoids.condition).bind fun _ planned => ensures_pure (clean_filter avoids.reference planned)

omit avoids in
theorem clean_symbolCalls {method : String} {names : List Text} (inert : Text.Inert method.toList)
    (each : ∀ name ∈ names, name.Avoids ban) : Clean ban (symbolCalls method names) := by
  unfold symbolCalls
  split
  · exact clean_nil
  · exact clean_each inert fun name mem => Naming.clean_symbol (each name mem)

/-- The text of a form avoids the ban. -/
def Form.Avoids (ban : Text.Ban) : Form → Prop
  | .inner name => name.Avoids ban
  | .left name => name.Avoids ban
  | .raw text => text.Avoids ban

omit avoids in
theorem avoids_form {join : Join} (joined : join.Avoids ban) : (form s join).Avoids ban := by
  have association {a : Association} (found : named? s join = some a) : a.name.Avoids ban := by
    unfold named? at found
    split at found
    · exact (Statement.tame_classify joined.table.tame found).avoids
    · cases found
  unfold form
  split
  · rename_i found _
    exact association found
  · rename_i found _
    exact association found
  · rename_i found _
    exact association found
  · exact joined.text

theorem clean_joinCalls : Clean ban (joinCalls s) := by
  have forms : ∀ f ∈ s.joins.map (form s), f.Avoids ban :=
    List.forall_mem_map.2 fun join mem => avoids_form (avoids.joins join mem)
  unfold joinCalls
  dsimp only
  refine clean_append.2 ⟨clean_append.2 ⟨clean_symbolCalls (by decide) ?_, clean_symbolCalls (by decide) ?_⟩, ?_⟩
  · intro name mem
    obtain ⟨f, member, found⟩ := List.mem_filterMap.1 mem
    split at found
    · cases found
      exact forms _ member
    · cases found
  · intro name mem
    obtain ⟨f, member, found⟩ := List.mem_filterMap.1 mem
    split at found
    · cases found
      exact forms _ member
    · cases found
  · intro call mem
    obtain ⟨f, member, found⟩ := List.mem_filterMap.1 mem
    split at found
    · cases found
      exact clean_call.2 ⟨by decide, List.forall_mem_singleton.2 (Code.clean_quoted.2 (forms _ member))⟩
    · cases found

theorem clean_sourceCalls : Clean ban (sourceCalls s) := by
  unfold sourceCalls
  split
  · rename_i given found
    refine clean_cons.2 ⟨clean_call.2 ⟨by decide, List.forall_mem_singleton.2 (Code.clean_quoted.2 ?_)⟩, clean_nil⟩
    exact (avoids.table.avoids.append_tame (by decide)).append_tame (avoids.alias? found)
  · exact clean_nil

theorem clean_groupCalls : Clean ban (groupCalls s) := by
  unfold groupCalls
  split
  · exact clean_nil
  · refine clean_each (by decide) fun g mem => Code.clean_quoted.2 ?_
    exact avoids_qualify avoids.reference (avoids.groupBy g mem).qualified

theorem clean_havingCalls : Clean ban (havingCalls s) := by
  unfold havingCalls
  split
  · rename_i having found
    simp +decide [avoids.having? found]
  · exact clean_nil

theorem clean_orderCalls : Clean ban (orderCalls s) := by
  unfold orderCalls
  split
  · exact clean_nil
  · refine clean_each (by decide) fun o mem => Code.clean_quoted.2 ?_
    exact ((avoids.orderBy o mem).qualified.append_tame (by decide)).append_tame o.direction.tame_text

omit avoids in
theorem clean_selectItem {column : Column} (named : column.Avoids ban) : (selectItem column).Clean ban := by
  have aggregate {a : Aggregate} (found : Aggregate.parse? column.name = some a) : a.text.Avoids ban :=
    Aggregate.avoids_text (named.name.of_part (Aggregate.infix_column found))
  unfold selectItem
  dsimp only
  split
  · rename_i given found
    refine Code.clean_quoted.2 (Text.Avoids.append_tame (Text.Avoids.append_tame ?_ (by decide)) ?_)
    · split
      · rename_i found
        exact aggregate found
      · exact named.qualified
    · exact named.alias? given found
  · refine Code.clean_quoted.2 ?_
    split
    · rename_i found
      exact aggregate found
    · exact named.qualified

theorem clean_selectCalls : Clean ban (selectCalls s) := by
  unfold selectCalls
  split
  · exact clean_nil
  · exact clean_each (by decide) fun column mem => clean_selectItem (avoids.columns column mem)

/-- The calls for the joins and the condition are clean. -/
theorem clean_leading {found : List Call} (clean : Clean ban found) :
    Clean ban (sourceCalls s ++ joinCalls s ++ found) :=
  clean_append.2 ⟨clean_append.2 ⟨clean_sourceCalls avoids, clean_joinCalls avoids⟩, clean⟩

theorem ensures_clean_selectChain : Ensures (selectChain s) (Chain.Clean ban) := by
  refine (ensures_clean_conditionCalls avoids).bind fun found clean => ensures_pure ⟨inert_model avoids, ?_⟩
  refine clean_append.2 ⟨clean_leading avoids clean, ?_⟩
  split
  · rename_i a scalar
    simp only [clean_append]
    exact ⟨⟨clean_orderCalls avoids, clean_limitCalls s⟩, clean_aggregateCalls (avoids.scalar? scalar)⟩
  · simp only [clean_append]
    exact ⟨⟨⟨⟨⟨clean_groupCalls avoids, clean_havingCalls avoids⟩, clean_orderCalls avoids⟩, clean_limitCalls s⟩,
      clean_selectCalls avoids⟩, clean_distinctCalls s⟩

/-- **Statements with joins are written as clean chains.** -/
theorem clean_writer : writer.Makes s (Code.Clean ban) where
  select := Chain.ensures_clean (ensures_clean_selectChain avoids)
  insert := ensures_ok (Code.clean_word.2 (by decide))
  update := Chain.ensures_clean <| (ensures_clean_conditionCalls avoids).bind fun _ clean => ensures_pure
    ⟨inert_model avoids, clean_append.2
      ⟨clean_leading avoids clean, clean_cons.2 ⟨clean_updateCall avoids, clean_nil⟩⟩⟩
  delete := Chain.ensures_clean <| (ensures_clean_conditionCalls avoids).bind fun _ clean => ensures_pure
    ⟨inert_model avoids, clean_append.2
      ⟨clean_leading avoids clean, clean_cons.2 ⟨clean_bareCall.2 (by decide), clean_nil⟩⟩⟩

end Joined
end Relation
end QueryCode
