import QueryCode.Proofs.Statement.Names
import QueryCode.Proofs.Statement.Parts
import QueryCode.Proofs.Text.Ban

/-!
# Statements and bans

The texts of a statement are cut out of the text it is read from, or they are names of word characters. The words of a
join are put together with single spaces. So a statement avoids a ban if its text does.
-/

namespace QueryCode
set_option autoImplicit false

open Text (Cursor Scan Tame)

variable {ban : Text.Ban}

/-! ## Names and scans -/

theorem Pattern.IsName.tame {t : Text} (named : IsName t) : t.Tame := by
  intro c mem
  rcases named.chars c mem with head | word
  · exact Text.isTame_of_class (by decide) head
  · exact Text.isTame_of_class (by decide) word

namespace Text.Scan

variable {α : Type} {p : Scan α} {holds : α → Prop}

theorem Yields.whole (yields : Yields p holds) {t : Text} {a : α} (found : whole? p t = some a) : holds a := by
  have all : Yields (do let a ← p; finish; pure a) holds :=
    yields.bind fun _ here => .after _ fun _ => yields_pure here
  unfold whole? at found
  split at found
  · rename_i value stop fits
    cases found
    exact all _ _ _ fits
  · cases found

/-- What stands before the fit is the beginning of the text. -/
theorem Yields.shortest (yields : Yields p holds) {t head : Text} {a : α} (found : shortest? p t = some (head, a)) :
    head <+: t ∧ holds a := by
  have collect (held rest : Text) (found : shortest?.go p held rest = some (head, a)) :
      head <+: held.reverse ++ rest ∧ holds a := by
    induction rest generalizing held with
    | nil =>
      rw [shortest?.go] at found
      split at found
      · rename_i value fits
        cases found
        exact ⟨List.prefix_append _ _, yields.whole fits⟩
      · cases found
    | cons c rest ih =>
      rw [shortest?.go] at found
      split at found
      · rename_i value fits
        cases found
        exact ⟨List.prefix_append _ _, yields.whole fits⟩
      · have later := ih (c :: held) found
        rwa [List.reverse_cons, List.append_assoc] at later
  unfold shortest? at found
  split at found
  · cases found
  · exact collect [_] _ found

end Text.Scan

/-! ## Columns -/

/-- The name avoids the ban, and that of the table is tame. -/
structure ColumnName.Avoids (ban : Text.Ban) (c : ColumnName) : Prop where
  name : c.name.Avoids ban
  table : ∀ table ∈ c.table, table.Tame

theorem ColumnName.Avoids.qualified {c : ColumnName} (avoids : c.Avoids ban) : c.qualified.Avoids ban := by
  unfold ColumnName.qualified
  split
  · rename_i table given
    exact ((avoids.table table given).avoids).glue avoids.name (by decide) (by decide)
  · exact avoids.name

/-- The column avoids the ban, and its alias is tame. -/
structure Column.Avoids (ban : Text.Ban) (c : Column) : Prop extends toColumnName : c.toColumnName.Avoids ban where
  alias? : ∀ given ∈ c.alias?, given.Tame

namespace Pattern

open Text.Scan

theorem yields_plainName : Yields plainName Tame := by
  unfold plainName
  refine (yields_one _).bind fun c start => (yields_run Text.isWord).bind fun t word => yields_pure ?_
  exact Text.tame_cons.2
    ⟨Text.isTame_of_class (by decide) start, fun d mem => Text.isTame_of_class (by decide) (word d mem)⟩

theorem yields_qualified : Yields qualified (ColumnName.Avoids ban) := by
  have star : Yields (do return [← char '*']) Tame := by
    refine (yields_one _).bind fun c star => yields_pure (List.forall_mem_singleton.2 ?_)
    exact Text.isTame_of_class (p := (· == '*')) (by decide) star
  unfold qualified
  refine .after _ fun _ => yields_plainName.bind fun table tame => ?_
  refine .after _ fun _ => .after _ fun _ => .after _ fun _ => ?_
  refine (yields_plainName.orElse star).bind fun column tame' => .after _ fun _ => yields_pure ?_
  refine ⟨tame'.avoids, ?_⟩
  rintro _ ⟨⟩
  exact tame

theorem yields_columnAlias : Yields columnAlias IsName := by
  unfold columnAlias
  refine .after _ fun _ => .after _ fun _ => .after _ fun _ => .after _ fun _ => ?_
  exact yields_name.bind fun found named => .after _ fun _ => yields_pure named

end Pattern

namespace Statement

theorem avoids_columnName {t : Text} (avoids : t.Avoids ban) : (columnName t).Avoids ban := by
  unfold columnName
  split
  · rename_i column found
    exact Pattern.yields_qualified.whole found
  · exact ⟨avoids.of_part (Text.infix_stripBackticks t), fun _ => nofun⟩

theorem avoids_column {item : Text} (avoids : item.Avoids ban) : (column item).Avoids ban := by
  unfold column
  split
  · rename_i expr given found
    obtain ⟨start, named⟩ := Pattern.yields_columnAlias.shortest found
    refine ⟨avoids_columnName (avoids.of_part start.isInfix).trim, ?_⟩
    rintro _ ⟨⟩
    exact named.tame
  · exact ⟨avoids_columnName avoids.trim, fun _ => nofun⟩

theorem avoids_orderTerm {item : Text} {o : OrderTerm} (avoids : item.Avoids ban) (found : orderTerm? item = some o) :
    o.toColumnName.Avoids ban := by
  obtain ⟨⟨expr, direction⟩, fits, rfl⟩ := Option.map_eq_some_iff.1 found
  obtain ⟨start, -⟩ := (Scan.yields_true Pattern.orderTail).shortest fits
  exact avoids_columnName (avoids.of_part start.isInfix).trim

end Statement

/-- The name of the column and its new value avoid the ban. -/
structure Assignment.Avoids (ban : Text.Ban) (a : Assignment) : Prop where
  name : a.name.Avoids ban
  value : a.value.Avoids ban

theorem Statement.ensures_assignment {pair : Text} (avoids : pair.Avoids ban) :
    Ensures (assignment? pair) fun found => ∀ a ∈ found, a.Avoids ban := by
  unfold assignment?
  split
  · exact ensures_ok fun _ => nofun
  · rename_i sign _
    have parts (n : Nat) : Ensures (Text.cut n pair) fun found => found.1.Avoids ban ∧ found.2.Avoids ban := by
      intro found split
      have whole := Text.cut_append split
      exact ⟨(whole ▸ avoids).left, (whole ▸ avoids).right⟩
    refine (parts sign).bind fun left name => (parts (sign + 1)).bind fun right value => ensures_pure ?_
    rintro _ ⟨⟩
    exact ⟨name.1.trim.of_part (Text.infix_stripBackticks _), value.2.trim⟩

/-! ## Joins -/

/-- The texts of the join avoid the ban, its table has a name, and its alias is tame. -/
structure Join.Avoids (ban : Text.Ban) (j : Join) : Prop where
  keyword : j.keyword.Avoids ban
  table : Pattern.IsName j.table
  alias? : ∀ given ∈ j.alias?, given.Tame
  on : j.on.Avoids ban

theorem Join.Avoids.text {j : Join} (avoids : j.Avoids ban) : j.text.Avoids ban := by
  have named := (avoids.keyword.append_tame (u := " ") (by decide)).append_tame avoids.table.tame
  have joined {lead : Text} (front : lead.Avoids ban) :
      Text.Avoids ban (lead ++ if j.on.isEmpty then [] else " ON ".toList ++ j.on) := by
    split
    · exact front.append_tame (by decide)
    · rw [← List.append_assoc]
      exact front.glue avoids.on (by decide) (by decide)
  unfold Join.text
  split
  · rename_i given found
    exact joined (named.append_tame (Text.tame_append.2 ⟨by decide, avoids.alias? given found⟩))
  · exact joined (named.append_tame (by decide))

/-! ## Aggregates and directions -/

theorem AggregateFunction.tame_text (f : AggregateFunction) : f.text.Tame := by cases f <;> decide

theorem Direction.tame_text (d : Direction) : d.text.Tame := by cases d <;> decide

namespace Aggregate

variable {a : Aggregate} (avoids : a.column.Avoids ban)
include avoids

theorem avoids_argumentText : a.argumentText.Avoids ban := by
  unfold argumentText
  split
  · exact Text.Tame.append_avoids (by decide) avoids
  · exact avoids

theorem avoids_text : a.text.Avoids ban := by
  have opened : Tame (a.function.text ++ "(") := Text.tame_append.2 ⟨a.function.tame_text, by decide⟩
  exact (opened.append_avoids (avoids_argumentText avoids)).append_tame (by decide)

end Aggregate

/-! ## Clauses -/

namespace Statement

namespace Source

section Avoids

variable {t : Text} (avoids : t.Avoids ban)
include avoids

theorem avoids_selectColumns : Ensures (ofText t).selectColumns fun found => ∀ c ∈ found.1, c.Avoids ban := by
  unfold selectColumns
  split
  · exact ensures_ok fun c mem => absurd mem List.not_mem_nil
  · refine (Text.ensures_slice t _ _).bind fun found part => (infix_items part).bind fun items parts => ensures_pure ?_
    exact List.forall_mem_map.2 fun item mem => avoids_column (avoids.of_part (parts item mem))

theorem avoids_insertColumns : Ensures (ofText t).insertColumns fun found => ∀ c ∈ found, c.Avoids ban := by
  unfold insertColumns
  split
  · exact ensures_ok fun c mem => absurd mem List.not_mem_nil
  · refine (infix_list t _).bind fun items parts => ensures_pure (List.forall_mem_map.2 fun item mem => ?_)
    cases items with
    | none => cases mem
    | some items =>
      have part := avoids.of_part (parts items rfl item mem)
      exact ⟨⟨part.of_part (Text.infix_stripBackticks item), fun _ => nofun⟩, fun _ => nofun⟩

theorem avoids_columns (kind : Kind) : Ensures ((ofText t).columns kind) fun found => ∀ c ∈ found.1, c.Avoids ban := by
  unfold columns
  split
  · exact avoids_selectColumns avoids
  · exact (avoids_insertColumns avoids).bind fun found each => ensures_pure each
  · exact ensures_ok fun c mem => absurd mem List.not_mem_nil

theorem avoids_join {hit : Scan.Hit Pattern.JoinMatch} (named : hit.value.table.table.IsNamed) :
    Ensures ((ofText t).join hit) (Join.Avoids ban) := by
  -- the words in front of the table are put together again with single spaces
  have words {keyword : Text} (part : keyword <:+: t) : Text.Avoids ban (Text.join " " (Text.words keyword)) := by
    refine Text.avoids_join (fun word mem => avoids.of_part ?_) (by decide) (by decide)
    exact (Text.infix_words keyword word mem).trans part
  have aliased : ∀ given ∈ hit.value.table.table.alias?, given.Tame :=
    fun given found => (named.alias? given found).tame
  unfold Source.join
  refine (Text.ensures_slice t _ _).bind fun keyword part => ?_
  dsimp only
  split
  · refine (infix_body t _ _).bind fun on within => ensures_pure ?_
    exact ⟨words part, named.name, aliased, avoids.of_part within⟩
  · exact ensures_pure ⟨words part, named.name, aliased, Text.avoids_nil⟩

theorem avoids_joins : Ensures (ofText t).joins fun joins => ∀ join ∈ joins, join.Avoids ban :=
  .mapM fun hit mem => avoids_join avoids (Pattern.yields_join.findAll hit mem)

theorem avoids_values :
    Ensures (ofText t).values fun found => ∀ values ∈ found, ∀ value ∈ values, value.Avoids ban := by
  unfold values
  split
  · exact ensures_ok fun _ => nofun
  · exact fun found read items given item mem => avoids.of_part (infix_list t _ found read items given item mem)

theorem avoids_assignments :
    Ensures (ofText t).assignments fun found => ∀ pairs ∈ found, ∀ a ∈ pairs, a.Avoids ban := by
  unfold assignments
  refine (infix_clause t _ _).bind fun found part => ?_
  split
  · exact ensures_pure fun _ => nofun
  · rename_i text
    refine (infix_items (part text rfl)).bind fun items parts => ?_
    have each : Ensures (items.mapM assignment?) fun pairs => ∀ pair ∈ pairs, ∀ a ∈ pair, a.Avoids ban :=
      .mapM fun item mem => ensures_assignment (avoids.of_part (parts item mem))
    refine each.bind fun pairs assigned => ensures_pure ?_
    rintro _ ⟨⟩ a mem
    obtain ⟨pair, member, found⟩ := List.mem_filterMap.1 mem
    exact assigned pair member a found

theorem avoids_groupBy : Ensures (ofText t).groupBy fun found => ∀ g ∈ found, g.Avoids ban := by
  unfold groupBy
  refine (infix_clause t _ _).bind fun found part => ?_
  split
  · exact ensures_pure fun g mem => absurd mem List.not_mem_nil
  · rename_i text
    refine (infix_items (part text rfl)).bind fun items parts => ensures_pure ?_
    exact List.forall_mem_map.2 fun item mem => avoids_columnName (avoids.of_part (parts item mem))

theorem avoids_orderBy : Ensures (ofText t).orderBy fun found => ∀ o ∈ found, o.toColumnName.Avoids ban := by
  unfold orderBy
  refine (infix_clause t _ _).bind fun found part => ?_
  split
  · exact ensures_pure fun o mem => absurd mem List.not_mem_nil
  · rename_i text
    refine (infix_items (part text rfl)).bind fun items parts => ensures_pure fun o mem => ?_
    obtain ⟨item, member, found⟩ := List.mem_filterMap.1 mem
    exact avoids_orderTerm (avoids.of_part (parts item member)) found

end Avoids
end Source

/-! ## Statements -/

/-- All texts of the statement avoid the ban, and its tables have names. -/
structure Avoids (ban : Text.Ban) (s : Statement) : Prop where
  main : ∀ table ∈ s.main, table.IsNamed
  columns : ∀ c ∈ s.columns, c.Avoids ban
  joins : ∀ join ∈ s.joins, join.Avoids ban
  condition : s.condition.Avoids ban
  values : ∀ values ∈ s.values, ∀ value ∈ values, value.Avoids ban
  assignments : ∀ pairs ∈ s.assignments, ∀ a ∈ pairs, a.Avoids ban
  groupBy : ∀ g ∈ s.groupBy, g.Avoids ban
  having : ∀ having ∈ s.having, having.Avoids ban
  orderBy : ∀ o ∈ s.orderBy, o.toColumnName.Avoids ban

theorem avoids_empty : Avoids ban {} where
  main := fun _ => nofun
  columns := fun _ mem => absurd mem List.not_mem_nil
  joins := fun _ mem => absurd mem List.not_mem_nil
  condition := Text.avoids_nil
  values := fun _ => nofun
  assignments := fun _ => nofun
  groupBy := fun _ mem => absurd mem List.not_mem_nil
  having := fun _ => nofun
  orderBy := fun _ mem => absurd mem List.not_mem_nil

theorem ReadsAs.avoids {t : Text} {s : Statement} (reads : ReadsAs t s) (avoids : t.Avoids ban) : s.Avoids ban where
  main := fun table found => Source.isNamed_main (reads.main.trans found)
  columns := Source.avoids_columns avoids s.kind _ reads.columns
  joins := Source.avoids_joins avoids _ reads.joins
  condition := avoids.of_part reads.infix_condition
  values := by
    have read := reads.values
    split at read
    · exact Source.avoids_values avoids _ read
    · rw [← Except.ok.inj read]
      exact fun _ => nofun
  assignments := by
    have read := reads.assignments
    split at read
    · exact Source.avoids_assignments avoids _ read
    · rw [← Except.ok.inj read]
      exact fun _ => nofun
  groupBy := Source.avoids_groupBy avoids _ reads.groupBy
  having := fun text found => avoids.of_part (Source.infix_clause t _ _ _ reads.having text found)
  orderBy := Source.avoids_orderBy avoids _ reads.orderBy

/-- **A statement avoids what its text avoids.** -/
theorem ensures_parse_avoids {sql : Text} (avoids : sql.Avoids ban) : Ensures (parse sql) (Avoids ban) := by
  intro s read
  rcases reads_of_parse read with rfl | reads
  · exact avoids_empty
  · exact reads.avoids (avoids.of_part (infix_strip sql))

variable {s : Statement} (avoids : s.Avoids ban)
include avoids

theorem Avoids.table : s.table.Tame := by
  unfold Statement.table
  split
  · rename_i table found
    exact (avoids.main table found).name.tame
  · decide

theorem Avoids.inert_table : s.table.Inert := by
  unfold Statement.table
  split
  · rename_i table found
    exact (avoids.main table found).name.inert
  · decide

theorem Avoids.alias? {given : Text} (found : s.alias? = some given) : given.Tame := by
  obtain ⟨table, main, aliased⟩ := Option.bind_eq_some_iff.1 found
  exact ((avoids.main table main).alias? given aliased).tame

theorem Avoids.reference : s.reference.Tame := by
  unfold Statement.reference
  cases found : s.alias? with
  | none => exact avoids.table
  | some given => exact avoids.alias? found

theorem Avoids.value {value : Text} (mem : value ∈ s.values.getD []) : value.Avoids ban := by
  cases given : s.values with
  | none =>
    rw [given] at mem
    cases mem
  | some values =>
    rw [given] at mem
    exact avoids.values values given value mem

theorem Avoids.assignment {a : Assignment} (mem : a ∈ s.assignments.getD []) : a.Avoids ban := by
  cases given : s.assignments with
  | none =>
    rw [given] at mem
    cases mem
  | some pairs =>
    rw [given] at mem
    exact avoids.assignments pairs given a mem

theorem Avoids.having? {having : Text} (found : s.having? = some having) : having.Avoids ban :=
  avoids.having having (Option.filter_eq_some_iff.1 found).1

theorem Avoids.scalar? {a : Aggregate} (found : s.scalar? = some a) : a.column.Avoids ban := by
  unfold Statement.scalar? at found
  split at found
  · rename_i column columns _ _
    have listed : column ∈ s.columns := by
      rw [columns]
      exact List.mem_singleton_self column
    exact (avoids.columns column listed).name.of_part (Aggregate.infix_column found)
  · cases found

end Statement
end QueryCode
