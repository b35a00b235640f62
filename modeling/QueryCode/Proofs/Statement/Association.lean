import Mathlib.Data.List.Pairwise
import QueryCode.Proofs.Statement.Equation

/-!
# What makes a join an association

The association of a join on a key equation does not depend on which side of the equation stands first. Where every
name of the statement stands for one table only, it does not depend either on which of its names a table goes by, and
it is the association that the conventions for key names say.
-/

namespace QueryCode
set_option autoImplicit false

/-! ## The tables of a statement -/

namespace Table

/-- The names by which a statement can refer to the table. -/
def names (t : Table) : List Text := t.name :: t.alias?.toList

/-- The table has this name or alias, whatever the letter case. -/
def goesBy (t : Table) (name : Text) : Bool := t.names.any (Text.sameWord · name)

theorem goesBy_name (t : Table) : t.goesBy t.name = true := by simp [goesBy, names, Text.sameWord]

theorem goesBy_congr (t : Table) {a b : Text} (same : Text.sameWord a b = true) : t.goesBy a = t.goesBy b := by
  have letters : Text.lower a = Text.lower b := beq_iff_eq.1 same
  simp only [goesBy, Text.sameWord, letters]

/-- No name of the one table is a name of the other. -/
def Apart (t t' : Table) : Prop := ∀ a ∈ t.names, ∀ b ∈ t'.names, Text.sameWord a b = false

instance : Std.Symm Apart where
  symm t t' apart a listed b listed' := by
    rw [← apart b listed' a listed]
    exact BEq.comm

theorem Apart.not_goesBy {t t' : Table} (apart : t.Apart t') {a : Text} (named : t.goesBy a = true) : t'.goesBy a = false := by
  obtain ⟨x, listed, same⟩ := List.any_eq_true.1 named
  rw [goesBy, List.any_eq_false]
  intro y listed' same'
  have both : Text.sameWord x y = true := by
    rw [Text.sameWord, beq_iff_eq] at same same' ⊢
    rw [same, same']
  rw [apart x listed y listed'] at both
  cases both

end Table

/-- The joined table with its alias. -/
def Join.source (j : Join) : Table := ⟨j.table, j.alias?⟩

theorem Join.isNamed_eq_goesBy (j : Join) (name : Text) : j.isNamed name = j.source.goesBy name := by
  cases given : j.alias? <;> simp [isNamed, source, Table.goesBy, Table.names, given]

namespace Statement

variable {s : Statement} {t t' : Table}

/-- The main table with its alias. -/
def mainSource (s : Statement) : Table := ⟨s.table, s.alias?⟩

/-- The main table and the joined tables. -/
def sources (s : Statement) : List Table := s.mainSource :: s.joins.map Join.source

/-- No two names of tables and aliases are the same but for letter case. -/
def NamesApart (s : Statement) : Prop := (s.sources.flatMap Table.names).Pairwise fun a b => Text.sameWord a b = false

instance (s : Statement) : Decidable s.NamesApart := inferInstanceAs (Decidable (List.Pairwise _ _))

theorem isMain_eq_goesBy (s : Statement) (name : Text) : s.isMain name = s.mainSource.goesBy name := by
  have swap : Text.sameWord name s.table = Text.sameWord s.table name := BEq.comm
  cases given : s.alias? <;> simp [isMain, mainSource, Table.goesBy, Table.names, given, swap]

/-- A name refers to the first table that goes by it. -/
theorem resolve_eq (s : Statement) (name : Text) :
    s.resolve name = ((s.sources.find? (·.goesBy name)).map Table.name).getD name := by
  have joined : (s.joins.map Join.source).find? (·.goesBy name) = (s.joinFor? name).map Join.source := by
    rw [List.find?_map, joinFor?]
    congr 2
    funext j
    exact (j.isNamed_eq_goesBy name).symm
  rw [resolve, sources, List.find?_cons, isMain_eq_goesBy, joined]
  cases s.mainSource.goesBy name with
  | true => rfl
  | false => cases s.joinFor? name <;> rfl

section Apart

variable (apart : s.NamesApart)
include apart

theorem pairwise_sources : s.sources.Pairwise Table.Apart := (List.pairwise_flatMap.1 apart).2

/-- No name stands for two tables. -/
theorem eq_of_goesBy {a : Text} (mem : t ∈ s.sources) (mem' : t' ∈ s.sources) (named : t.goesBy a = true)
    (named' : t'.goesBy a = true) : t = t' := by
  by_contra other
  rw [((pairwise_sources apart).forall mem mem' other).not_goesBy named] at named'
  cases named'

theorem apart_mainSource (mem : t ∈ s.joins.map Join.source) : s.mainSource.Apart t :=
  (List.pairwise_cons.1 (pairwise_sources apart)).1 t mem

/-- A name of a table refers to it. -/
theorem resolve_of_goesBy {a : Text} (mem : t ∈ s.sources) (named : t.goesBy a = true) : s.resolve a = t.name := by
  rw [resolve_eq]
  cases found : s.sources.find? (·.goesBy a) with
  | none => exact absurd named (List.find?_eq_none.1 found t mem)
  | some t' =>
    have named' : t'.goesBy a = true := List.find?_some (p := (Table.goesBy · a)) found
    rw [eq_of_goesBy apart (List.mem_of_find?_eq_some found) mem named' named]
    rfl

/-- Only the names of a table refer to it. -/
theorem sameWord_resolve (mem : t ∈ s.sources) (a : Text) : Text.sameWord (s.resolve a) t.name = t.goesBy a := by
  have refers {b : Text} (same : Text.sameWord b t.name = true) : t.goesBy b = true := by
    rw [t.goesBy_congr same, t.goesBy_name]
  rw [Bool.eq_iff_iff]
  constructor
  · intro same
    rw [resolve_eq] at same
    cases found : s.sources.find? (·.goesBy a) with
    | none =>
      rw [found] at same
      exact refers same
    | some t' =>
      rw [found] at same
      rw [eq_of_goesBy apart mem (List.mem_of_find?_eq_some found) (refers same) t'.goesBy_name]
      exact List.find?_some (p := (Table.goesBy · a)) found
  · intro named
    rw [resolve_of_goesBy apart mem named]
    exact beq_self_eq_true _

end Apart
end Statement

/-! ## Conventional keys -/

namespace Association

/-- The first key is the `id` of `owner`, the second the column of `holder` that is named for `owner`. -/
def refers (owner holder : Table) (id reference : Key) : Bool :=
  owner.goesBy id.table && Text.sameWord id.column "id" && holder.goesBy reference.table &&
    Text.sameWord reference.column (Naming.singular owner.name ++ "_id")

/-- One of the keys is the `id` of `owner` and the other the column of `holder` that is named for `owner`. -/
def links (owner holder : Table) (left right : Key) : Bool := refers owner holder left right || refers owner holder right left

/-- No column is both an `id` and named for a table. -/
theorem not_isForeignKey_of_id {column : Text} (id : Text.sameWord column "id" = true) (table : Text) :
    isForeignKey column table = false := by
  rw [← Bool.not_eq_true]
  intro foreign
  rw [isForeignKey, Text.sameWord, beq_iff_eq, beq_iff_eq.1 id] at foreign
  have lengths := congrArg List.length foreign
  simp [Text.lower] at lengths

theorem ofKeys_of_id {main joined : Text} {id reference : Key} (other : Text.sameWord reference.column "id" = true) :
    ofKeys? main joined id reference = none := by
  rw [ofKeys?, not_isForeignKey_of_id other, Bool.and_false]
  rfl

theorem id_of_ofKeys {main joined : Text} {id reference : Key} (found : ofKeys? main joined id reference ≠ none) :
    Text.sameWord id.column "id" = true := by
  by_contra other
  rw [Bool.not_eq_true] at other
  rw [ofKeys?, other] at found
  exact found rfl

/-- Only one side of an equation can hold the `id`, so the sides can be swapped. -/
theorem ofKeys_or_comm (main joined : Text) (left right : Key) :
    (ofKeys? main joined left right).or (ofKeys? main joined right left) =
      (ofKeys? main joined right left).or (ofKeys? main joined left right) := by
  by_cases here : ofKeys? main joined left right = none
  · rw [here, Option.none_or, Option.or_none]
  · have there : ofKeys? main joined right left = none := ofKeys_of_id (id_of_ofKeys here)
    rw [there, Option.none_or, Option.or_none]

/-- An equation refers in one direction only. -/
theorem not_refers_of_refers {owner holder owner' holder' : Table} {id reference : Key}
    (points : refers owner holder id reference = true) : refers owner' holder' reference id = false := by
  simp only [refers, Bool.and_eq_true] at points
  have other : Text.sameWord id.column (Naming.singular owner'.name ++ "_id") = false := not_isForeignKey_of_id points.1.1.2 _
  rw [refers, other, Bool.and_false]

end Association

namespace Statement

open Association

/-- The keys are the same but for letter case and for the name that the statement gives to the table. -/
def SameKey (s : Statement) (k k' : Key) : Prop :=
  Text.sameWord k.column k'.column = true ∧
    (Text.sameWord k.table k'.table = true ∨ ∃ t ∈ s.sources, t.goesBy k.table = true ∧ t.goesBy k'.table = true)

section Apart

variable {s : Statement} {t : Table} (apart : s.NamesApart)
include apart

theorem ofKeys_resolveKey (mem : t ∈ s.joins.map Join.source) (id reference : Key) :
    ofKeys? s.table t.name (s.resolveKey id) (s.resolveKey reference) =
      if refers s.mainSource t id reference then some (.hasMany t.name)
      else if refers t s.mainSource id reference then some (.belongsTo (Naming.singular t.name))
      else none := by
  have first : s.mainSource ∈ s.sources := List.mem_cons_self
  have second : t ∈ s.sources := List.mem_cons_of_mem _ mem
  have ofMain (a : Text) : Text.sameWord (s.resolve a) s.table = s.mainSource.goesBy a := sameWord_resolve apart first a
  have ofJoin (a : Text) : Text.sameWord (s.resolve a) t.name = t.goesBy a := sameWord_resolve apart second a
  simp only [ofKeys?, resolveKey, ofMain, ofJoin, refers, isForeignKey]
  by_cases main : s.mainSource.goesBy id.table = true
  · have target : s.resolve id.table = s.mainSource.name := resolve_of_goesBy apart first main
    have other : t.goesBy id.table = false := (apart_mainSource apart mem).not_goesBy main
    simp only [main, target, other]
    grind
  · by_cases joined : t.goesBy id.table = true
    · simp only [main, joined, resolve_of_goesBy apart second joined]
      grind
    · simp [main, joined]

/-- A join links two tables in one direction only. -/
theorem not_links_of_links (mem : t ∈ s.joins.map Join.source) {left right : Key}
    (points : links t s.mainSource left right = true) : links s.mainSource t left right = false := by
  have one {id reference : Key} (points : refers t s.mainSource id reference = true) :
      refers s.mainSource t id reference = false := by
    simp only [refers, Bool.and_eq_true] at points
    have other : s.mainSource.goesBy id.table = false :=
      (symm (apart_mainSource apart mem) : t.Apart s.mainSource).not_goesBy points.1.1.1
    simp [refers, other]
  rw [links, Bool.or_eq_false_iff]
  rcases Bool.or_eq_true_iff.1 points with here | there
  · exact ⟨one here, not_refers_of_refers here⟩
  · exact ⟨not_refers_of_refers there, one there⟩

/-- Where no name stands for two tables, the conventions for key names decide what the join is. -/
theorem classify_of_namesApart (mem : t ∈ s.joins.map Join.source) {join : Join} (table : join.table = t.name)
    {e : EquationText} (written : e.text = Text.trim join.on) :
    s.classify? join =
      if links s.mainSource t e.left.key e.right.key then some (.hasMany t.name)
      else if links t s.mainSource e.left.key e.right.key then some (.belongsTo (Naming.singular t.name))
      else none := by
  rw [classify?, keyAssociation_of_text written, table, ofKeys_resolveKey apart mem, ofKeys_resolveKey apart mem]
  have across := @not_refers_of_refers t s.mainSource s.mainSource t e.left.key e.right.key
  simp only [links]
  grind

theorem goesBy_of_sameKey (mem : t ∈ s.sources) {k k' : Key} (same : s.SameKey k k') :
    t.goesBy k.table = t.goesBy k'.table := by
  rcases same.2 with letters | ⟨t', mem', named, named'⟩
  · exact t.goesBy_congr letters
  · by_cases same : t' = t
    · rw [← same, named, named']
    · have free : t'.Apart t := (pairwise_sources apart).forall mem' mem same
      rw [free.not_goesBy named, free.not_goesBy named']

theorem links_of_sameKey {owner holder : Table} (mem : owner ∈ s.sources) (mem' : holder ∈ s.sources)
    {left right left' right' : Key} (first : s.SameKey left left') (second : s.SameKey right right') :
    links owner holder left right = links owner holder left' right' := by
  have columns {k k' : Key} (same : s.SameKey k k') (word : Text) :
      Text.sameWord k.column word = Text.sameWord k'.column word := by
    rw [Text.sameWord, beq_iff_eq.1 same.1]
    rfl
  simp only [links, refers, goesBy_of_sameKey apart mem first, goesBy_of_sameKey apart mem second,
    goesBy_of_sameKey apart mem' first, goesBy_of_sameKey apart mem' second, columns first, columns second]

end Apart

/-- **What a join on a key equation is.** Of two statements with the same tables and aliases, and in each a join of the
same table on a key equation, with any backticks and white space in its text:

* if the equations have the same sides in another order, the joins are the same association;
* if no name stands for two tables and the sides agree but for letter case and for the names of their tables, the joins
  are the same association;
* if no name stands for two tables, the main table has many rows of the joined one exactly if one side is its `id` and
  the other the column of the joined table that is named for it, the main table belongs to the joined one exactly if this
  holds the other way round, and there is no association in all other cases. -/
theorem classify_keyEquation {s s' : Statement} (sources : s.sources = s'.sources) {j j' : Join} (mem : j ∈ s.joins)
    (table : j'.table = j.table) {e e' : EquationText} (written : e.text = Text.trim j.on)
    (written' : e'.text = Text.trim j'.on) :
    (e'.left.key = e.right.key → e'.right.key = e.left.key → s'.classify? j' = s.classify? j) ∧
      (s.NamesApart →
        (s.SameKey e.left.key e'.left.key → s.SameKey e.right.key e'.right.key → s'.classify? j' = s.classify? j) ∧
        (s.classify? j = some (.hasMany j.table) ↔ links s.mainSource j.source e.left.key e.right.key = true) ∧
        (s.classify? j = some (.belongsTo (Naming.singular j.table)) ↔
          links j.source s.mainSource e.left.key e.right.key = true) ∧
        (s.classify? j = none ↔
          links s.mainSource j.source e.left.key e.right.key = false ∧
            links j.source s.mainSource e.left.key e.right.key = false)) := by
  have main : s'.mainSource = s.mainSource := (List.cons.inj sources).1.symm
  have joins : s'.joins.map Join.source = s.joins.map Join.source := (List.cons.inj sources).2.symm
  have mem : j.source ∈ s.joins.map Join.source := List.mem_map_of_mem mem
  refine ⟨fun first second => ?_, fun apart => ?_⟩
  · have resolve (k : Key) : s'.resolveKey k = s.resolveKey k := by
      rw [resolveKey, resolveKey, resolve_eq, resolve_eq, sources]
    have name : s'.table = s.table := congrArg Table.name main
    rw [classify?, classify?, keyAssociation_of_text written, keyAssociation_of_text written', name, table, first, second,
      resolve, resolve]
    exact ofKeys_or_comm _ _ _ _
  · have apart' : s'.NamesApart := by
      rw [NamesApart, ← sources]
      exact apart
    have here := classify_of_namesApart apart mem rfl written
    have there := classify_of_namesApart apart' (joins ▸ mem) table written'
    have away := @not_links_of_links s j.source apart mem e.left.key e.right.key
    have name : j.source.name = j.table := rfl
    refine ⟨fun first second => ?_, ?_, ?_, ?_⟩
    · have first' : s.mainSource ∈ s.sources := List.mem_cons_self
      have second' : j.source ∈ s.sources := List.mem_cons_of_mem _ mem
      rw [here, there, main, links_of_sameKey apart first' second' first second,
        links_of_sameKey apart second' first' first second]
    all_goals
      rw [here, name]
      grind

/-- A join of posts `p` to users `u`, on their names and on their aliases. -/
theorem classify_keyEquation_aliased :
    let j : Join := ⟨.plain, false, "JOIN".toList, "posts".toList, some "p".toList, "users.id = posts.user_id".toList⟩
    let j' : Join := { j with on := "U.ID\t=`p`.user_id".toList }
    let s : Statement := { kind := .select, main := some ⟨"users".toList, some "u".toList⟩, joins := [j] }
    let s' : Statement := { s with joins := [j'] }
    s.NamesApart ∧ s.classify? j = some (.hasMany j.table) ∧ s'.classify? j' = s.classify? j := by
  intro j j' s s'
  let users : KeyText := ⟨⟨false, "users".toList, false, by decide⟩, ⟨false, "id".toList, false, by decide⟩⟩
  let posts : KeyText := ⟨⟨false, "posts".toList, false, by decide⟩, ⟨false, "user_id".toList, false, by decide⟩⟩
  let u : KeyText := ⟨⟨false, "U".toList, false, by decide⟩, ⟨false, "ID".toList, false, by decide⟩⟩
  let p : KeyText := ⟨⟨true, "p".toList, true, by decide⟩, ⟨false, "user_id".toList, false, by decide⟩⟩
  let e : EquationText := ⟨users, " ".toList, " ".toList, posts, by decide, by decide⟩
  let e' : EquationText := ⟨u, "\t".toList, [], p, by decide, by decide⟩
  have sources : s.sources = s'.sources := rfl
  have mem : j ∈ s.joins := List.mem_singleton_self j
  have table : j'.table = j.table := rfl
  have written : e.text = Text.trim j.on := by decide
  have written' : e'.text = Text.trim j'.on := by decide
  have apart : s.NamesApart := by decide
  have both := (classify_keyEquation sources mem table written written').2 apart
  have left : s.SameKey e.left.key e'.left.key :=
    ⟨by decide, .inr ⟨s.mainSource, List.mem_cons_self, by decide, by decide⟩⟩
  have right : s.SameKey e.right.key e'.right.key :=
    ⟨by decide, .inr ⟨j.source, List.mem_cons_of_mem _ List.mem_cons_self, by decide, by decide⟩⟩
  exact ⟨apart, both.2.1.2 (by decide), both.1 left right⟩

end Statement
end QueryCode
