import QueryCode.Proofs.Code.Inert
import QueryCode.Proofs.Ensures
import QueryCode.Statement.Parser

/-!
# Names of tables

The tables of a statement and their aliases are found by patterns whose names are made of word characters, so no quote or
bracket is among them, whatever the statement looks like.
-/

namespace QueryCode
set_option autoImplicit false

namespace Pattern

open Text Text.Scan

/-- A name as the patterns find it. -/
structure IsName (t : Text) : Prop where
  head : t.head?.any isHead = true
  chars : ∀ c ∈ t, isHead c = true ∨ isWord c = true

theorem IsName.inert {t : Text} (named : IsName t) : t.Inert := by
  intro c mem
  rcases named.chars c mem with head | word
  · exact Scanner.isInert_of_class (by decide) head
  · exact Scanner.isInert_of_class (by decide) word

theorem yields_name : Yields name IsName := by
  unfold name
  refine (yields_one isHead).bind fun c head => ?_
  refine (yields_run isWord).bind fun t word => yields_pure ⟨head, ?_⟩
  exact List.forall_mem_cons.2 ⟨.inl head, fun d mem => .inr (word d mem)⟩

theorem yields_tickedName : Yields tickedName fun found => IsName found.1 := by
  unfold tickedName
  refine .after _ fun _ => yields_name.bind fun found named => ?_
  exact .after _ fun _ => .after _ fun _ => yields_pure named

theorem yields_tableName : Yields tableName fun found => IsName found.1 :=
  .orElse (.after _ fun _ => yields_tickedName) yields_tickedName

theorem yields_nextName : Yields nextName fun next => IsName next.1 := by
  have bare : Yields nextName.bare fun next => IsName next.1 :=
    yields_name.bind fun _ named => .after _ fun _ => yields_pure named
  exact .after _ fun _ => .orElse (.after _ fun _ => .after _ fun _ => bare) bare

end Pattern

/-- The table and its alias have names. -/
structure Table.IsNamed (table : Table) : Prop where
  name : Pattern.IsName table.name
  alias? : ∀ given ∈ table.alias?, Pattern.IsName given

namespace Pattern

open Text Text.Scan

theorem yields_tableMatch : Yields tableMatch fun found => found.table.IsNamed := by
  have next : Yields (opt nextName) fun next => ∀ word ∈ next, IsName word.1 := yields_nextName.opt
  refine yields_tableName.bind fun found named => next.bind fun next words => yields_pure ⟨named, ?_⟩
  intro given kept
  obtain ⟨word, filtered, rfl⟩ := Option.map_eq_some_iff.1 kept
  exact words word (Option.filter_eq_some_iff.1 filtered).1

theorem yields_fromTable : Yields fromTable fun found => found.table.IsNamed := by
  unfold fromTable
  exact .after _ fun _ => .after _ fun _ => .after _ fun _ => yields_tableMatch

theorem yields_intoTable : Yields intoTable IsName := by
  unfold intoTable
  refine .after _ fun _ => .after _ fun _ => .after _ fun _ => ?_
  exact yields_tableName.bind fun found named => yields_pure named

theorem yields_updateTable : Yields updateTable fun found => found.table.IsNamed := by
  unfold updateTable
  exact .after _ fun _ => .after _ fun _ => .after _ fun _ => yields_tableMatch

theorem yields_join : Yields join fun found => found.table.table.IsNamed := by
  unfold join
  refine .after _ fun _ => .after _ fun _ => .after _ fun _ => .after _ fun _ => ?_
  exact yields_tableMatch.bind fun found named => yields_pure named

end Pattern

namespace Statement
namespace Source

theorem isNamed_main {s : Source} {table : Table} (found : s.main? = some table) : table.IsNamed := by
  unfold main? at found
  split at found
  · rename_i hit first
    cases found
    exact Pattern.yields_fromTable.find first
  · split at found
    · rename_i hit first
      cases found
      exact ⟨Pattern.yields_intoTable.find first, fun _ => nofun⟩
    · obtain ⟨⟨match', stop⟩, first, rfl⟩ := Option.map_eq_some_iff.1 found
      exact Pattern.yields_updateTable _ _ _ first

end Source
end Statement
end QueryCode
