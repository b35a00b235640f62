import Mathlib.Data.List.Nodup
import QueryCode.Proofs.Partition
import QueryCode.Proofs.Total

/-!
# Where the columns of a query with joins are written

Each item of the select list but a star belongs to one place of the call: the list of attributes of the first join
that its table names, or the list of the call itself if it is an aggregate, has no table, or has one that no join is
named by. A place whose table is asked for with a star has no list, which stands for the plain columns of the table
only. So an item is written unless its place has no list, and then it is implied only if it is a plain column of that
table without an alias: `select_columns`. With a star of the main table the aggregates and the renamed columns of the
list are dropped, and with a star of a joined table its renamed columns.
-/

namespace QueryCode
set_option autoImplicit false

namespace Finder

/-! ## Reading a call -/

/-- The value of a property, if this is its key. -/
def valueOf? (key : String) : Code → Option Code
  | .row [.word name, _, value] => if name = key.toList then some value else none
  | _ => none

/-- The value of the first property of an object with this key. -/
def property? (key : String) : Code → Option Code
  | .list .curly _ items => items.findSome? (valueOf? key)
  | _ => none

/-- The elements of an array. -/
def elements? : Code → Option (List Code)
  | .list .square _ items => some items
  | _ => none

/-- The object of options of a call that has no other argument. -/
def options? : Code → Option Code
  | .row [_, _, _, .list .round _ [options]] => some options
  | _ => none

/-- The attributes that an object lists. -/
def attributes? (object : Code) : Option (List Code) := (property? "attributes" object).bind elements?

/-- The included models of a call. -/
def includes (call : Code) : List Code := (((options? call).bind (property? "include")).bind elements?).getD []

/-- The attributes that a call lists itself, or those of its `i`-th included model. -/
def attributesAt? (call : Code) : Option Nat → Option (List Code)
  | none => (options? call).bind attributes?
  | some i => (includes call)[i]?.bind attributes?

theorem valueOf_field (key name : String) (value : Code) :
    valueOf? key (field name value) = if name.toList = key.toList then some value else none := rfl

/-- No item is a property with this key. -/
def Lacks (key : String) (items : List Code) : Prop := ∀ item ∈ items, valueOf? key item = none

section Lacks

variable {key : String} {items more : List Code}

theorem lacks_append : Lacks key (items ++ more) ↔ Lacks key items ∧ Lacks key more := List.forall_mem_append

/-- A property is found between others. -/
theorem findSome_between (front : Lacks key items) (middle : List Code) (back : Lacks key more) :
    (items ++ middle ++ more).findSome? (valueOf? key) = middle.findSome? (valueOf? key) := by
  rw [List.findSome?_append, List.findSome?_append, List.findSome?_eq_none_iff.2 front,
    List.findSome?_eq_none_iff.2 back, Option.none_or, Option.or_none]

theorem lacks_field {name : String} (other : name.toList ≠ key.toList) (value : Code) : Lacks key [field name value] := by
  rw [Lacks, List.forall_mem_singleton, valueOf_field, if_neg other]

end Lacks

/-! ## Options that list no attributes -/

theorem lacks_nil (key : String) : Lacks key [] := List.forall_mem_nil _

theorem lacks_whereOption (s : Statement) (wrapped : Bool) : Ensures (whereOption s wrapped) (Lacks "attributes") := by
  unfold whereOption
  split
  · exact .after _ fun found => ensures_pure (lacks_field (by decide) found)
  · exact ensures_pure (lacks_nil _)

theorem lacks_groupOption (s : Statement) : Lacks "attributes" (groupOption s) := by
  unfold groupOption
  split
  · exact lacks_nil _
  · exact lacks_field (by decide) _

theorem lacks_orderOption (s : Statement) : Lacks "attributes" (orderOption s) := by
  unfold orderOption
  split
  · exact lacks_nil _
  · exact lacks_field (by decide) _

theorem lacks_limitOptions (s : Statement) : Lacks "attributes" (limitOptions s) := by
  unfold limitOptions
  split
  · exact lacks_nil _
  · refine List.forall_mem_cons.2 ⟨by rw [valueOf_field, if_neg (by decide)], ?_⟩
    split
    · exact lacks_field (by decide) _
    · exact lacks_nil _

namespace Joined

theorem lacks_havingOption (s : Statement) : Ensures (havingOption s) (Lacks "attributes") := by
  unfold havingOption
  split
  · exact .after _ fun found => ensures_pure (lacks_field (by decide) found)
  · exact ensures_pure (lacks_nil _)

theorem lacks_headFields (join : Join) : Lacks "attributes" (headFields join) := by
  unfold headFields
  refine List.forall_mem_cons.2 ⟨by rw [valueOf_field, if_neg (by decide)], ?_⟩
  split
  · exact lacks_field (by decide) _
  · exact lacks_nil _

/-! ## Places -/

/-- The places of a call that can list attributes: the call itself and each included model. -/
def places (s : Statement) : List (Option Nat) := none :: (List.range s.joins.length).map some

/-- A star asks for all columns of a place. -/
def isFull (s : Statement) : Option Nat → Bool
  | none => wantsMain s
  | some i => s.joins[i]?.any fun join => s.columns.any fun c => c.name == "*" && c.table.any (refersTo join)

/-- The items of the select list that are no star. -/
def items (s : Statement) : List Column := s.columns.filter fun c => c.name != "*"

/-- Those of them that belong to a place. -/
def share (s : Statement) (place : Option Nat) : List Column := (items s).filter fun c => owner? s c == place

/-- How a place lists an item. -/
def attributeAt (s : Statement) : Option Nat → Column → Code
  | none, c => columnAttribute s c
  | some _, c =>
    match c.alias? with
    | some given => Code.array [.quoted c.name, .quoted given]
    | none => .quoted c.name

/-- The item is a plain column of the table of its place, without an alias. A name without a table is one of the main
table. -/
def isImplied (s : Statement) (c : Column) : Bool :=
  c.alias?.isNone && ((owner? s c).isSome || (Naming.isIdentifier c.name && c.table.all s.isMain))

/-- The item is written in the list of its place, or implied because the place has none. -/
def Emitted (s : Statement) (call : Code) (c : Column) : Prop :=
  match attributesAt? call (owner? s c) with
  | some list => attributeAt s (owner? s c) c ∈ list
  | none => isImplied s c = true

theorem sameWord_comm (s t : Text) : Text.sameWord s t = Text.sameWord t s := BEq.comm

theorem refersTo_of_isNamed {join : Join} {name : Text} (named : join.isNamed name = true) : refersTo join name = true := by
  unfold Join.isNamed at named
  unfold refersTo Join.reference
  rw [sameWord_comm name, sameWord_comm name, Bool.or_eq_true]
  rcases Bool.or_eq_true_iff.1 named with table | given
  · exact .inr table
  · left
    cases aliased : join.alias? with
    | none =>
      rw [aliased] at given
      cases given
    | some word =>
      rw [aliased] at given
      exact given

/-- An item belongs to a join if it is no aggregate and its table, which is not the main one, names this join first. -/
theorem owner_eq_some {s : Statement} {c : Column} {i : Nat} :
    owner? s c = some i ↔ Aggregate.parse? c.name = none ∧
      ∃ table ∈ c.table, s.isMain table = false ∧ s.joins.findIdx? (·.isNamed table) = some i := by
  unfold owner?
  cases Aggregate.parse? c.name with
  | some a => simp
  | none =>
    cases c.table with
    | none => simp
    | some table => cases main : s.isMain table <;> simp [main]

/-! ## What each place lists -/

/-- A place that is not asked for in full has no star of its own. -/
theorem share_of_not_isFull {s : Statement} {i : Nat} (within : i < s.joins.length) (part : isFull s (some i) = false) :
    share s (some i) = s.columns.filter fun c => owner? s c == some i := by
  rw [share, items, List.filter_filter]
  refine List.filter_congr fun c mem => ?_
  by_cases owned : owner? s c = some i
  · obtain ⟨_, table, named, _, first⟩ := owner_eq_some.1 owned
    have star : (c.name == "*".toList) = false := by
      rw [← Bool.not_eq_true]
      intro star
      obtain ⟨_, named', _⟩ := List.findIdx?_eq_some_iff_getElem.1 first
      have full : isFull s (some i) = true := by
        rw [isFull, List.getElem?_eq_getElem within, Option.any_some, List.any_eq_true]
        refine ⟨c, mem, ?_⟩
        rw [star, named, Option.any_some, refersTo_of_isNamed named']
        rfl
      rw [part] at full
      cases full
    rw [bne, star, Bool.not_false, Bool.and_true]
  · simp [owned]

section Lists

variable {s : Statement} (listed : s.selectsAll = false)
include listed

theorem findSome_joinAttributes {i : Nat} (within : i < s.joins.length) :
    ((joinAttributes s i s.joins[i]).findSome? (valueOf? "attributes")).bind elements? =
      if isFull s (some i) then none else some ((share s (some i)).map (attributeAt s (some i))) := by
  have full : isFull s (some i) =
      s.columns.any fun c => c.name == "*" && c.table.any (refersTo s.joins[i]) := by
    rw [isFull, List.getElem?_eq_getElem within, Option.any_some]
  rw [joinAttributes, listed, Bool.false_or, ← full]
  cases part : isFull s (some i) with
  | true => rfl
  | false =>
    rw [share_of_not_isFull within part]
    rfl

/-- An included model lists the items of its place. -/
theorem attributes_fullInclude {i : Nat} (within : i < s.joins.length) :
    Ensures (fullInclude s i s.joins[i]) fun object =>
      attributes? object = if isFull s (some i) then none else some ((share s (some i)).map (attributeAt s (some i))) := by
  have fields (association : Option Association) (extra : Option Code) :
      attributes? (Code.object
        (headFields s.joins[i]
          ++ (extra.map (field "where")).toList
          ++ joinAttributes s i s.joins[i]
          ++ [requiredField s.joins[i]]
          ++ (if s.joins[i].kind == .right then [field "right" "true"] else [])
          ++ (if association.isNone then [onField s.joins[i]] else []))) =
        if isFull s (some i) then none else some ((share s (some i)).map (attributeAt s (some i))) := by
    have front : Lacks "attributes" (headFields s.joins[i] ++ (extra.map (field "where")).toList) := by
      refine lacks_append.2 ⟨lacks_headFields _, ?_⟩
      cases extra with
      | none => exact lacks_nil _
      | some found => exact lacks_field (by decide) found
    have back : Lacks "attributes" ([requiredField s.joins[i]]
        ++ ((if s.joins[i].kind == .right then [field "right" "true"] else [])
          ++ (if association.isNone then [onField s.joins[i]] else []))) := by
      refine lacks_append.2 ⟨lacks_field (by decide) _, lacks_append.2 ⟨?_, ?_⟩⟩
      · split
        · exact lacks_field (by decide) _
        · exact lacks_nil _
      · split
        · exact lacks_field (by decide) _
        · exact lacks_nil _
    rw [← findSome_joinAttributes listed within, ← findSome_between front _ back, ← List.append_assoc, ← List.append_assoc]
    rfl
  refine .after _ fun association => ?_
  dsimp only
  split
  · exact .after _ fun extra => ensures_pure (fields association extra)
  · exact ensures_pure (fields association none)

/-- The included models are those of the joins, one for each of them and in their order. -/
theorem attributes_includes : Ensures ((s.joins.mapIdx fun i join => fullInclude s i join).mapM id) fun items =>
    items.length = s.joins.length ∧ ∀ i < s.joins.length, items[i]?.bind attributes? =
      if isFull s (some i) then none else some ((share s (some i)).map (attributeAt s (some i))) := by
  intro items made
  have each := Ensures.mapM_forall₂ items made
  have length : items.length = s.joins.length := by rw [← each.length_eq, List.length_mapIdx]
  refine ⟨length, fun i within => ?_⟩
  have found : fullInclude s i s.joins[i] = .ok items[i] := by
    have here := each.get (by simpa using within) (by omega)
    simpa using here
  rw [List.getElem?_eq_getElem (by omega)]
  exact attributes_fullInclude listed within _ found

/-- The call lists the items that belong to no join. -/
theorem findSome_attributesOption : ((attributesOption s).findSome? (valueOf? "attributes")).bind elements? =
    if isFull s none then none else some ((share s none).map (attributeAt s none)) := by
  rw [attributesOption, listed, Bool.false_or, isFull]
  cases wantsMain s with
  | true => rfl
  | false =>
    have own : (s.columns.filter fun c => (owner? s c).isNone && c.name != "*") = share s none := by
      rw [share, items, List.filter_filter]
      refine List.filter_congr fun c _ => ?_
      cases owner? s c <;> rfl
    rw [if_neg Bool.false_ne_true, if_neg Bool.false_ne_true, own]
    rfl

/-- **Each place of a call lists the items that belong to it, unless a star asks for it in full.** -/
theorem attributesAt_select (several : s.scalar? = none) : Ensures (select s) fun call =>
    (includes call).length = s.joins.length ∧ ∀ place ∈ places s, attributesAt? call place =
      if isFull s place then none else some ((share s place).map (attributeAt s place)) := by
  refine (attributes_includes listed).bind fun items each => (lacks_whereOption s true).bind fun found lacks => ?_
  rw [several]
  refine (lacks_havingOption s).bind fun having lacks' => ensures_pure ?_
  refine ⟨each.1, ?_⟩
  rw [places, List.forall_mem_cons, List.forall_mem_map]
  refine ⟨?_, fun i within => each.2 i (List.mem_range.1 within)⟩
  have front : Lacks "attributes" [field "include" (Code.array items)] := lacks_field (by decide) _
  have back : Lacks "attributes" (found ++ (groupOption s ++ (having ++ (orderOption s ++ limitOptions s)))) := by
    refine lacks_append.2 ⟨lacks, lacks_append.2 ⟨lacks_groupOption s, lacks_append.2 ⟨lacks', ?_⟩⟩⟩
    exact lacks_append.2 ⟨lacks_orderOption s, lacks_limitOptions s⟩
  rw [← findSome_attributesOption listed, ← findSome_between front _ back]
  simp only [← List.append_assoc]
  rfl

end Lists

theorem owner_mem_places (s : Statement) (c : Column) : owner? s c ∈ places s := by
  cases owned : owner? s c with
  | none => exact List.mem_cons_self
  | some i =>
    obtain ⟨_, table, _, _, first⟩ := owner_eq_some.1 owned
    obtain ⟨within, _⟩ := List.findIdx?_eq_some_iff_getElem.1 first
    exact List.mem_cons_of_mem _ (List.mem_map_of_mem (List.mem_range.2 within))

theorem nodup_places (s : Statement) : (places s).Nodup := by
  rw [places, List.nodup_cons]
  exact ⟨by simp, List.Nodup.map (fun _ _ => Option.some.inj) List.nodup_range⟩

/-- **No item belongs to two places, and each belongs to one.** -/
theorem perm_share (s : Statement) : ((places s).flatMap (share s)).Perm (items s) :=
  perm_flatMap_filter (owner? s) (nodup_places s) fun c _ => owner_mem_places s c

/-- **Which columns of a query with joins are written.** Where the statement asks for single columns and not for one
aggregate alone, each item but a star belongs to one place of the call, and each place lists its items in order unless
a star asks for it in full. An item is lost exactly if its place is asked for in full and it is no plain column of that
table without an alias. There is a call if no condition of the statement has a Kelvin sign. -/
theorem select_columns {s : Statement} (listed : s.selectsAll = false) (several : s.scalar? = none) :
    (s.IsClear → Returns (select s)) ∧
      (∀ c i, owner? s c = some i ↔ Aggregate.parse? c.name = none ∧
        ∃ table ∈ c.table, s.isMain table = false ∧ s.joins.findIdx? (·.isNamed table) = some i) ∧
      ((places s).flatMap (share s)).Perm (items s) ∧
      ∀ call, select s = .ok call →
        (includes call).length = s.joins.length ∧
        (∀ place ∈ places s, attributesAt? call place =
          if isFull s place then none else some ((share s place).map (attributeAt s place))) ∧
        ∀ c ∈ items s, (Emitted s call c ↔ isFull s (owner? s c) = false ∨ isImplied s c = true) := by
  refine ⟨fun clear => (total_writer clear).select, fun c i => owner_eq_some, perm_share s, fun call written => ?_⟩
  obtain ⟨length, lists⟩ := attributesAt_select listed several call written
  refine ⟨length, lists, fun c mem => ?_⟩
  have list := lists _ (owner_mem_places s c)
  unfold Emitted
  cases full : isFull s (owner? s c) with
  | true =>
    rw [list, full]
    simp
  | false =>
    have own : c ∈ share s (owner? s c) := List.mem_filter.2 ⟨mem, beq_self_eq_true _⟩
    rw [list, full]
    simp only [Bool.false_eq_true, if_false, true_or, iff_true]
    exact List.mem_map_of_mem own

/-- With a star of the main table the number of posts is lost, and a column of the posts is still listed. -/
theorem select_columns_star :
    let posts : Column := ⟨⟨"COUNT(p.id)".toList, none⟩, some "n".toList⟩
    let title : Column := ⟨⟨"title".toList, some "P".toList⟩, some "t".toList⟩
    let s : Statement := {
      kind := .select
      main := some ⟨"users".toList, some "u".toList⟩
      columns := [⟨⟨"*".toList, some "u".toList⟩, none⟩, posts, title]
      joins := [⟨.left, false, "LEFT JOIN".toList, "posts".toList, some "p".toList, "p.user_id = u.id".toList⟩] }
    s.selectsAll = false ∧ s.scalar? = none ∧
      ∃ call, select s = .ok call ∧ attributesAt? call none = none ∧ ¬ Emitted s call posts ∧
        attributesAt? call (some 0) = some [Code.array [.quoted "title".toList, .quoted "t".toList]] ∧
        Emitted s call title := by
  intro posts title s
  have listed : s.selectsAll = false := by decide
  have several : s.scalar? = none := by decide
  obtain ⟨returns, _, _, lists⟩ := select_columns listed several
  have clear : s.IsClear := by
    refine ⟨by decide, ?_, List.forall_mem_singleton.2 (by decide)⟩
    intro text found
    cases found
  obtain ⟨call, written⟩ := returns clear
  obtain ⟨_, lists, emitted⟩ := lists call written
  refine ⟨listed, several, call, written, ?_, ?_, ?_, ?_⟩
  · rw [lists none (by decide)]
    rfl
  · rw [emitted posts (by decide)]
    decide
  · rw [lists (some 0) (by decide)]
    rfl
  · rw [emitted title (by decide)]
    decide

end Joined
end Finder
end QueryCode
