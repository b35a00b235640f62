import QueryCode.Proofs.Change

/-!
# Limits in generated code

The code for a query has one place for its limit, and any limit there makes it longer, whichever shape the query
takes. The code for an update or a deletion has no such place. So a limit can be seen in the code exactly for queries:
`write_limit_ne_iff`.
-/

namespace QueryCode
set_option autoImplicit false

/-! ## Places for further parts -/

namespace Code

/-- The length of the items in round brackets. -/
def width (items : List Code) : Nat := (args items).text.length

theorem width_nil : width [] = 2 := rfl

theorem rowText_append (xs ys : List Code) : rowText (xs ++ ys) = rowText xs ++ rowText ys := by
  induction xs with
  | nil => rfl
  | cons x xs ih => simp only [List.cons_append, rowText, ih, List.append_assoc]

theorem itemsText_append (xs ys : List Code) : itemsText (xs ++ ys) = itemsText xs ++ itemsText ys := by
  induction xs with
  | nil => rfl
  | cons x xs ih => simp only [List.cons_append, itemsText, ih, List.append_assoc]

/-- Each item counts with a comma and a space; those of the first one make up for the brackets. -/
theorem width_of_ne_nil {items : List Code} (filled : items ≠ []) : width items = (itemsText items).length := by
  obtain ⟨item, more, rfl⟩ := List.exists_cons_of_ne_nil filled
  simp [width, args, text, itemsText]
  omega

theorem two_le_width (items : List Code) : 2 ≤ width items := by
  cases items with
  | nil => exact le_refl 2
  | cons item items =>
    rw [width_of_ne_nil (List.cons_ne_nil _ _)]
    simp [itemsText]

/-- A list with wider items is longer, whatever its brackets. -/
theorem length_list_lt {xs ys : List Code} (wider : width xs < width ys) (bracket : Bracket) (padded : Bool) :
    (list bracket padded xs).text.length < (list bracket padded ys).text.length := by
  have filled (item : Code) (items : List Code) : (list bracket padded (item :: items)).text.length =
      width (item :: items) + if padded then 2 else 0 := by
    cases padded <;> simp [width, args, text]
    omega
  cases ys with
  | nil =>
    have := two_le_width xs
    rw [width_nil] at wider
    omega
  | cons y ys =>
    rw [filled]
    cases xs with
    | nil =>
      rw [width_nil] at wider
      simp only [text, List.length_cons, List.length_nil]
      omega
    | cons x xs =>
      rw [filled]
      omega

/-- Further items make a list wider, if the first of them has a text. -/
theorem width_lt_insert {item : Code} (filled : item.text ≠ []) (xs more ys : List Code) :
    width (xs ++ ys) < width (xs ++ (item :: more) ++ ys) := by
  have long : 0 < item.text.length := List.length_pos_iff.2 filled
  have inserted : width (xs ++ (item :: more) ++ ys) =
      (itemsText xs).length + (2 + item.text.length + (itemsText more).length + (itemsText ys).length) := by
    rw [width_of_ne_nil (by simp), itemsText_append, itemsText_append, itemsText]
    simp
    omega
  rw [inserted]
  by_cases empty : xs ++ ys = []
  · rw [empty, width_nil]
    omega
  · rw [width_of_ne_nil empty, itemsText_append, List.length_append]
    omega

/-- A longer item makes a list wider. -/
theorem width_lt_item {x y : Code} (longer : x.text.length < y.text.length) (front back : List Code) :
    width (front ++ x :: back) < width (front ++ y :: back) := by
  rw [width_of_ne_nil (by simp), width_of_ne_nil (by simp)]
  simpa [itemsText_append, itemsText] using longer

/-- Code with a place for further parts that is longer with some parts there, if the first of them has a text. -/
def Grows (frame : List Code → Code) : Prop :=
  ∀ part parts, part.text ≠ [] → (frame []).text.length < (frame (part :: parts)).text.length

theorem grows_row (front back : List Code) : Grows fun parts => row (front ++ parts ++ back) := by
  intro part parts filled
  have long : 0 < part.text.length := List.length_pos_iff.2 filled
  simp only [text, rowText_append, rowText, List.length_append, List.length_nil]
  omega

end Code

/-! ## Queries with another limit -/

/-- In the code for the statement the limit has a place of its own, and nothing else depends on it. -/
def PlacesLimit (select : Statement → Except Fault Code) (limits : Statement → List Code) (s : Statement) : Prop :=
  ∃ frame, Code.Grows frame ∧
    ∀ limit, select { s with limit := limit } = .ok (frame (limits { s with limit := limit }))

namespace Relation

/-- The chain for a query, but for the calls of its limit. -/
structure Query where
  model : Text
  lead : List Call
  filters : Except Fault (List Call)
  /-- The calls that reduce the rows to one value, if the query asks for one. -/
  reduces : Option (List Call)
  groups : List Call
  orders : List Call
  selects : List Call
  distincts : List Call

namespace Query

/-- The code for the query with the calls of a limit. -/
def code (q : Query) (limits : List Call) : Except Fault Code := do
  let found ← q.filters
  return Chain.code ⟨q.model, q.lead ++ found ++
    match q.reduces with
    | some reduces => q.orders ++ limits ++ reduces
    | none => q.groups ++ q.orders ++ limits ++ q.selects ++ q.distincts⟩

theorem exists_frame {q : Query} {limits : List Call} {code : Code} (written : q.code limits = .ok code) :
    ∃ frame, Code.Grows frame ∧ ∀ limits, q.code limits = .ok (frame (limits.map Call.code)) := by
  cases found : q.filters with
  | error fault =>
    rw [Query.code, found] at written
    cases written
  | ok calls =>
    have chain (front back : List Call) : Code.Grows fun parts =>
        .row (.word q.model :: front.map Call.code ++ parts ++ back.map Call.code) := Code.grows_row _ _
    cases reduced : q.reduces with
    | some reduces =>
      refine ⟨_, chain (q.lead ++ calls ++ q.orders) reduces, fun limits => ?_⟩
      rw [Query.code, found, reduced]
      simp [Bind.bind, Except.bind, pure, Except.pure, Chain.code]
    | none =>
      refine ⟨_, chain (q.lead ++ calls ++ q.groups ++ q.orders) (q.selects ++ q.distincts), fun limits => ?_⟩
      rw [Query.code, found, reduced]
      simp [Bind.bind, Except.bind, pure, Except.pure, Chain.code]

end Query

/-- The chain for a query without joins. -/
def Single.query (s : Statement) : Query where
  model := Naming.modelName s.table
  lead := []
  filters := Single.conditionCalls s
  reduces := s.scalar?.map fun a => aggregateCalls { a with column := unqualify s a.column }
  groups := groupCalls s ++ havingCalls s
  orders := orderCalls s
  selects := selectCalls s
  distincts := distinctCalls s

/-- The chain for a query with joins. -/
def Joined.query (s : Statement) : Query where
  model := Naming.modelName s.table
  lead := sourceCalls s ++ joinCalls s
  filters := Joined.conditionCalls s
  reduces := s.scalar?.map aggregateCalls
  groups := groupCalls s ++ havingCalls s
  orders := orderCalls s
  selects := selectCalls s
  distincts := distinctCalls s

/-- What a relation has for the limit. -/
def limitCodes (s : Statement) : List Code := (limitCalls s).map Call.code

theorem Single.select_eq (s : Statement) (limit : Option Limit) :
    Single.writer.select { s with limit := limit } = (Single.query s).code (limitCalls { s with limit := limit }) := by
  have found : Single.conditionCalls { s with limit := limit } = Single.conditionCalls s := rfl
  have scalar : Statement.scalar? { s with limit := limit } = s.scalar? := rfl
  simp only [Single.writer, Single.selectChain, Query.code, Single.query, found, scalar]
  cases Single.conditionCalls s <;> cases s.scalar? <;> rfl

theorem Joined.select_eq (s : Statement) (limit : Option Limit) :
    Joined.writer.select { s with limit := limit } = (Joined.query s).code (limitCalls { s with limit := limit }) := by
  have found : Joined.conditionCalls { s with limit := limit } = Joined.conditionCalls s := rfl
  have scalar : Statement.scalar? { s with limit := limit } = s.scalar? := rfl
  simp only [Joined.writer, Joined.selectChain, Query.code, Joined.query, found, scalar]
  cases Joined.conditionCalls s <;> cases s.scalar? <;> rfl

theorem Single.placesLimit {s : Statement} {code : Code} (written : Single.writer.select s = .ok code) :
    PlacesLimit Single.writer.select limitCodes s := by
  obtain ⟨frame, grows, framed⟩ := Query.exists_frame (Single.select_eq s s.limit ▸ written)
  exact ⟨frame, grows, fun limit => (Single.select_eq s limit).trans (framed _)⟩

theorem Joined.placesLimit {s : Statement} {code : Code} (written : Joined.writer.select s = .ok code) :
    PlacesLimit Joined.writer.select limitCodes s := by
  obtain ⟨frame, grows, framed⟩ := Query.exists_frame (Joined.select_eq s s.limit ▸ written)
  exact ⟨frame, grows, fun limit => (Joined.select_eq s limit).trans (framed _)⟩

end Relation

namespace Finder

/-! The condition object of a statement depends on the names of its main table only. -/

mutual

theorem tree_congr {s s' : Statement} (same : keyOf s = keyOf s') (c : Condition) : tree s c = tree s' c := by
  match c with
  | .and parts => rw [tree, tree, trees_congr same parts]
  | .or parts => rw [tree, tree, trees_congr same parts]
  | .not part => rw [tree, tree, tree_congr same part]
  | .leaf p =>
    rw [tree, tree]
    cases p <;> simp only [leaf, likeTest, inTest, betweenTest, nullTest, same]

theorem trees_congr {s s' : Statement} (same : keyOf s = keyOf s') (parts : List Condition) :
    trees s parts = trees s' parts := by
  match parts with
  | [] => rfl
  | part :: more => rw [trees, trees, tree_congr same part, trees_congr same more]

end

theorem filter_congr {s s' : Statement} (same : keyOf s = keyOf s') (wrapped : Bool) (plan : Plan) :
    filter s wrapped plan = filter s' wrapped plan := by
  have simple : simpleTest s = simpleTest s' := funext fun t => by rw [simpleTest, simpleTest, same]
  have like : likeTest s = likeTest s' := funext fun t => by rw [likeTest, likeTest, same]
  have inList : inTest s = inTest s' := funext fun t => by rw [inTest, inTest, same]
  have between : betweenTest s = betweenTest s' := funext fun t => by rw [betweenTest, betweenTest, same]
  have null : nullTest s = nullTest s' := funext fun t => by rw [nullTest, nullTest, same]
  cases plan with
  | empty => rfl
  | literal text => rfl
  | disjunction c => exact tree_congr same c
  | raw c => exact tree_congr same c
  | consolidated tests => rw [filter, filter, simple]
  | decomposed tests => rw [filter, filter, simple, like, inList, between, null]

section Congr

variable {s s' : Statement} (main : s.main = s'.main)
include main

theorem keyOf_congr : keyOf s = keyOf s' := by
  have isMain : s.isMain = s'.isMain := by
    funext name
    simp only [Statement.isMain, Statement.table, Statement.alias?, main]
  funext field
  simp only [keyOf, isMain]

theorem condition_congr (text : s.condition = s'.condition) (wrapped : Bool) :
    condition s wrapped = condition s' wrapped := by
  have same : filter s wrapped = filter s' wrapped := funext (filter_congr (keyOf_congr main) wrapped)
  rw [condition, condition, same, text]

theorem whereOption_congr (text : s.condition = s'.condition) (wrapped : Bool) :
    whereOption s wrapped = whereOption s' wrapped := by
  have given : s.hasCondition = s'.hasCondition := by rw [Statement.hasCondition, text, Statement.hasCondition]
  rw [whereOption, whereOption, condition_congr main text, given]

theorem havingOption_congr (text : s.having = s'.having) : Joined.havingOption s = Joined.havingOption s' := by
  have same : tree s = tree s' := funext (tree_congr (keyOf_congr main))
  have having : Joined.having s = Joined.having s' := by
    funext t
    rw [Joined.having, Joined.having, same]
  have given : s.having? = s'.having? := by rw [Statement.having?, text, Statement.having?]
  rw [Joined.havingOption, Joined.havingOption, having, given]

end Congr

section Frame

variable (s : Statement) (limit : Option Limit)

theorem condition_limit (wrapped : Bool) : condition { s with limit := limit } wrapped = condition s wrapped := by
  apply condition_congr <;> rfl

theorem whereOption_limit (wrapped : Bool) :
    whereOption { s with limit := limit } wrapped = whereOption s wrapped := by
  apply whereOption_congr <;> rfl

theorem havingOption_limit : Joined.havingOption { s with limit := limit } = Joined.havingOption s := by
  apply havingOption_congr <;> rfl

theorem Single.update_limit : Single.update { s with limit := limit } = Single.update s := by
  rw [Single.update, Single.update, condition_limit]
  rfl

theorem Single.delete_limit : Single.delete { s with limit := limit } = Single.delete s := by
  rw [Single.delete, Single.delete, condition_limit]
  rfl

theorem Joined.changeOptions_limit : Joined.changeOptions { s with limit := limit } = Joined.changeOptions s := by
  rw [Joined.changeOptions, Joined.changeOptions, condition_limit]
  rfl

theorem Joined.update_limit : Joined.update { s with limit := limit } = Joined.update s := by
  rw [Joined.update, Joined.update, Joined.changeOptions_limit]
  rfl

theorem Joined.delete_limit : Joined.delete { s with limit := limit } = Joined.delete s := by
  rw [Joined.delete, Joined.delete, Joined.changeOptions_limit]
  rfl

end Frame

/-! The options of a call grow with those of its limit. -/

/-- Arguments that are wider with some options. -/
def Widens (items : List Code → List Code) : Prop :=
  ∀ option options, option.text ≠ [] → Code.width (items []) < Code.width (items (option :: options))

theorem Widens.grows {items : List Code → List Code} (widens : Widens items) (s : Statement) (method : String) :
    Code.Grows fun options => modelCall s method (items options) := by
  intro option options filled
  have longer := widens option options filled
  simp only [modelCall, Code.text, Code.rowText, List.length_append]
  unfold Code.width at longer
  omega

theorem widens_insert (front back : List Code) : Widens fun options => front ++ options ++ back := by
  intro option options filled
  beta_reduce
  rw [List.append_nil]
  exact Code.width_lt_insert filled front options back

/-- Wider options are a longer last argument. -/
theorem Widens.object {items : List Code → List Code} (widens : Widens items) (padded : Bool) (front : List Code) :
    Widens fun options => front ++ [.list .curly padded (items options)] := fun option options filled =>
  Code.width_lt_item (Code.length_list_lt (widens option options filled) .curly padded) front []

theorem trailing_of_ne_nil {options : List Code} (filled : options ≠ []) : trailing options = [Code.object options] := by
  unfold trailing
  split
  · contradiction
  · rfl

/-- Wider options are a longer last argument, or one where there was none. -/
theorem Widens.trailing {items : List Code → List Code} (widens : Widens items) (front : List Code) :
    Widens fun options => front ++ trailing (items options) := by
  intro option options nonempty
  have wider := widens option options nonempty
  have filled : items (option :: options) ≠ [] := by
    intro bare
    have least := Code.two_le_width (items [])
    rw [bare, Code.width_nil] at wider
    omega
  beta_reduce
  rw [trailing_of_ne_nil filled]
  by_cases empty : items [] = []
  · have braces : (Code.object (items (option :: options))).text ≠ [] := by
      unfold Code.object
      cases items (option :: options) <;> simp [Code.text]
    rw [empty, ← List.append_nil (front ++ [_])]
    exact Code.width_lt_insert braces front [] []
  · rw [trailing_of_ne_nil empty]
    exact Code.width_lt_item (Code.length_list_lt wider .curly true) front []

/-- Each of the calls that reduce the rows to one value has its options in one object. -/
theorem grows_aggregateCall (s : Statement) (a : Aggregate) (front : List Code) :
    Code.Grows fun options => aggregateCall s a (front ++ options) := by
  have plain : Widens fun options => front ++ options := by simpa using widens_insert front []
  by_cases all : a.isCountAll = true
  · simp only [aggregateCall, all, if_true]
    exact (plain.trailing []).grows s "count"
  by_cases count : (a.function == .count) = true
  · have fields (col distinct : List Code) : Widens fun options => front ++ options ++ col ++ distinct := by
      simpa only [List.append_assoc] using widens_insert front (col ++ distinct)
    simp only [aggregateCall, all, count, if_true]
    exact ((fields _ _).object true []).grows s "count"
  by_cases general : (a.distinct || a.function == .avg) = true
  · simp only [aggregateCall, all, count, general, if_true]
    exact ((widens_insert front _).trailing _).grows s "aggregate"
  · simp only [aggregateCall, all, count, general]
    exact (plain.trailing [.quoted a.column]).grows s _

namespace Single

theorem placesLimit {s : Statement} {code : Code} (written : Single.writer.select s = .ok code) :
    PlacesLimit Single.writer.select limitOptions s := by
  simp only [Single.writer, Single.select] at written
  cases found : whereOption s false with
  | error fault =>
    rw [found] at written
    cases written
  | ok filters =>
    have again (limit : Option Limit) : whereOption { s with limit := limit } false = .ok filters :=
      (whereOption_limit s limit false).trans found
    cases scalar : s.scalar? with
    | some a =>
      refine ⟨_, grows_aggregateCall s a (filters ++ orderOption s), fun limit => ?_⟩
      have same : Statement.scalar? { s with limit := limit } = some a := scalar
      simp only [Single.writer, Single.select, again, same]
      rfl
    | none =>
      refine ⟨_, ((widens_insert (attributesOption s ++ filters ++ groupOption s ++ havingOption s ++ orderOption s)
        []).object false []).grows s "findAll", fun limit => ?_⟩
      have same : Statement.scalar? { s with limit := limit } = none := scalar
      simp only [Single.writer, Single.select, again, same, List.append_nil]
      rfl

end Single

namespace Joined

theorem placesLimit {s : Statement} {code : Code} (written : Joined.writer.select s = .ok code) :
    PlacesLimit Joined.writer.select limitOptions s := by
  have same (limit : Option Limit) : fullInclude { s with limit := limit } = fullInclude s := rfl
  simp only [Joined.writer, Joined.select] at written
  cases included : (s.joins.mapIdx fun i join => fullInclude s i join).mapM id with
  | error fault =>
    rw [included] at written
    cases written
  | ok includes =>
    cases found : whereOption s true with
    | error fault =>
      rw [included, found] at written
      cases written
    | ok filters =>
      have again (limit : Option Limit) : whereOption { s with limit := limit } true = .ok filters :=
        (whereOption_limit s limit true).trans found
      cases scalar : s.scalar? with
      | some a =>
        refine ⟨_, grows_aggregateCall s a (field "include" (Code.array includes) :: filters ++ orderOption s),
          fun limit => ?_⟩
        have single : Statement.scalar? { s with limit := limit } = some a := scalar
        simp only [Joined.writer, Joined.select, again, same, included, single]
        rfl
      | none =>
        rw [included, found, scalar] at written
        cases held : havingOption s with
        | error fault =>
          rw [held] at written
          cases written
        | ok having =>
          have holds (limit : Option Limit) : havingOption { s with limit := limit } = .ok having :=
            (havingOption_limit s limit).trans held
          refine ⟨_, ((widens_insert (field "include" (Code.array includes) :: attributesOption s ++ filters
            ++ groupOption s ++ having ++ orderOption s) []).object false []).grows s "findAll", fun limit => ?_⟩
          have single : Statement.scalar? { s with limit := limit } = none := scalar
          simp only [Joined.writer, Joined.select, again, same, included, single, holds, List.append_nil]
          rfl

end Joined
end Finder

/-! ## Statements of every kind -/

/-- What the target has for the limit of a query. -/
def limitParts : Target → Statement → List Code
  | .activeRecord => Relation.limitCodes
  | .sequelize => Finder.limitOptions

/-- A limit is written as something. -/
theorem exists_limitParts (target : Target) (s : Statement) (l : Limit) :
    ∃ part parts, limitParts target { s with limit := some l } = part :: parts ∧ part.text ≠ [] := by
  cases target with
  | activeRecord => exact ⟨_, _, rfl, by simp [Relation.Call.code, Relation.call, Code.text, Code.rowText]⟩
  | sequelize => exact ⟨_, _, rfl, by simp [Finder.field, Code.text, Code.rowText]⟩

/-- The code for a query has a place for its limit. -/
theorem write_placesLimit {target : Target} {s : Statement} {code : Code} (kind : s.kind = .select)
    (written : s.write target = .ok code) : PlacesLimit (Statement.write target) (limitParts target) s := by
  cases s with | mk k main distinct columns joins condition values assignments groupBy having orderBy limit =>
  subst kind
  cases joins with
  | nil =>
    cases target with
    | activeRecord => exact Relation.Single.placesLimit written
    | sequelize => exact Finder.Single.placesLimit written
  | cons join joins =>
    cases target with
    | activeRecord => exact Relation.Joined.placesLimit written
    | sequelize => exact Finder.Joined.placesLimit written

/-- The code for an update or a deletion is that for any limit. -/
theorem write_change_limit {s : Statement} (change : s.kind = .update ∨ s.kind = .delete) (target : Target)
    (limit : Option Limit) : Statement.write target { s with limit := limit } = s.write target := by
  unfold Statement.write
  split
  · cases target with
    | activeRecord => rcases change with kind | kind <;> simp only [Writer.write, kind] <;> rfl
    | sequelize =>
      rcases change with kind | kind <;> simp only [Writer.write, kind]
      · exact kind ▸ Finder.Single.update_limit s limit
      · exact kind ▸ Finder.Single.delete_limit s limit
  · cases target with
    | activeRecord => rcases change with kind | kind <;> simp only [Writer.write, kind] <;> rfl
    | sequelize =>
      rcases change with kind | kind <;> simp only [Writer.write, kind]
      · exact kind ▸ Finder.Joined.update_limit s limit
      · exact kind ▸ Finder.Joined.delete_limit s limit

/-- **The code shows a limit exactly for queries.** With and without a limit the code for a query differs, whatever
its shape; the code for an update or a deletion is the same, so it changes all rows that meet the condition. -/
theorem write_limit_ne_iff {target : Target} {s : Statement} {code : Code}
    (kind : s.kind = .select ∨ s.kind = .update ∨ s.kind = .delete) (written : s.write target = .ok code)
    (l : Limit) :
    ∃ limited unlimited,
      Statement.write target { s with limit := some l } = .ok limited ∧
      Statement.write target { s with limit := none } = .ok unlimited ∧
      (limited.text ≠ unlimited.text ↔ s.kind = .select) := by
  by_cases select : s.kind = .select
  · obtain ⟨frame, grows, framed⟩ := write_placesLimit select written
    obtain ⟨part, parts, shown, filled⟩ := exists_limitParts target s l
    have unlimited : limitParts target { s with limit := none } = [] := by cases target <;> rfl
    refine ⟨frame (part :: parts), frame [], shown ▸ framed l, unlimited ▸ framed none, iff_of_true ?_ select⟩
    intro same
    have longer := grows part parts filled
    rw [same] at longer
    exact lt_irrefl _ longer
  · have change := kind.resolve_left select
    have ignored (limit : Option Limit) := (write_change_limit change target limit).trans written
    exact ⟨code, code, ignored _, ignored _, iff_of_false (not_not_intro rfl) select⟩

theorem exists_of_map_text {written : Except Fault Code} {t : Text} (text : written.map Code.text = .ok t) :
    ∃ code, written = .ok code := by
  cases written with
  | error fault => cases text
  | ok code => exact ⟨code, rfl⟩

/-- A deletion of five rows is written as that of all rows that meet its condition; a query is not. -/
theorem write_limit_ne_iff_deletion :
    let s : Statement :=
      { kind := .delete, main := some ⟨"users".toList, none⟩, condition := "age > 18".toList, limit := some ⟨5, none⟩ }
    (s.write .activeRecord).map Code.text = .ok "User.where(\"age > ?\", 18).destroy_all".toList ∧
    (∃ limited unlimited,
      Statement.write .activeRecord s = .ok limited ∧
      Statement.write .activeRecord { s with limit := none } = .ok unlimited ∧
      limited.text = unlimited.text) ∧
    ∃ limited unlimited,
      Statement.write .activeRecord { s with kind := .select } = .ok limited ∧
      Statement.write .activeRecord { s with kind := .select, limit := none } = .ok unlimited ∧
      limited.text ≠ unlimited.text := by
  intro s
  have deletion : (s.write .activeRecord).map Code.text = .ok "User.where(\"age > ?\", 18).destroy_all".toList := by
    decide +kernel
  have query : (Statement.write .activeRecord { s with kind := .select }).map Code.text =
      .ok "User.where(\"age > ?\", 18).limit(5)".toList := by
    decide +kernel
  obtain ⟨code, written⟩ := exists_of_map_text deletion
  obtain ⟨chain, asked⟩ := exists_of_map_text query
  obtain ⟨limited, unlimited, with5, without, same⟩ := write_limit_ne_iff (.inr (.inr rfl)) written ⟨5, none⟩
  obtain ⟨few, all, few5, allRows, differ⟩ := write_limit_ne_iff (.inl rfl) asked ⟨5, none⟩
  exact ⟨deletion, ⟨limited, unlimited, with5, without, not_not.1 (mt same.1 (by decide))⟩,
    ⟨few, all, few5, allRows, differ.2 rfl⟩⟩

end QueryCode
