import QueryCode.Proofs.Limit
import QueryCode.Proofs.Naming.Inert
import QueryCode.Proofs.Statement.Parts

/-!
# Repeated rows in generated code

A relation has a call that drops repeated rows. A finder marks the first of its attributes instead, which it can do
only if there is no join, some attributes are listed and the first of them is a plain name. So the code for a query of
rows shows that repeated rows are dropped exactly in these cases: `write_distinct_ne_iff`.
-/

namespace QueryCode
set_option autoImplicit false

/-- In the code for the query repeated rows are dropped by something that is not there otherwise. -/
def ShowsDistinct (select : Statement → Except Fault Code) (s : Statement) : Prop :=
  ∃ marked plain, select { s with distinct := true } = .ok marked ∧ select { s with distinct := false } = .ok plain ∧
    plain.text.length < marked.text.length

namespace Relation

/-- The chain of a query of rows ends in the call that drops repeated ones. -/
theorem Query.code_distincts {q : Query} (rows : q.reduces = none) {limits : List Call} {code : Code}
    (written : q.code limits = .ok code) :
    ∃ frame, Code.Grows frame ∧
      ∀ distincts, Query.code { q with distincts := distincts } limits = .ok (frame (distincts.map Call.code)) := by
  cases found : q.filters with
  | error fault =>
    rw [Query.code, found] at written
    cases written
  | ok calls =>
    refine ⟨_, Code.grows_row (.word q.model ::
      (q.lead ++ calls ++ q.groups ++ q.orders ++ limits ++ q.selects).map Call.code) [], fun distincts => ?_⟩
    simp only [Query.code, rows]
    simp [Bind.bind, Except.bind, pure, Except.pure, Chain.code]

/-- If the flag changes nothing but the last call, the code shows it. -/
theorem Query.showsDistinct {select : Statement → Except Fault Code} {s : Statement} {q : Query} {limits : List Call}
    {code : Code} (rows : q.reduces = none) (written : q.code limits = .ok code)
    (same : ∀ distinct, select { s with distinct := distinct } =
      Query.code { q with distincts := distinctCalls { s with distinct := distinct } } limits) :
    ShowsDistinct select s := by
  obtain ⟨frame, grows, framed⟩ := code_distincts rows written
  refine ⟨_, _, (same true).trans (framed _), (same false).trans (framed _), ?_⟩
  apply grows
  simp [Call.code, bareCall, Code.text, Code.rowText]

theorem Single.showsDistinct {s : Statement} {code : Code} (rows : s.scalar? = none)
    (written : Single.writer.select s = .ok code) : ShowsDistinct Single.writer.select s := by
  have reduces : (Single.query s).reduces = none := by rw [Single.query, rows]; rfl
  refine Query.showsDistinct reduces (Single.select_eq s s.limit ▸ written) fun distinct => ?_
  exact Single.select_eq { s with distinct := distinct } s.limit

theorem Joined.showsDistinct {s : Statement} {code : Code} (rows : s.scalar? = none)
    (written : Joined.writer.select s = .ok code) : ShowsDistinct Joined.writer.select s := by
  have reduces : (Joined.query s).reduces = none := by rw [Joined.query, rows]; rfl
  refine Query.showsDistinct reduces (Joined.select_eq s s.limit ▸ written) fun distinct => ?_
  exact Joined.select_eq { s with distinct := distinct } s.limit

end Relation

/-- A name without parentheses is no aggregate. -/
theorem Aggregate.parse_of_isIdentifier {name : Text} (plain : Naming.isIdentifier name = true) :
    Aggregate.parse? name = none := by
  have closing : ')' ∉ name := fun mem => absurd (Naming.inert_of_isIdentifier plain ')' mem) (by decide)
  unfold Aggregate.parse?
  split
  · rfl
  · rename_i word stop opened
    dsimp only
    split
    · rename_i closed
      simp only [Bool.and_eq_true, beq_iff_eq] at closed
      have rest : ')' ∈ stop.rest := List.mem_of_mem_getLast? closed.1.1
      exact absurd ((Text.infix_trim name).subset ((suffix_opening opened).subset rest)) closing
    · rfl

namespace Finder

theorem length_field_lt {x y : Code} (longer : x.text.length < y.text.length) (key : String) :
    (field key x).text.length < (field key y).text.length := by
  simp only [field, Code.text, Code.rowText, List.length_append, List.length_nil]
  omega

theorem length_modelCall_lt {xs ys : List Code} (wider : Code.width xs < Code.width ys) (s : Statement) (method : String) :
    (modelCall s method xs).text.length < (modelCall s method ys).text.length := by
  simp only [modelCall, Code.text, Code.rowText, List.length_append]
  unfold Code.width at wider
  omega

namespace Single

/-- A plain name is written as it is or as a column. -/
theorem length_bareAttribute_le (s : Statement) {column : Column} (plain : Naming.isIdentifier column.name = true) :
    (bareAttribute s column).text.length ≤ (columnRef column.qualified).text.length := by
  have own : (Code.quoted column.name).text.length ≤ (columnRef column.qualified).text.length := by
    have short : (Code.escape column.name).length ≤ (Code.escape column.qualified).length := by
      unfold ColumnName.qualified
      split
      · simp only [Code.escape_append, List.length_append]
        omega
      · exact le_refl _
    simp only [columnRef, Code.call, Code.args, Code.text, Code.rowText, Code.itemsText, Code.quote, List.length_append,
      List.length_cons]
    omega
  simp only [bareAttribute, Aggregate.parse_of_isIdentifier plain, plain, if_true]
  split
  · contradiction
  · split
    · exact own
    · exact le_refl _
  · exact own

/-- The mark is longer than the attribute in whose place it stands. -/
theorem length_columnAttribute_lt (s : Statement) {column : Column} (plain : Naming.isIdentifier column.name = true) :
    (columnAttribute s column).text.length < (distinctAttribute column).text.length := by
  have bare := length_bareAttribute_le s plain
  unfold columnAttribute distinctAttribute
  split
  · rename_i given renamed
    simp only [renamed, Option.getD_some, Code.call, Code.array, Code.args, Code.text, Code.rowText, Code.itemsText,
      List.length_append, List.length_cons]
    omega
  · simp only [Code.call, Code.array, Code.args, Code.text, Code.rowText, Code.itemsText, List.length_append,
      List.length_cons]
    omega

/-- The attributes have a place for the mark. -/
def marksFirst (s : Statement) : Bool := !s.selectsAll && s.columns.head?.any (Naming.isIdentifier ·.name)

theorem attributes_distinct {s : Statement} {column : Column} {more : List Column} (listed : s.columns = column :: more)
    (distinct : Bool) : attributes { s with distinct := distinct } =
      (if distinct && Naming.isIdentifier column.name then distinctAttribute column else columnAttribute s column)
        :: more.map (columnAttribute s) := by
  rw [attributes]
  simp only [listed]
  rfl

theorem attributesOption_of_not_marksFirst {s : Statement} (unmarked : marksFirst s = false) (distinct : Bool) :
    attributesOption { s with distinct := distinct } = attributesOption s := by
  have all : Statement.selectsAll { s with distinct := distinct } = s.selectsAll := rfl
  rw [attributesOption, attributesOption, all]
  split
  · rfl
  · rename_i part
    have filled : s.columns ≠ [] := fun empty => part (by rw [Statement.selectsAll, empty])
    obtain ⟨column, more, listed⟩ := List.exists_cons_of_ne_nil filled
    have other : Naming.isIdentifier column.name = false := by simpa [marksFirst, part, listed] using unmarked
    have plain (distinct : Bool) := attributes_distinct listed distinct
    simp only [other, Bool.and_false] at plain
    rw [plain]
    exact congrArg (fun items => [field "attributes" (Code.array items)]) (plain s.distinct).symm

theorem select_of_not_marksFirst {s : Statement} (unmarked : marksFirst s = false) (distinct : Bool) :
    select { s with distinct := distinct } = select s := by
  have found : whereOption { s with distinct := distinct } false = whereOption s false := by
    apply whereOption_congr <;> rfl
  rw [select, select, found, attributesOption_of_not_marksFirst unmarked]
  rfl

theorem showsDistinct {s : Statement} {code : Code} (rows : s.scalar? = none) (marks : marksFirst s = true)
    (written : Single.writer.select s = .ok code) : ShowsDistinct Single.writer.select s := by
  rw [marksFirst, Bool.and_eq_true, Bool.not_eq_true', Option.any_eq_true] at marks
  obtain ⟨part, column, first, plain⟩ := marks
  obtain ⟨more, listed⟩ := List.head?_eq_some_iff.1 first
  have option (distinct : Bool) : attributesOption { s with distinct := distinct } =
      [field "attributes" (Code.array (attributes { s with distinct := distinct }))] := if_neg (ne_true_of_eq_false part)
  simp only [attributes_distinct listed, plain, Bool.and_true] at option
  have again (distinct : Bool) : whereOption { s with distinct := distinct } false = whereOption s false := by
    apply whereOption_congr <;> rfl
  have scalar (distinct : Bool) : Statement.scalar? { s with distinct := distinct } = none := rows
  simp only [Single.writer, Single.select, rows] at written
  cases found : whereOption s false with
  | error fault =>
    rw [found] at written
    cases written
  | ok filters =>
    have selected (distinct : Bool) : select { s with distinct := distinct } = .ok (modelCall s "findAll" [Code.options
        (attributesOption { s with distinct := distinct } ++ (filters ++ groupOption s ++ havingOption s ++ orderOption s
          ++ limitOptions s))]) := by
      simp only [select, again, found, scalar, List.append_assoc]
      rfl
    refine ⟨_, _, selected true, selected false, ?_⟩
    rw [option, option]
    have item := Code.width_lt_item (length_columnAttribute_lt s plain) [] (more.map (columnAttribute s))
    have listing := length_field_lt (Code.length_list_lt item .square false) "attributes"
    exact length_modelCall_lt
      (Code.width_lt_item (Code.length_list_lt (Code.width_lt_item listing [] _) .curly false) [] []) s "findAll"

end Single

theorem Joined.select_distinct (s : Statement) (distinct : Bool) :
    Joined.select { s with distinct := distinct } = Joined.select s := by
  have found : whereOption { s with distinct := distinct } true = whereOption s true := by
    apply whereOption_congr <;> rfl
  have having : Joined.havingOption { s with distinct := distinct } = Joined.havingOption s := by
    apply havingOption_congr <;> rfl
  rw [Joined.select, Joined.select, found, having]
  rfl

end Finder

/-! ## Statements -/

/-- Whether the code for a query of rows has a place for the mark: a relation always, a finder only for its first
attribute. -/
def placesDistinct (target : Target) (s : Statement) : Bool :=
  match target with
  | .activeRecord => true
  | .sequelize => s.joins.isEmpty && Finder.Single.marksFirst s

theorem placesDistinct_iff {target : Target} {s : Statement} :
    placesDistinct target s = true ↔
      target = .activeRecord ∨
      s.joins = [] ∧ s.selectsAll = false ∧
        ∃ column more, s.columns = column :: more ∧ Naming.isIdentifier column.name = true := by
  cases target with
  | activeRecord => exact iff_of_true rfl (.inl rfl)
  | sequelize =>
    rw [placesDistinct, Finder.Single.marksFirst, Bool.and_eq_true, Bool.and_eq_true, List.isEmpty_iff,
      Bool.not_eq_true', Option.any_eq_true]
    simp only [List.head?_eq_some_iff, exists_and_right, reduceCtorEq, false_or]

theorem write_showsDistinct {target : Target} {s : Statement} {code : Code} (kind : s.kind = .select)
    (rows : s.scalar? = none) (written : s.write target = .ok code) (places : placesDistinct target s = true) :
    ShowsDistinct (Statement.write target) s := by
  cases s with | mk k main distinct columns joins condition values assignments groupBy having orderBy limit =>
  subst kind
  cases joins with
  | nil =>
    cases target with
    | activeRecord => exact Relation.Single.showsDistinct rows written
    | sequelize => exact Finder.Single.showsDistinct rows places written
  | cons join joins =>
    cases target with
    | activeRecord => exact Relation.Joined.showsDistinct rows written
    | sequelize => cases places

theorem write_distinct {target : Target} {s : Statement} (kind : s.kind = .select)
    (missing : placesDistinct target s = false) (distinct : Bool) :
    Statement.write target { s with distinct := distinct } = s.write target := by
  cases s with | mk k main given columns joins condition values assignments groupBy having orderBy limit =>
  subst kind
  cases target with
  | activeRecord => cases missing
  | sequelize =>
    cases joins with
    | nil => exact Finder.Single.select_of_not_marksFirst missing distinct
    | cons join joins => exact Finder.Joined.select_distinct _ distinct

/-- **Where the code shows that repeated rows are dropped.** The code for a query of rows with and without `DISTINCT`
differs for every relation, and for a finder exactly if it has no joins, lists attributes and the first of them is a
plain name; any other finder finds the repeated rows as well. -/
theorem write_distinct_ne_iff {target : Target} {s : Statement} {code : Code} (kind : s.kind = .select)
    (rows : s.scalar? = none) (written : s.write target = .ok code) :
    ∃ marked plain,
      Statement.write target { s with distinct := true } = .ok marked ∧
      Statement.write target { s with distinct := false } = .ok plain ∧
      (marked.text ≠ plain.text ↔
        target = .activeRecord ∨
        s.joins = [] ∧ s.selectsAll = false ∧
          ∃ column more, s.columns = column :: more ∧ Naming.isIdentifier column.name = true) := by
  rw [← placesDistinct_iff]
  cases places : placesDistinct target s with
  | true =>
    obtain ⟨marked, plain, drops, keeps, longer⟩ := write_showsDistinct kind rows written places
    refine ⟨marked, plain, drops, keeps, iff_of_true ?_ rfl⟩
    intro same
    rw [same] at longer
    exact lt_irrefl _ longer
  | false =>
    have ignored (distinct : Bool) := (write_distinct kind places distinct).trans written
    exact ⟨code, code, ignored true, ignored false, iff_of_false (not_not_intro rfl) Bool.false_ne_true⟩

/-- A finder with a join finds repeated rows with and without `DISTINCT`; the relation drops them. -/
theorem write_distinct_ne_iff_joined :
    let s : Statement :=
      { kind := .select, main := some ⟨"users".toList, some "u".toList⟩, distinct := true,
        columns := [{ name := "name".toList, table := some "u".toList }],
        joins := [⟨.plain, false, "JOIN".toList, "posts".toList, some "p".toList, "p.user_id = u.id".toList⟩] }
    (s.write .sequelize).map Code.text = .ok
      ("User.findAll(\x7binclude: [\x7b model: Post, as: \"p\", attributes: [], required: true \x7d], "
        ++ "attributes: [\"name\"]\x7d)").toList ∧
    (∃ marked plain,
      Statement.write .sequelize s = .ok marked ∧
      Statement.write .sequelize { s with distinct := false } = .ok plain ∧ marked.text = plain.text) ∧
    ∃ marked plain,
      Statement.write .activeRecord s = .ok marked ∧
      Statement.write .activeRecord { s with distinct := false } = .ok plain ∧ marked.text ≠ plain.text := by
  intro s
  have finder : (s.write .sequelize).map Code.text = .ok
      ("User.findAll(\x7binclude: [\x7b model: Post, as: \"p\", attributes: [], required: true \x7d], "
        ++ "attributes: [\"name\"]\x7d)").toList := by
    decide +kernel
  have relation : (s.write .activeRecord).map Code.text = .ok
      ("User.from(\"users u\").joins(\"JOIN posts p ON p.user_id = u.id\").select(\"u.name\").distinct").toList := by
    decide +kernel
  obtain ⟨call, written⟩ := exists_of_map_text finder
  obtain ⟨chain, chained⟩ := exists_of_map_text relation
  obtain ⟨marked, plain, drops, keeps, same⟩ := write_distinct_ne_iff rfl rfl written
  obtain ⟨marked', plain', drops', keeps', differ⟩ := write_distinct_ne_iff rfl rfl chained
  have hidden : ¬ marked.text ≠ plain.text := by
    rw [same]
    rintro (⟨⟨⟩⟩ | ⟨⟨⟩, -⟩)
  exact ⟨finder, ⟨marked, plain, drops, keeps, not_not.1 hidden⟩,
    ⟨marked', plain', drops', keeps', differ.2 (.inl rfl)⟩⟩

end QueryCode
