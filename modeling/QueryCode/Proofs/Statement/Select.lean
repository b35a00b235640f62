import QueryCode.Proofs.Statement.Item
import QueryCode.Proofs.Text.Split

/-!
# Selections

A selection written clause by clause in the standard order is read back with all its clauses. The clauses are looked
for one by one in the masked statement, so what has to be known of each of them is which keywords it shows, what
it starts with and what ends it. A word after a table is its alias unless it is reserved, so the four reserved
words that start no clause cannot be aliases either: `parse_selectText`.
-/

namespace QueryCode
set_option autoImplicit false

open Text Text.Scan Text.Cursor Pattern

namespace Statement

/-! ## The text of a selection -/

/-- The text of a clause: trimmed, ending outside literals and parentheses, and without the keys outside them. -/
structure IsClauseText (keys : List Key) (t : Text) : Prop where
  solid : IsSolid t
  closed : isClosed t = true
  silent : ∀ k ∈ keys, ¬ k.Occurs (mask .nested t)

theorem IsClauseText.mono {keys keys' : List Key} {t : Text} (text : IsClauseText keys t) (subset : keys' ⊆ keys) :
    IsClauseText keys' t :=
  ⟨text.solid, text.closed, fun k mem => text.silent k (subset mem)⟩

/-- What the text of a clause does not show: the words that start the clauses after the table, those of joins, and
the semicolon. -/
def textKeys : List Key :=
  [.word "where", .word "having", .word "limit", .word "offset", .by "group", .by "order", .semicolon] ++
    joinOpeners.map .word

/-- What ends every clause behind the joins but the last one. Only `ORDER BY` ends at `OFFSET`, too. -/
def bodyKeys : List Key := textKeys.erase (.word "offset")

/-- The name can be an alias: it is free and not reserved. -/
def isFreeAlias (name : Text) : Bool := isFreeName name && !isReserved name

/-- A table with its alias. -/
def tableText (t : Table) : Text := t.name ++ aliasText t.alias?

/-- The joins, each with a space in front. -/
def joinsText (js : List Join) : Text := js.flatMap fun j => ' ' :: j.text

/-- The counts of a limit. -/
def limitText (l : Limit) : Text := digits l.count ++ offsetText l.offset

/-- `DISTINCT` with a space after it, if it is to be written. -/
def distinctText (distinct : Bool) : Text := if distinct then "DISTINCT " else []

/-- The start of a selection up to its first item. -/
def selectWords (distinct : Bool) : Text := "SELECT".toList ++ ' ' :: distinctText distinct

/-- The start of a selection: its first word and the select list. -/
def selectListText (s : Statement) : Text := selectWords s.distinct ++ Text.join ", " (s.columns.map columnText)

/-- The clauses of a selection from `LIMIT` on. -/
def limitOn (s : Statement) : Text := clauseText "LIMIT" (s.limit.elim [] limitText)

/-- The clauses from `ORDER BY` on. -/
def orderOn (s : Statement) : Text := clauseText "ORDER BY" (Text.join ", " (s.orderBy.map orderText)) ++ limitOn s

/-- The clauses from `HAVING` on. -/
def havingOn (s : Statement) : Text := clauseText "HAVING" (s.having.getD []) ++ orderOn s

/-- The clauses from `GROUP BY` on. -/
def groupOn (s : Statement) : Text :=
  clauseText "GROUP BY" (Text.join ", " (s.groupBy.map ColumnName.qualified)) ++ havingOn s

/-- The clauses from `WHERE` on. -/
def whereOn (s : Statement) : Text := clauseText "WHERE" s.condition ++ groupOn s

/-- A selection with its clauses in the standard order, with single spaces between words and a comma and a space
between items. -/
def selectText (s : Statement) : Text :=
  selectListText s ++ (clauseText "FROM" (s.main.elim [] tableText) ++ (joinsText s.joins ++ whereOn s))

/-- A table that can be written: its name is free, and so is its alias. -/
structure IsTable (t : Table) : Prop where
  name : isFreeName t.name = true
  given : ∀ given ∈ t.alias?, isFreeAlias given = true

/-- A join that can be written: its words are those of its kind, and its condition is the text of a clause. -/
structure IsJoin (j : Join) : Prop where
  sides : canBe j.kind j.outer = true
  keyword : j.keyword = joinText j.kind j.outer
  table : IsTable ⟨j.table, j.alias?⟩
  on : IsClauseText textKeys j.on

/-- A selection that can be written. -/
structure IsSelect (s : Statement) : Prop where
  kind : s.kind = .select
  main : ∃ t, s.main = some t ∧ IsTable t
  columns : s.columns ≠ [] ∧ ∀ c ∈ s.columns, isSelectItem c = true
  joins : ∀ j ∈ s.joins, IsJoin j
  condition : s.condition ≠ [] → IsClauseText textKeys s.condition
  values : s.values = none
  assignments : s.assignments = none
  groupBy : ∀ c ∈ s.groupBy, isColumnName c = true
  having : ∀ h ∈ s.having, IsClauseText textKeys h
  orderBy : ∀ o ∈ s.orderBy, isColumnName o.toColumnName = true
  limit : ∀ l ∈ s.limit, l.count ≤ maxCount ∧ ∀ m ∈ l.offset, m ≤ maxCount

/-! ## What the clauses show -/

theorem plain_join {items : List Text} (plain : ∀ t ∈ items, Plain t) : Plain (Text.join ", " items) := by
  induction items with
  | nil => exact plain_nil
  | cons t items ih =>
    rw [List.forall_mem_cons] at plain
    cases items with
    | nil =>
      rw [join_singleton]
      exact plain.1
    | cons u items =>
      rw [join_cons_cons]
      exact plain_append.2 ⟨plain.1, plain_append.2 ⟨by decide, ih plain.2⟩⟩

section Items

variable {items : List Text} (written : ∀ t ∈ items, IsWrittenItem t)
include written

theorem plain_items : Plain (Text.join ", " items) := plain_join fun t mem => (written t mem).plain

theorem not_begins_items {k : Key} (mem : k ∈ clauseKeys) : ¬ k.Begins (Text.join ", " items) := by
  intro has
  obtain ⟨t, listed, begins⟩ := Key.begins_join (isLower_clauseKeys k mem) has
  exact (written t listed).silent k mem begins

theorem isClauseText_items {keys : List Key} (known : ∀ k ∈ keys, k ∈ clauseKeys) (filled : items ≠ []) :
    IsClauseText keys (Text.join ", " items) := by
  refine ⟨isSolid_join filled (fun t mem => (written t mem).solid) _, (plain_items written).isClosed, ?_⟩
  intro k mem has
  rw [(plain_items written).mask] at has
  exact not_begins_items written (known k mem) has.begins

end Items

/-- Whether a text can be that of a clause is decided by looking for the keys in its mask. -/
theorem isClauseText_iff {keys : List Key} (lower : ∀ k ∈ keys, k.isLower = true) {t : Text} :
    IsClauseText keys t ↔
      t ≠ [] ∧ trim t = t ∧ isClosed t = true ∧ keys.all (fun k => !k.occurs (mask .nested t)) = true := by
  rw [List.all_eq_true]
  constructor
  · intro text
    refine ⟨text.solid.filled, text.solid.trim, text.closed, ?_⟩
    intro k mem
    rw [Bool.not_eq_true', ← Bool.not_eq_true, Key.occurs_iff (lower k mem)]
    exact text.silent k mem
  · rintro ⟨filled, trimmed, closed, silent⟩
    refine ⟨isSolid_of_trim filled trimmed, closed, ?_⟩
    intro k mem
    rw [← Key.occurs_iff (lower k mem), Bool.not_eq_true, ← Bool.not_eq_true']
    exact silent k mem

theorem isClosed_of_isClauseText {keys : List Key} {t : Text} (text : t ≠ [] → IsClauseText keys t) : isClosed t = true := by
  by_cases empty : t = []
  · rw [empty]
    rfl
  · exact (text empty).closed

theorem trim_of_isClauseText {keys : List Key} {t : Text} (text : t ≠ [] → IsClauseText keys t) : trim t = t := by
  by_cases empty : t = []
  · rw [empty]
    rfl
  · exact (text empty).solid.trim

/-- No key stands in a clause text that it does not show, or in an empty one. -/
theorem not_occurs_of_isClauseText {keys : List Key} {t : Text} (text : t ≠ [] → IsClauseText keys t) {k : Key}
    (listed : k ∈ keys) (mem : k ∈ clauseKeys) : ¬ k.Occurs (mask .nested t) := by
  by_cases empty : t = []
  · subst empty
    intro has
    exact not_begins_nil mem has.begins
  · exact (text empty).silent k listed

/-- A clause with a free text. -/
theorem isPart_text {keys own : List Key} {keyword t : Text} (text : t ≠ [] → IsClauseText keys t)
    (leading : isLeading keyword = true)
    (front : ∀ k ∈ clauseKeys, k ∉ own → k.begins (' ' :: (keyword ++ [' '])) = false)
    (known : ∀ k ∈ clauseKeys, k ∉ own → k ∈ keys) : IsPart own (clauseText keyword t) := by
  refine isPart_clauseText leading front (isClosed_of_isClauseText text) ?_
  intro k mem other
  exact not_occurs_of_isClauseText text (known k mem other) mem

/-- A count is no keyword. -/
theorem not_begins_count {k : Key} (mem : k ∈ clauseKeys) {t : Text} (count : IsCount t) : ¬ k.Begins t := by
  refine Key.not_begins_of_word (isWord_of_isCount count) ?_
  intro w first
  have lower : isLowerWord w = true := by
    have all := isLower_clauseKeys k mem
    rw [Key.isLower, Option.mem_def.1 first] at all
    exact all
  rw [← Bool.not_eq_true]
  intro same
  obtain ⟨c, more, rfl⟩ := List.exists_cons_of_ne_nil count.filled
  have image : fold c ∈ w.map fold := by
    rw [beq_iff_eq.1 same]
    exact List.mem_cons_self
  obtain ⟨d, part, eq⟩ := List.mem_map.1 image
  rw [isLowerWord, Bool.and_eq_true, List.all_eq_true] at lower
  have range := lower.2 d part
  simp only [Bool.and_eq_true, decide_eq_true_eq] at range
  rw [fold_of_lower range.1 range.2] at eq
  have digit : (!(97 ≤ (fold c).toNat && (fold c).toNat ≤ 122)) = true :=
    all_of_isCount (p := fun c => !(97 ≤ (fold c).toNat && (fold c).toNat ≤ 122)) count (by decide) c List.mem_cons_self
  rw [← eq] at digit
  simp [range] at digit

theorem plain_count {t : Text} (count : IsCount t) : Plain t := plain_of_class (by decide) (isWord_of_isCount count)

theorem isSolid_count {t : Text} (count : IsCount t) : IsSolid t :=
  isSolid_of_class count.filled fun c mem => not_isBlank_of_isWord (isWord_of_isCount count c mem)

theorem plain_digits (n : Nat) : Plain (digits n) := plain_count (isCount_digits n)

theorem isSolid_digits (n : Nat) : IsSolid (digits n) := isSolid_count (isCount_digits n)

theorem plain_offsetText (m : Nat) : Plain (offsetText (some m)) :=
  plain_cons.2 ⟨by decide, plain_append.2 ⟨by decide, plain_cons.2 ⟨by decide, plain_digits m⟩⟩⟩

theorem plain_limitText (l : Limit) : Plain (limitText l) := by
  refine plain_append.2 ⟨plain_digits l.count, ?_⟩
  cases l.offset with
  | none => exact plain_nil
  | some m => exact plain_offsetText m

/-- An offset shows no keyword but its own. -/
theorem not_begins_offset {k : Key} (mem : k ∈ clauseKeys) (other : k ≠ .word "offset") {t : Text} (count : IsCount t) :
    ¬ k.Begins (" OFFSET ".toList ++ t) := by
  intro has
  have lower := isLower_clauseKeys k mem
  rcases Key.begins_append lower (.inl (by decide)) has with word | number
  · have only : ∀ k ∈ clauseKeys, k.begins " OFFSET ".toList = true → k = .word "offset" := by decide
    exact other (only k mem ((Key.begins_iff lower).2 word))
  · exact not_begins_count mem count number

theorem not_begins_offsetText {k : Key} (mem : k ∈ clauseKeys) (other : k ≠ .word "offset") (m : Nat) :
    ¬ k.Begins (offsetText (some m)) := not_begins_offset mem other (isCount_digits m)

/-- A limit shows no keyword but that of its offset. -/
theorem not_begins_limitText {l : Limit} {k : Key} (mem : k ∈ clauseKeys) (other : k = .word "offset" → l.offset = none) :
    ¬ k.Begins (limitText l) := by
  intro has
  have edge : (offsetText l.offset).head?.any isWord = false := by
    cases l.offset with
    | none => rfl
    | some m => exact not_isWord_of_isBlank (by decide)
  rcases Key.begins_append (isLower_clauseKeys k mem) (.inr edge) has with count | has
  · exact not_begins_count mem (isCount_digits l.count) count
  · cases given : l.offset with
    | none =>
      rw [given] at has
      exact not_begins_nil mem has
    | some m =>
      rw [given] at has
      refine not_begins_offsetText mem ?_ m has
      intro same
      rw [other same] at given
      cases given

/-- What a limit shows is its own keyword, and what its counts show. -/
theorem isPart_limit {x : Text} {own : List Key} (plain : Plain x) (listed : .word "limit" ∈ own)
    (silent : ∀ k ∈ clauseKeys, k ∉ own → ¬ k.Begins x) : IsPart own (clauseText "LIMIT" x) := by
  have front : ∀ k ∈ clauseKeys, k.begins (' ' :: ("LIMIT".toList ++ [' '])) = true → k = .word "limit" := by
    decide
  refine isPart_clauseText (by decide) ?_ plain.isClosed ?_
  · intro k mem other
    rw [← Bool.not_eq_true]
    intro begins
    exact other (front k mem begins ▸ listed)
  · intro k mem other has
    rw [plain.mask] at has
    exact silent k mem other has.begins

/-- The clause of a limit, if there is one. -/
def limitClause (l : Option Limit) : Text := clauseText "LIMIT" (l.elim [] limitText)

theorem isPart_limitClause (l : Option Limit) {own : List Key} (listed : .word "limit" ∈ own)
    (listed' : .word "offset" ∈ own ∨ ∀ counts ∈ l, counts.offset = none) : IsPart own (limitClause l) := by
  cases l with
  | none => exact isPart_nil
  | some counts =>
    refine isPart_limit (plain_limitText counts) listed ?_
    intro k mem other
    refine not_begins_limitText mem ?_
    rintro rfl
    rcases listed' with listed | absent
    · exact absurd listed other
    · exact absent counts rfl

section Parts

variable {s : Statement} (select : IsSelect s)
include select

theorem isWrittenItem_orderBy : ∀ t ∈ s.orderBy.map orderText, IsWrittenItem t := by
  intro t mem
  obtain ⟨o, listed, rfl⟩ := List.mem_map.1 mem
  apply isWrittenItem_orderText
  rw [isColumn, select.orderBy o listed, Bool.or_true]

theorem isWrittenItem_groupBy : ∀ t ∈ s.groupBy.map ColumnName.qualified, IsWrittenItem t := by
  intro t mem
  obtain ⟨c, listed, rfl⟩ := List.mem_map.1 mem
  apply isWrittenItem_qualified
  rw [isColumn, select.groupBy c listed, Bool.or_true]

theorem isClauseText_having : s.having.getD [] ≠ [] → IsClauseText textKeys (s.having.getD []) := by
  intro filled
  cases given : s.having with
  | none =>
    rw [given] at filled
    exact absurd rfl filled
  | some h => exact select.having h given

end Parts

/-! ## What follows a clause -/

/-- A clause ends where a clause starts that one of the patterns reads. -/
theorem meets_clauseText {ps : List (Scan Unit)} {p : Scan Unit} {keyword body t : Text} (mem : p ∈ ps)
    (reads : Reads p keyword) (leading : isLeading keyword = true) (meets : Meets (Scan.first ps) t) :
    Meets (Scan.first ps) (clauseText keyword body ++ t) := by
  apply Meets.clauseText leading
  · intro before rest left
    exact first_isSome mem (reads.isSome left rest)
  · exact meets

/-- A clause with a free text is read back. -/
theorem clause_text {u t keyword : Text} {own own' ks ks' : List Key} {start stop : Scan Unit} (starts : Starts start ks)
    (reads : Reads start keyword) (leading : isLeading keyword = true) (others : ∀ k ∈ ks, k ∈ clauseKeys ∧ k ∉ own ++ own')
    (before : IsQuiet own u) (ends : Starts stop ks') (after : IsPart own' t) {keys : List Key} {body : Text}
    (text : body ≠ [] → IsClauseText keys body) (known : ∀ k ∈ ks', k ∈ clauseKeys ∧ k ∈ keys)
    (meets : body ≠ [] → Meets stop t) :
    (Source.ofText (u ++ (clauseText keyword body ++ t))).clause start stop =
      .ok (if body.isEmpty then none else some body) := by
  apply clause_clauseText starts reads leading others before (trim_of_isClauseText text) (isClosed_of_isClauseText text)
    ends _ after meets
  intro k mem
  exact ⟨(known k mem).1, not_occurs_of_isClauseText text (known k mem).2 (known k mem).1⟩

/-! ## The clauses behind the joins -/

/-- Items that together are the text of a clause. -/
structure IsClauseList (keys : List Key) (items : List Text) : Prop where
  each : ∀ t ∈ items, IsItem t
  text : items ≠ [] → IsClauseText keys (Text.join ", " items)

section List

variable {keys : List Key} {items : List Text}

theorem isClauseList_items (written : ∀ t ∈ items, IsWrittenItem t) (known : ∀ k ∈ keys, k ∈ clauseKeys) :
    IsClauseList keys items :=
  ⟨fun t mem => (written t mem).isItem, isClauseText_items written known⟩

variable (list : IsClauseList keys items)
include list

theorem IsClauseList.joined : Text.join ", " items ≠ [] → IsClauseText keys (Text.join ", " items) := by
  intro filled
  apply list.text
  rintro rfl
  exact filled rfl

theorem IsClauseList.split : splitTop ',' (Text.join ", " items) = .ok items := by
  have split := splitTop_join blank_nil blank_nil list.each
  rwa [List.append_nil, List.nil_append] at split

end List

/-- The clauses behind the joins of a selection, and what stands behind them. -/
structure Clauses where
  condition : Text
  groups : List Text
  having : Text
  order : List Text
  tail : Text

namespace Clauses

variable (c : Clauses)

/-- The clauses from `ORDER BY` on. -/
def fromOrder : Text := clauseText "ORDER BY" (Text.join ", " c.order) ++ c.tail

/-- The clauses from `HAVING` on. -/
def fromHaving : Text := clauseText "HAVING" c.having ++ c.fromOrder

/-- The clauses from `GROUP BY` on. -/
def fromGroup : Text := clauseText "GROUP BY" (Text.join ", " c.groups) ++ c.fromHaving

/-- The clauses in their order. -/
def text : Text := clauseText "WHERE" c.condition ++ c.fromGroup

/-- What follows the clauses in front of `ORDER BY` ends each of them. -/
def Ends : Prop :=
  ∀ ps : List (Scan Unit), Scan.word "limit" ∈ ps → phrase "order" "by" ∈ ps → Meets (Scan.first ps) c.fromOrder

/-- The clauses can be read: none of them shows what ends it, and each of them ends. -/
structure IsWritten : Prop where
  condition : c.condition ≠ [] → IsClauseText bodyKeys c.condition
  groups : IsClauseList bodyKeys c.groups
  having : c.having ≠ [] → IsClauseText bodyKeys c.having
  order : IsClauseList textKeys c.order
  tail : IsPart [.word "limit", .word "offset"] c.tail
  last : c.tail.getLast?.any isBlank = false
  ordered : Meets orderEnd c.tail
  ended : c.condition ≠ [] ∨ c.groups ≠ [] ∨ c.having ≠ [] → c.Ends

theorem text_append (t : Text) : { c with tail := c.tail ++ t }.text = c.text ++ t := by
  simp only [text, fromGroup, fromHaving, fromOrder, List.append_assoc]

variable {c}

section Meets

variable {ps : List (Scan Unit)} (ends : c.Ends) (limited : Scan.word "limit" ∈ ps) (ordered : phrase "order" "by" ∈ ps)
  (chosen : Scan.word "having" ∈ ps)
include ends limited ordered chosen

theorem meets_fromHaving : Meets (Scan.first ps) c.fromHaving :=
  meets_clauseText chosen reads_having (by decide) (ends ps limited ordered)

variable (grouped : phrase "group" "by" ∈ ps)
include grouped

theorem meets_fromGroup : Meets (Scan.first ps) c.fromGroup :=
  meets_clauseText grouped reads_groupBy (by decide) (meets_fromHaving ends limited ordered chosen)

theorem meets_text (filtered : Scan.word "where" ∈ ps) : Meets (Scan.first ps) c.text :=
  meets_clauseText filtered reads_where (by decide) (meets_fromGroup ends limited ordered chosen grouped)

end Meets

section Read

variable (written : c.IsWritten) {u : Text} {own : List Key}
include written

theorem isPart_condition :
    IsPart [.word "from", .word "into", .word "offset", .word "where"] (clauseText "WHERE" c.condition) :=
  isPart_text written.condition (by decide) (by decide) (by decide)

theorem isPart_groups :
    IsPart [.word "from", .word "into", .word "offset", .by "group"] (clauseText "GROUP BY" (Text.join ", " c.groups)) :=
  isPart_text written.groups.joined (by decide) (by decide) (by decide)

theorem isPart_having : IsPart [.word "from", .word "into", .word "offset", .word "having"] (clauseText "HAVING" c.having) :=
  isPart_text written.having (by decide) (by decide) (by decide)

/-- What the clauses from `ORDER BY` on show. -/
theorem isPart_fromOrder : IsPart [.word "from", .word "into", .by "order", .word "limit", .word "offset"] c.fromOrder := by
  have order : IsPart [.word "from", .word "into", .by "order"] (clauseText "ORDER BY" (Text.join ", " c.order)) :=
    isPart_text written.order.joined (by decide) (by decide) (by decide)
  exact order.append written.tail

theorem isPart_fromHaving :
    IsPart [.word "from", .word "into", .word "having", .by "order", .word "limit", .word "offset"] c.fromHaving :=
  ((isPart_having written).append (isPart_fromOrder written)).mono (by decide)

theorem isPart_fromGroup :
    IsPart [.word "from", .word "into", .by "group", .word "having", .by "order", .word "limit", .word "offset"]
      c.fromGroup :=
  ((isPart_groups written).append (isPart_fromHaving written)).mono (by decide)

/-- What the clauses show. -/
theorem isPart :
    IsPart [.word "from", .word "into", .word "where", .by "group", .word "having", .by "order", .word "limit",
      .word "offset"] c.text :=
  ((isPart_condition written).append (isPart_fromGroup written)).mono (by decide)

variable (before : IsQuiet own u)
include before

theorem read_condition (others : .word "where" ∉ own) :
    (Source.ofText (u ++ c.text)).clause (Scan.word "where") whereEnd =
      .ok (if c.condition.isEmpty then none else some c.condition) := by
  refine clause_text (starts_word (by decide)) reads_where (by decide) (by simpa [clauseKeys] using others) before
    starts_whereEnd (isPart_fromGroup written) written.condition (by decide) ?_
  intro filled
  exact meets_fromGroup (written.ended (.inl filled)) (.tail _ (.tail _ (.tail _ (.head _)))) (.tail _ (.head _))
    (.tail _ (.tail _ (.head _))) (.head _)

/-- What stands in front of `GROUP BY`. -/
theorem isQuiet_toGroup :
    IsQuiet (own ++ [.word "from", .word "into", .word "offset", .word "where"]) (u ++ clauseText "WHERE" c.condition) :=
  before.append (isPart_condition written).toIsQuiet (isPart_condition written).led

theorem read_groupBy (others : .by "group" ∉ own) :
    (Source.ofText (u ++ c.text)).groupBy = .ok (c.groups.map columnName) := by
  have found := clause_text (starts_phrase (by decide)) reads_groupBy (by decide) (by simpa [clauseKeys] using others)
    (isQuiet_toGroup written before) starts_groupEnd (isPart_fromHaving written) written.groups.joined (by decide) (by
      intro filled
      have ends := written.ended (.inr (.inl fun empty => filled (by rw [empty]; rfl)))
      exact meets_fromHaving ends (.tail _ (.tail _ (.head _))) (.tail _ (.head _)) (.head _))
  rw [text, ← List.append_assoc, Source.groupBy, fromGroup, found]
  by_cases empty : c.groups = []
  · rw [empty]
    rfl
  · rw [if_neg (by simpa using (written.groups.text empty).solid.filled)]
    change (do return (← splitTop ',' (Text.join ", " c.groups)).map columnName) = _
    rw [written.groups.split]
    rfl

/-- What stands in front of `HAVING`. -/
theorem isQuiet_toHaving :
    IsQuiet (own ++ [.word "from", .word "into", .word "offset", .word "where"] ++
        [.word "from", .word "into", .word "offset", .by "group"])
      (u ++ clauseText "WHERE" c.condition ++ clauseText "GROUP BY" (Text.join ", " c.groups)) :=
  (isQuiet_toGroup written before).append (isPart_groups written).toIsQuiet (isPart_groups written).led

theorem read_having (others : .word "having" ∉ own) :
    (Source.ofText (u ++ c.text)).clause (Scan.word "having") havingEnd =
      .ok (if c.having.isEmpty then none else some c.having) := by
  rw [text, fromGroup, ← List.append_assoc, ← List.append_assoc]
  refine clause_text (starts_word (by decide)) reads_having (by decide) (by simpa [clauseKeys] using others)
    (isQuiet_toHaving written before) starts_havingEnd (isPart_fromOrder written) written.having (by decide) ?_
  intro filled
  exact written.ended (.inr (.inr filled)) _ (.tail _ (.head _)) (.head _)

theorem read_orderBy (others : .by "order" ∉ own) :
    (Source.ofText (u ++ c.text)).orderBy = .ok (c.order.filterMap orderTerm?) := by
  have toOrder := (isQuiet_toHaving written before).append (isPart_having written).toIsQuiet (isPart_having written).led
  have found := clause_text (starts_phrase (by decide)) reads_orderBy (by decide) (by simpa [clauseKeys] using others)
    toOrder starts_orderEnd written.tail written.order.joined (by decide) fun _ => written.ordered
  rw [text, fromGroup, fromHaving, ← List.append_assoc, ← List.append_assoc, ← List.append_assoc, Source.orderBy, fromOrder,
    found]
  by_cases empty : c.order = []
  · rw [empty]
    rfl
  · rw [if_neg (by simpa using (written.order.text empty).solid.filled)]
    change (do return (← splitTop ',' (Text.join ", " c.order)).filterMap orderTerm?) = _
    rw [written.order.split]
    rfl

end Read

end Clauses

/-! ## The clauses of a statement -/

theorem last_clauseText {keyword body : Text} (trimmed : trim body = body) :
    (clauseText keyword body).getLast?.any isBlank = false := by
  by_cases empty : body = []
  · rw [empty, clauseText_nil]
    rfl
  · have text : clauseText keyword body = (' ' :: (keyword ++ [' '])) ++ body := by
      rw [clauseText_of_ne_nil empty]
      simp
    rw [text, List.getLast?_append_of_ne_nil _ empty]
    exact last_of_trim trimmed

/-- What can stand behind all clauses, since it ends every one of them. -/
structure IsTail (t : Text) : Prop where
  part : IsPart [.word "limit", .word "offset"] t
  last : t.getLast?.any isBlank = false
  meets : ∀ ps : List (Scan Unit), Scan.word "limit" ∈ ps → Meets (Scan.first ps) t
  ends : EndsTable (mask .nested t)

theorem IsTail.clauses {c : Clauses} (tail : IsTail c.tail) : c.Ends := by
  intro ps limited ordered
  exact meets_clauseText ordered reads_orderBy (by decide) (tail.meets ps limited)

theorem isSolid_limitText (l : Limit) : IsSolid (limitText l) := by
  cases given : l.offset with
  | none =>
    rw [limitText, given, show offsetText none = [] from rfl, List.append_nil]
    exact isSolid_digits _
  | some m =>
    rw [limitText, given, show offsetText (some m) = " OFFSET ".toList ++ digits m from rfl]
    exact (isSolid_digits _).append (isSolid_digits _) _

/-- A limit ends every clause in front of it. -/
theorem isTail_limit {x : Text} (trimmed : trim x = x) (part : IsPart [.word "limit", .word "offset"] (clauseText "LIMIT" x)) :
    IsTail (clauseText "LIMIT" x) where
  part := part
  last := last_clauseText trimmed
  meets := by
    intro ps limited
    have meets : Meets (Scan.first ps) (clauseText "LIMIT" x ++ []) := meets_clauseText limited reads_limit (by decide) (.inl rfl)
    rwa [List.append_nil] at meets
  ends := by
    have ends : EndsTable (mask .nested (clauseText "LIMIT" x ++ [])) := endsTable_clauseText (by decide) (by decide) (.inl rfl)
    rwa [List.append_nil] at ends

theorem isTail_limitClause (l : Option Limit) : IsTail (limitClause l) := by
  refine isTail_limit ?_ (isPart_limitClause l (by decide) (.inl (by decide)))
  cases l with
  | none => rfl
  | some counts => exact (isSolid_limitText counts).trim

/-- The clauses of a statement, with a text in the place of its limit. -/
def clauses (s : Statement) (tail : Text) : Clauses :=
  ⟨s.condition, s.groupBy.map ColumnName.qualified, s.having.getD [], s.orderBy.map orderText, tail⟩

section Select

variable {s : Statement} (select : IsSelect s)
include select

theorem isWritten_clauses {tail : Text} (part : IsPart [.word "limit", .word "offset"] tail)
    (last : tail.getLast?.any isBlank = false) (ordered : Meets orderEnd tail)
    (ended : s.condition ≠ [] ∨ s.groupBy.map ColumnName.qualified ≠ [] ∨ s.having.getD [] ≠ [] → (s.clauses tail).Ends) :
    (s.clauses tail).IsWritten where
  condition filled := (select.condition filled).mono (by decide)
  groups := isClauseList_items (isWrittenItem_groupBy select) (by decide)
  having filled := (isClauseText_having select filled).mono (by decide)
  order := isClauseList_items (isWrittenItem_orderBy select) (by decide)
  tail := part
  last := last
  ordered := ordered
  ended := ended

theorem IsTail.isWritten {tail : Text} (last : IsTail tail) : (s.clauses tail).IsWritten :=
  isWritten_clauses select last.part last.last (last.meets _ (.head _)) fun _ => last.clauses

/-- The clauses show their own keywords only. -/
theorem isPart_clauses :
    IsPart [.word "from", .word "into", .word "where", .by "group", .word "having", .by "order"] (s.clauses []).text := by
  have condition : IsPart [.word "from", .word "into", .word "where"] (clauseText "WHERE" s.condition) :=
    isPart_text select.condition (by decide) (by decide) (by decide)
  have groups : IsClauseList textKeys (s.groupBy.map ColumnName.qualified) :=
    isClauseList_items (isWrittenItem_groupBy select) (by decide)
  have group : IsPart [.word "from", .word "into", .by "group"] (clauseText "GROUP BY" (Text.join ", " (s.groupBy.map _))) :=
    isPart_text groups.joined (by decide) (by decide) (by decide)
  have having : IsPart [.word "from", .word "into", .word "having"] (clauseText "HAVING" (s.having.getD [])) :=
    isPart_text (isClauseText_having select) (by decide) (by decide) (by decide)
  have terms : IsClauseList textKeys (s.orderBy.map orderText) :=
    isClauseList_items (isWrittenItem_orderBy select) (by decide)
  have order : IsPart [.word "from", .word "into", .by "order"] (clauseText "ORDER BY" (Text.join ", " (s.orderBy.map _))) :=
    isPart_text terms.joined (by decide) (by decide) (by decide)
  have empty : IsPart [] [] := isPart_nil
  have all := condition.append (group.append (having.append (order.append empty)))
  exact all.mono (by decide)

theorem map_groups (tail : Text) : (s.clauses tail).groups.map columnName = s.groupBy := by
  rw [clauses, List.map_map]
  have all (c : ColumnName) (mem : c ∈ s.groupBy) : (columnName ∘ ColumnName.qualified) c = c := by
    apply columnName_qualified
    rw [isColumn, select.groupBy c mem, Bool.or_true]
  rw [List.map_congr_left all, List.map_id']

theorem filterMap_order (tail : Text) : (s.clauses tail).order.filterMap orderTerm? = s.orderBy := by
  rw [clauses, List.filterMap_map]
  have all (o : OrderTerm) (mem : o ∈ s.orderBy) : (orderTerm? ∘ orderText) o = some o := by
    apply orderTerm_orderText
    rw [isColumn, select.orderBy o mem, Bool.or_true]
  rw [List.filterMap_congr all, List.filterMap_some]

theorem filled_having (tail : Text) :
    (if (s.clauses tail).having.isEmpty then none else some (s.clauses tail).having) = s.having := by
  unfold clauses
  cases given : s.having with
  | none => rfl
  | some h => rw [Option.getD_some, if_neg (by simpa using (select.having h given).solid.filled)]

end Select

/-- The limit at the end of a selection is read back. -/
theorem read_limit {l : Option Limit} (small : ∀ counts ∈ l, counts.count ≤ maxCount ∧ ∀ m ∈ counts.offset, m ≤ maxCount)
    {u : Text} {own : List Key} (others : .word "limit" ∉ own ∧ .word "offset" ∉ own) (before : IsQuiet own u) :
    (Source.ofText (u ++ limitClause l)).limit? = l := by
  have starts : Starts Pattern.limit [.word "limit"] := starts_of_opens opens_limit
  have starts' : Starts Pattern.offset [.word "offset"] := starts_of_opens opens_offset
  have known : ∀ k ∈ [Key.word "limit"], k ∈ clauseKeys ∧ k ∉ own := by simpa [clauseKeys] using others.1
  cases l with
  | none =>
    rw [show limitClause none = [] from rfl, List.append_nil, Source.limit?, find_eq_none starts known before]
    rfl
  | some l =>
    obtain ⟨count, offset⟩ := l
    obtain ⟨smallCount, smallOffset⟩ := small _ rfl
    have plain : Plain ("LIMIT".toList ++ ' ' :: limitText ⟨count, offset⟩) :=
      plain_append.2 ⟨by decide, plain_cons.2 ⟨by decide, plain_limitText _⟩⟩
    have text : limitClause (some ⟨count, offset⟩) = ' ' :: ("LIMIT".toList ++ ' ' :: limitText ⟨count, offset⟩) :=
      clauseText_of_ne_nil (isSolid_limitText _).filled
    have left : (mask .nested u ++ [' ']).getLast?.any isWord = false := by
      rw [List.getLast?_concat]
      exact not_isWord_of_isBlank (by decide)
    obtain ⟨stop, fits⟩ := limit_between (n := count) offset left
    have led : IsLed (' ' :: ("LIMIT".toList ++ ' ' :: limitText ⟨count, offset⟩)) :=
      isLed_of_isLeading (by decide : isLeading "LIMIT".toList = true) _
    have shown := plain.mask .nested
    have found := find_keyword starts known before led (by rw [shown]; exact fits)
    -- an offset is looked for elsewhere only if none follows the count
    have elsewhere (missing : offset = none) :
        (Source.ofText (u ++ limitClause (some ⟨count, offset⟩))).find Pattern.offset = none := by
      have part : IsPart [.word "limit"] (limitClause (some ⟨count, offset⟩)) := by
        refine isPart_limitClause _ (by decide) (.inr ?_)
        rintro _ ⟨⟩
        exact missing
      refine find_eq_none starts' ?_ (before.append part.toIsQuiet part.led)
      simpa [clauseKeys] using others.2
    rw [Source.limit?, text, found, Option.map_some]
    dsimp only
    rw [rowCount_digits smallCount]
    cases offset with
    | none =>
      rw [text] at elsewhere
      rw [elsewhere rfl]
      rfl
    | some m =>
      have count : rowCount (digits m) = m := rowCount_digits (smallOffset m rfl)
      rw [Option.map_some, Option.map_some, count]
      rfl

end Statement
end QueryCode
