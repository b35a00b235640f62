import QueryCode.Convert
import QueryCode.Proofs.Condition.Total
import QueryCode.Proofs.Statement.Names
import QueryCode.Proofs.Statement.Parts
import QueryCode.Proofs.Text.Parens

/-!
# Conversion never faults

The conditions that the writers read are cut out of the statement, so they have no Kelvin sign if it has none, and
nothing else in a writer can fault. The names and dates that are replaced in kept text stand at boundaries of it as well.
The bounds on recursion and repetition are never met: `convert_returns`.
-/

namespace QueryCode
set_option autoImplicit false

open Text Text.Scan Text.Cursor

/-! ## Conditions are parts of the statement -/

namespace Statement

variable {t : Text}

/-- The texts of the statement that are read as conditions have no Kelvin sign. -/
structure IsClear (s : Statement) : Prop where
  condition : Clear s.condition
  having : ∀ text ∈ s.having, Clear text
  joins : ∀ join ∈ s.joins, Clear join.on

theorem isClear_empty : IsClear {} where
  condition := List.not_mem_nil
  having := fun _ => nofun
  joins := fun _ => nofun

theorem ReadsAs.isClear {s : Statement} (reads : ReadsAs t s) (clear : Clear t) : s.IsClear where
  condition := clear.subset reads.infix_condition.subset
  having := fun text found => clear.subset (Source.infix_clause t _ _ _ reads.having text found).subset
  joins := fun join mem =>
    clear.subset ((Ensures.mapM fun hit _ => Source.infix_on t hit) _ reads.joins join mem).subset

/-- A text without a Kelvin sign is read as a statement whose conditions have none. -/
theorem isClear_of_parse (clear : Clear t) {s : Statement} (read : parse t = .ok s) : s.IsClear := by
  rcases reads_of_parse read with rfl | reads
  · exact isClear_empty
  · exact reads.isClear (clear.subset (infix_strip t).subset)

end Statement

/-! ## Writers -/

theorem Plan.returns_ofText {t : Text} (clear : Clear t) : Returns (Plan.ofText t) := by
  obtain ⟨found, read⟩ := Condition.returns_parse (clear.subset (infix_trim t).subset)
  unfold Plan.ofText
  dsimp only
  rw [read]
  split
  · exact returns_ok _
  · split
    · exact returns_ok _
    · cases found <;> exact returns_ok _

/-- The writer has code for the statement, whatever its kind. -/
structure Writer.Total (w : Writer) (s : Statement) : Prop where
  select : Returns (w.select s)
  insert : Returns (w.insert s)
  update : Returns (w.update s)
  delete : Returns (w.delete s)

theorem Writer.Total.write {w : Writer} {s : Statement} (total : w.Total s) : Returns (w.write s) := by
  unfold Writer.write
  split
  · exact total.select
  · exact total.insert
  · exact total.update
  · exact total.delete
  · exact returns_ok _

namespace Relation

variable {s : Statement} (clear : s.IsClear)
include clear

theorem Single.total_writer : Single.writer.Total s := by
  have found : Returns (Single.conditionCalls s) := (Plan.returns_ofText clear.condition).bind fun _ => returns_pure _
  constructor
  · exact (found.bind fun _ => returns_pure _).bind fun _ => returns_pure _
  · exact returns_ok _
  · exact (found.bind fun _ => returns_pure _).bind fun _ => returns_pure _
  · exact (found.bind fun _ => returns_pure _).bind fun _ => returns_pure _

theorem Joined.total_writer : Joined.writer.Total s := by
  have found : Returns (Joined.conditionCalls s) := (Plan.returns_ofText clear.condition).bind fun _ => returns_pure _
  constructor
  · exact (found.bind fun _ => returns_pure _).bind fun _ => returns_pure _
  · exact returns_ok _
  · exact (found.bind fun _ => returns_pure _).bind fun _ => returns_pure _
  · exact (found.bind fun _ => returns_pure _).bind fun _ => returns_pure _

end Relation

namespace Finder

variable {s : Statement} (clear : s.IsClear)
include clear

theorem returns_condition (wrapped : Bool) : Returns (condition s wrapped) :=
  (Plan.returns_ofText clear.condition).bind fun _ => returns_pure _

theorem returns_whereOption (wrapped : Bool) : Returns (whereOption s wrapped) := by
  unfold whereOption
  split
  · exact (returns_condition clear wrapped).bind fun _ => returns_pure _
  · exact returns_pure _

theorem Single.total_writer : Single.writer.Total s := by
  constructor
  · refine (returns_whereOption clear false).bind fun found => ?_
    split
    · exact returns_pure _
    · exact returns_pure _
  · exact returns_ok _
  · exact (returns_condition clear false).bind fun _ => returns_pure _
  · exact (returns_condition clear false).bind fun _ => returns_pure _

namespace Joined

omit clear in
theorem returns_association {join : Join} (clear : Clear join.on) : Returns (s.association? join) := by
  obtain ⟨found, read⟩ := Condition.returns_parse clear
  unfold Statement.association?
  rw [read]
  cases found with
  | none => exact returns_ok none
  | some c =>
    dsimp only
    split <;> exact returns_ok _

omit clear in
theorem returns_extraCondition {join : Join} (clear : Clear join.on) : Returns (extraCondition? s join) := by
  refine (Condition.returns_parse clear).bind fun found => ?_
  split
  · exact returns_pure none
  · split
    · exact returns_pure none
    · split <;> exact returns_pure _

theorem returns_fullInclude (i : Nat) {join : Join} (mem : join ∈ s.joins) : Returns (fullInclude s i join) := by
  have clear := clear.joins join mem
  refine (returns_association clear).bind fun association => ?_
  dsimp only
  split
  · exact (returns_extraCondition clear).bind fun _ => returns_pure _
  · exact returns_pure _

omit clear in
theorem returns_having {t : Text} (clear : Clear t) : Returns (having s t) := by
  unfold having
  dsimp only
  split
  · exact returns_pure _
  · refine (Condition.returns_parse (clear.subset (infix_trim t).subset)).bind fun found => ?_
    split <;> exact returns_pure _

theorem returns_havingOption : Returns (havingOption s) := by
  unfold havingOption
  split
  · rename_i text found
    have kept : text ∈ s.having := (Option.filter_eq_some_iff.1 found).1
    exact (returns_having (clear.having text kept)).bind fun _ => returns_pure _
  · exact returns_pure _

theorem returns_includes : Returns ((s.joins.mapIdx fun i join => fullInclude s i join).mapM id) := by
  refine Returns.mapM fun item mem => ?_
  obtain ⟨i, within, rfl⟩ := List.mem_mapIdx.1 mem
  exact returns_fullInclude clear i (List.getElem_mem within)

theorem total_writer : writer.Total s := by
  have change : Returns (changeOptions s) := (returns_condition clear true).bind fun _ => returns_pure _
  constructor
  · refine (returns_includes clear).bind fun includes => (returns_whereOption clear true).bind fun found => ?_
    split
    · exact returns_pure _
    · exact (returns_havingOption clear).bind fun _ => returns_pure _
  · exact returns_ok _
  · exact change.bind fun _ => returns_pure _
  · exact change.bind fun _ => returns_pure _

end Joined
end Finder

/-- A statement whose conditions have no Kelvin sign is written for every target. -/
theorem Statement.returns_write (target : Target) {s : Statement} (clear : s.IsClear) : Returns (s.write target) := by
  have single : (target.singleWriter).Total s := by
    cases target
    · exact Relation.Single.total_writer clear
    · exact Finder.Single.total_writer clear
  have joined : (target.joinedWriter).Total s := by
    cases target
    · exact Relation.Joined.total_writer clear
    · exact Finder.Joined.total_writer clear
  unfold Statement.write
  split
  · exact single.write
  · exact joined.write

/-! ## Names and dates in kept text -/

/-- Wherever the scan fits outside literals, it starts and stops at boundaries of the text. -/
def Text.FitsCleanly (p : Scan Unit) : Prop :=
  ∀ t, ∀ hit ∈ findAll p (start (mask .quotes t)), IsBoundary hit.start.offset t ∧ IsBoundary hit.stop.offset t

/-- A place behind a character that is no space. -/
structure Text.Cursor.Firm (m : Text) (cur : Cursor) : Prop extends Ahead m 0 cur where
  last : cur.last ≠ some ' '

theorem Text.Scan.leads_firm {m : Text} {member : Char → Bool} (solid : member ' ' = false) :
    Leads (Ahead m 0) (one member) fun _ => Firm m := by
  rintro cur c stop ⟨⟨before, rest, rfl, rfl⟩, -⟩ found
  obtain ⟨after, rfl, in', rfl⟩ := one_some.1 found
  refine ⟨ahead_between (u := [c]) (Nat.zero_le _), ?_⟩
  rw [between, List.getLast?_concat]
  rintro ⟨⟩
  rw [solid] at in'
  cases in'

/-- A scan that takes no space at its start and stops after another character fits cleanly. -/
theorem Text.fitsCleanly_of_leads {p : Scan Unit}
    (solid : ∀ before rest, (p (between before rest)).isSome = true → rest.head? ≠ some ' ')
    (leads : ∀ m, Leads (Ahead m 0) p fun _ => Firm m) : FitsCleanly p := by
  intro t hit mem
  obtain ⟨ahead, fits⟩ := findAll_ahead ((leads _).mono fun _ _ => Firm.toAhead) hit mem
  obtain ⟨⟨⟨before', rest', split', stop⟩, -⟩, last⟩ := leads _ _ _ _ ahead fits
  obtain ⟨⟨before, rest, split, start⟩, -⟩ := ahead
  rw [start] at fits ⊢
  rw [stop] at last ⊢
  have head := solid before rest (Option.isSome_of_eq_some fits)
  exact ⟨isBoundary_of_mask split (.inr head), isBoundary_of_mask split' (.inl last)⟩

namespace Pattern

theorem fold_ne_space {c : Char} (head : isHead c = true) : fold c ≠ ' ' := by
  intro space
  rcases Bool.or_eq_true_iff.1 head with letter | line
  · rw [space] at letter
    revert letter
    decide
  · rw [eq_of_beq line] at space
    revert space
    decide

end Pattern

namespace Statement

/-- The alias of the main table starts with a letter or an underscore. -/
theorem head_alias {sql given : Text} {s : Statement} (read : parse sql = .ok s) (aliased : s.alias? = some given) :
    given.head?.any Pattern.isHead = true := by
  obtain ⟨table, main, aliased⟩ := Option.bind_eq_some_iff.1 aliased
  have found : (Source.ofText (strip sql)).main? = some table := by
    rcases reads_of_parse read with rfl | reads
    · cases main
    · rw [reads.main, main]
  exact ((Source.isNamed_main found).alias? given aliased).head

end Statement

namespace Relation

/-- An alias is replaced in whole characters. -/
theorem fitsCleanly_aliasPoint {given : Text} (head : given.head?.any Pattern.isHead = true) :
    FitsCleanly (aliasPoint given) := by
  refine fitsCleanly_of_leads (fun before rest fits space => ?_) fun m => ?_
  · -- a letter of the alias does not fold to a space
    obtain ⟨⟨_, stop⟩, found⟩ := Option.isSome_iff_exists.1 fits
    obtain ⟨_, _, edge, found⟩ := bind_some.1 found
    obtain ⟨-, rfl⟩ := edge_some.1 edge
    obtain ⟨_, _, found, -⟩ := bind_some.1 found
    obtain ⟨word, found⟩ := discard_some.1 found
    obtain ⟨after, rfl, same, -⟩ := letters_some.1 found
    cases given with
    | nil => cases head
    | cons c given =>
      cases word with
      | nil => cases same
      | cons d word =>
        have letter : fold c = fold d := (List.cons.inj (eq_of_beq same)).1
        rw [Option.some.inj space] at letter
        exact Pattern.fold_ne_space head (letter.trans (by decide))
  · have word : Leads (Ahead m 0) (letters given) fun _ => Ahead m 0 := by
      rintro cur word stop ⟨⟨before, rest, rfl, rfl⟩, late⟩ found
      obtain ⟨after, rfl, -, rfl⟩ := letters_some.1 found
      exact ahead_between late
    exact leads_edge.bind fun _ => word.discard.bind fun _ => (leads_firm (by decide)).discard

/-- A date is replaced in whole characters. -/
theorem fitsCleanly_bareDate : FitsCleanly bareDate := by
  refine fitsCleanly_of_leads (fun before rest fits space => ?_) fun m => ?_
  · obtain ⟨⟨_, stop⟩, found⟩ := Option.isSome_iff_exists.1 fits
    obtain ⟨_, _, edge, found⟩ := bind_some.1 found
    obtain ⟨-, rfl⟩ := edge_some.1 edge
    obtain ⟨_, _, year, -⟩ := bind_some.1 found
    obtain ⟨_, _, digit, -⟩ := bind_some.1 year
    obtain ⟨c, digit⟩ := discard_some.1 digit
    obtain ⟨after, rfl, digit, -⟩ := one_some.1 digit
    rw [Option.some.inj space] at digit
    exact absurd digit (by decide)
  · have digits : ∀ n, Leads (Ahead m 0) (bareDate.digits (n + 1)) fun _ => Firm m := by
      intro n
      induction n with
      | zero => exact (leads_firm (by decide)).discard.bind fun _ => leads_pure fun _ firm => firm
      | succ n ih => exact (leads_firm (by decide)).discard.bind fun _ => ih.of fun _ => Firm.toAhead
    have hyphen : Leads (Firm m) (discard (char '-')) fun _ => Ahead m 0 :=
      (((leads_firm (by decide)).mono fun _ _ => Firm.toAhead).of fun _ => Firm.toAhead).discard
    refine leads_edge.bind fun _ => (digits 3).bind fun _ => hyphen.bind fun _ => ?_
    exact (digits 1).bind fun _ => hyphen.bind fun _ => (digits 1).bind fun _ => leads_edge

end Relation

/-! ## Cuts in conditions and values -/

/-- The text is cut by its readers at offsets that they count in it or find in its mask. All of these are boundaries,
and the pieces are what the readers return. -/
structure Text.CutsCleanly (t : Text) : Prop where
  /-- Whatever shows in the mask has a boundary before it and behind it. -/
  shown : ∀ cover u c v, mask cover t = u ++ c :: v → c ≠ ' ' → IsBoundary (size u) t ∧ IsBoundary (size (u ++ [c])) t
  pieces : ∀ sep, sep ≠ ' ' → Returns (splitTop sep t)
  parens : parenSlices t = .ok (parenBody? t)
  literal : ∀ literal rest, Condition.stringLiteral? t = some (literal, rest) →
    cut (size literal) t = .ok (literal, rest)
  /-- The offset at which the loop over an operand stops. -/
  span : ∃ rest, cut (size (Condition.operandSpan none 0 t)) t = .ok (Condition.operandSpan none 0 t, rest)
  operand : ∀ value rest, Condition.operand? t = some (value, rest) → cut (size value) t = .ok (value, rest)
  quotes : ∀ value, Literal.unquote? t = some value →
    ∃ quote body, slice 1 (size t - 1) t = .ok body ∧ Literal.undouble quote body = value

theorem Text.cutsCleanly (t : Text) : CutsCleanly t where
  shown cover u c v split solid := by
    refine ⟨isBoundary_of_mask split (.inr (by simpa using solid)), ?_⟩
    have behind : mask cover t = (u ++ [c]) ++ v := by rw [split, List.append_assoc, List.singleton_append]
    exact isBoundary_of_mask behind (.inl (by simpa using solid))
  pieces _ solid := returns_splitTop solid t
  parens := parenSlices_eq t
  literal literal rest found := by
    rw [(Condition.stringLiteral_spelled found).1]
    exact cut_size literal rest
  span := by
    obtain ⟨rest, split⟩ := Condition.operandSpan_isPrefix none 0 t
    have cut := cut_size (Condition.operandSpan none 0 t) rest
    rw [split] at cut
    exact ⟨rest, cut⟩
  operand value rest found := by
    rw [(Condition.operand_spelled found).1]
    exact cut_size value rest
  quotes value found := by
    obtain ⟨quote, body, enclosed, same⟩ := Literal.unquote_eq_some_iff.1 found
    exact ⟨quote, body, enclosed.slice, same⟩

/-! ## Conversion -/

/-- **Conversion never faults but for the Kelvin sign.** Every text is read as a statement, and one without that sign is
converted for every target. Where names and dates are replaced in kept text, they are cut out at boundaries and nothing
of the text is lost. The nested parts of a condition, its repeated parts and the joins of a statement all end before the
bounds on them, so that a greater bound changes nothing. Every piece of a text that is found by its offsets is cut out at
boundaries. Each recursive reading is of a strictly shorter text, so that any reader may stand at the bottom of the
recursion, and each repeated part takes something. -/
theorem convert_returns :
    (∀ sql, Returns (Statement.parse sql)) ∧
    (∀ target sql, '\u212A' ∉ sql → Returns (convert target sql)) ∧
    (∀ sql s given, Statement.parse sql = .ok s → s.alias? = some given → FitsCleanly (Relation.aliasPoint given)) ∧
    FitsCleanly Relation.bareDate ∧ (∀ p t, mapHits id (mark p t) = t) ∧
    (∀ t depth, t.length ≤ depth →
      Condition.disjunction (Condition.unary depth) t = Condition.disjunction (Condition.unary t.length) t) ∧
    (∀ t depth bound, t.length ≤ bound →
      Reader.many.go (do Condition.connective "and"; Condition.unary depth) bound t =
        Reader.many (do Condition.connective "and"; Condition.unary depth) t) ∧
    (∀ t depth bound, t.length ≤ bound →
      Reader.many.go (do Condition.connective "or"; Condition.conjunction (Condition.unary depth)) bound t =
        Reader.many (do Condition.connective "or"; Condition.conjunction (Condition.unary depth)) t) ∧
    (∀ sql bound, (mask .nested sql).length ≤ bound →
      findAll.go Pattern.join bound (start (mask .nested sql)) = findAll Pattern.join (start (mask .nested sql))) ∧
    (∀ t, CutsCleanly t) ∧
    (∀ depth, Condition.unary depth = Condition.unaryAbove Reader.fail depth) ∧
    (∀ u v t, Reader.Safe u → (∀ s, s.length < t.length → u s = v s) →
      Condition.unaryAbove u 1 t = Condition.unaryAbove v 1 t) ∧
    (∀ base t depth, t.length < depth → Condition.unaryAbove base depth t = Condition.unary depth t) ∧
    (∀ depth t c rest, (do Condition.connective "and"; Condition.unary depth : Reader Condition) t = .ok (some (c, rest)) →
      rest.length < t.length) ∧
    (∀ depth t c rest, (do Condition.connective "or"; Condition.conjunction (Condition.unary depth) : Reader Condition) t =
      .ok (some (c, rest)) → rest.length < t.length) := by
  refine ⟨Statement.returns_parse, fun target sql clear => ?_, fun sql s given read aliased => ?_,
    Relation.fitsCleanly_bareDate, mapHits_mark, fun t depth => Condition.disjunction_unary,
    fun t depth bound => Condition.many_conjuncts depth, fun t depth bound => Condition.many_disjuncts depth,
    fun sql bound => findAll_go_eq fun n => Pattern.leads_join.mono fun _ _ both => both.2.toAhead,
    cutsCleanly, Condition.unary_eq_unaryAbove, fun u v t => Condition.unaryAbove_congr,
    fun base t depth enough => (Condition.agree_unaryAbove base t.length enough t (le_refl _)).symm,
    Condition.takes_conjunct, Condition.takes_disjunct⟩
  · refine (Statement.returns_parse sql).bind_of fun s read => ?_
    exact (Statement.returns_write target (Statement.isClear_of_parse clear read)).bind fun _ => returns_pure _
  · exact Relation.fitsCleanly_aliasPoint (Statement.head_alias read aliased)

/-- A text with characters of several bytes in its names, literals and conditions. A keyword written with the Kelvin sign
is cut inside that character. -/
theorem convert_returns_kelvin :
    let sql := "SELECT é FROM naïve née WHERE née.x = '→' AND (ß > 2020-01-31) ORDER BY ß;".toList
    let nested := "NOT (a = 'é' OR NOT (b = 1 AND c = 2))".toList
    let kelvin := "SELECT * FROM t WHERE a LI\u212AE 'x'".toList
    let enclosed := "(é = 'ñ)') OR".toList
    ('\u212A' ∉ sql ∧ ∀ target, Returns (convert target sql)) ∧
      (∃ s, Statement.parse sql = .ok s ∧ s.alias? = some "née".toList ∧ FitsCleanly (Relation.aliasPoint "née".toList)) ∧
      (nested.length ≤ 99 ∧ Condition.disjunction (Condition.unary 99) nested =
        Condition.disjunction (Condition.unary nested.length) nested) ∧
      (parenBody? enclosed = some ("é = 'ñ)'".toList, " OR".toList) ∧
        parenSlices enclosed = .ok (some ("é = 'ñ)'".toList, " OR".toList))) ∧
      '\u212A' ∈ kelvin ∧ Returns (Statement.parse kelvin) ∧
      ∀ target, convert target kelvin = .error .insideCharacter := by
  intro sql nested kelvin enclosed
  have clear : '\u212A' ∉ sql := by decide
  have short : nested.length ≤ 99 := by decide
  have cut : ∀ target, convert target kelvin = .error .insideCharacter := by
    intro target
    cases target <;> decide +kernel
  have body : parenBody? enclosed = some ("é = 'ñ)'".toList, " OR".toList) := by decide
  obtain ⟨returns, converts, aliases, -, -, depth, -, -, -, cuts, -⟩ := convert_returns
  obtain ⟨s, read⟩ := returns sql
  have aliased : s.alias? = some "née".toList := by
    have given : (Statement.parse sql).map Statement.alias? = .ok (some "née".toList) := by decide +kernel
    rw [read] at given
    exact Except.ok.inj given
  exact ⟨⟨clear, fun target => converts target sql clear⟩, ⟨s, read, aliased, aliases sql s _ read aliased⟩,
    ⟨short, depth nested 99 short⟩, ⟨body, body ▸ (cuts enclosed).parens⟩, by decide, returns kelvin, cut⟩

end QueryCode
