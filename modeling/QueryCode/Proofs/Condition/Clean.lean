import QueryCode.Condition.Plan
import QueryCode.Proofs.Code.Clean
import QueryCode.Proofs.Condition.Slices
import QueryCode.Proofs.Condition.Tree
import QueryCode.Proofs.Condition.Written
import QueryCode.Proofs.Ensures

/-!
# Conditions and bans

The predicates of a condition are made of slices of its text: names without their backticks, operands as they stand,
and literals whose doubled quotes are made single. None of this brings two characters together that did not stand side
by side before, so a condition avoids a ban if its text does, and so do its printed form and its plan.
-/

namespace QueryCode
set_option autoImplicit false

variable {ban : Text.Ban}

/-! ## Literals -/

namespace Literal

/-- A doubled quote leaves one of its halves between its neighbours. -/
theorem avoids_append_undouble (quote : Char) (lead t : Text) (avoids : Text.Avoids ban (lead ++ t)) :
    Text.Avoids ban (lead ++ undouble quote t) := by
  fun_induction undouble quote t generalizing lead with
  | case1 => exact avoids
  | case2 c => exact avoids
  | case3 c d rest both ih =>
    rw [Bool.and_eq_true, beq_iff_eq, beq_iff_eq] at both
    obtain ⟨rfl, rfl⟩ := both
    rw [List.append_cons] at avoids
    have joined : Text.Avoids ban (lead ++ [d] ++ rest) :=
      ⟨List.forall_mem_append.2 ⟨avoids.left.chars, (List.forall_mem_cons.1 avoids.right.chars).2⟩,
        avoids.left.pairs.append_overlap avoids.right.pairs (List.cons_ne_nil d [])⟩
    rw [List.append_cons]
    exact ih _ joined
  | case4 c d rest other ih =>
    rw [List.append_cons] at avoids ⊢
    exact ih _ avoids

theorem avoids_undouble {t : Text} (avoids : t.Avoids ban) (quote : Char) : (undouble quote t).Avoids ban :=
  avoids_append_undouble quote [] t avoids

/-- The text of a string avoids the ban. -/
def Avoids (ban : Text.Ban) : Literal → Prop
  | .string t => t.Avoids ban
  | _ => True

theorem avoids_unquote {token inner : Text} (avoids : token.Avoids ban) (found : unquote? token = some inner) :
    inner.Avoids ban := by
  obtain ⟨quote, body, enclosed, rfl⟩ := unquote_eq_some_iff.1 found
  refine avoids_undouble (avoids.of_part ?_) quote
  rw [enclosed.split]
  exact ⟨[quote], [quote], rfl⟩

theorem avoids_ofToken {raw : Text} (avoids : raw.Avoids ban) : (ofToken raw).Avoids ban := by
  cases value : ofToken raw with
  | string t =>
    by_cases whole : t = Text.trim raw
    · rw [whole]
      exact avoids.trim
    · exact avoids_unquote avoids.trim (ofToken_eq_string_iff.1 ⟨value, whole⟩)
  | _ => trivial

theorem clean_code {value : Literal} (avoids : value.Avoids ban) (target : Target) : (value.code target).Clean ban := by
  cases value with
  | empty => exact Code.clean_quoted.2 Text.avoids_nil
  | null => cases target <;> exact Code.clean_word.2 (by decide)
  | boolean value => cases value <;> exact Code.clean_word.2 (by decide)
  | integer n => exact Code.clean_word.2 (inert_integerText n)
  | number x => exact Code.clean_word.2 (Double.inert_text x)
  | string t => exact Code.clean_quoted.2 avoids

end Literal

/-! ## Predicates -/

namespace Predicate

open Text (Tame)

/-- All texts of the predicate avoid the ban. -/
def Avoids (ban : Text.Ban) : Predicate → Prop
  | .comparison field _ value => field.Avoids ban ∧ value.Avoids ban
  | .like field _ pattern _ => field.Avoids ban ∧ pattern.Avoids ban
  | .inList field _ values => field.Avoids ban ∧ ∀ value ∈ values, value.Avoids ban
  | .inQuery field _ query => field.Avoids ban ∧ query.Avoids ban
  | .between field _ low high => field.Avoids ban ∧ low.Avoids ban ∧ high.Avoids ban
  | .isNull field _ => field.Avoids ban
  | .raw text => text.Avoids ban

theorem tame_notWord (negated : Bool) : Tame (notWord negated) := by cases negated <;> decide

theorem tame_likeWord (anyCase : Bool) : Tame (likeWord anyCase) := by cases anyCase <;> decide

theorem tame_comparator (op : Comparator) : Tame op.text := by cases op <;> decide

theorem avoids_append_doubleQuotes (lead t : Text) (avoids : Text.Avoids ban (lead ++ t)) :
    Text.Avoids ban (lead ++ doubleQuotes t) := by
  induction t generalizing lead with
  | nil => exact avoids
  | cons c t ih =>
    by_cases quote : c = '\''
    · subst quote
      rw [List.append_cons] at avoids
      have rest := ih [] avoids.right
      have quotes : lead ++ doubleQuotes ('\'' :: t) = lead ++ ['\'', '\''] ++ doubleQuotes t := by
        rw [Condition.doubleQuotes_quote, List.append_assoc]
        rfl
      rw [quotes]
      exact avoids.left.left.glue rest (by decide) (by decide)
    · rw [Condition.doubleQuotes_other quote, List.append_cons]
      rw [List.append_cons] at avoids
      exact ih _ avoids

/-- The printed predicate is its texts with fixed words between them. -/
theorem avoids_text {p : Predicate} (avoids : p.Avoids ban) : p.text.Avoids ban := by
  cases p with
  | comparison field op value =>
    exact ((avoids.1.append_tame (by decide)).append_tame (tame_comparator op)).glue avoids.2 (by decide) (by decide)
  | like field negated pattern anyCase =>
    have doubled : Text.Avoids ban (doubleQuotes pattern) := avoids_append_doubleQuotes [] pattern avoids.2
    have words := ((avoids.1.append_tame (u := " ") (by decide)).append_tame (tame_notWord negated)).append_tame
      (tame_likeWord anyCase)
    exact (words.glue doubled (by decide) (by decide)).append_tame (by decide)
  | inList field negated values =>
    have list : Text.Avoids ban (Text.join ", " values) := Text.avoids_join avoids.2 (by decide) (by decide)
    have words := (avoids.1.append_tame (u := " ") (by decide)).append_tame (tame_notWord negated)
    exact (words.glue list (by decide) (by decide)).append_tame (by decide)
  | inQuery field negated query =>
    have words := (avoids.1.append_tame (u := " ") (by decide)).append_tame (tame_notWord negated)
    exact (words.glue avoids.2 (by decide) (by decide)).append_tame (by decide)
  | between field negated low high =>
    have words := (avoids.1.append_tame (u := " ") (by decide)).append_tame (tame_notWord negated)
    have lower : Text.Avoids ban (field ++ " " ++ notWord negated ++ "BETWEEN " ++ low) :=
      words.glue avoids.2.1 (by decide) (by decide)
    exact lower.glue avoids.2.2 (by decide) (by decide)
  | isNull field negated =>
    exact ((avoids.append_tame (by decide)).append_tame (tame_notWord negated)).append_tame (by decide)
  | raw text => exact avoids

theorem avoids_negation {p q : Predicate} (avoids : p.Avoids ban) (negated : p.negation? = some q) : q.Avoids ban := by
  cases p <;> cases negated <;> exact avoids

end Predicate

/-! ## Conditions -/

namespace Condition

theorem NameSpelling.avoids {slice name : Text} (spelled : NameSpelling slice name) (avoids : slice.Avoids ban) :
    name.Avoids ban := by
  cases spelled with
  | bare => exact avoids
  | ticked => exact avoids.of_part ⟨['\x60'], ['\x60'], rfl⟩

theorem FieldSpelling.avoids {slice field : Text} (spelled : FieldSpelling slice field) (avoids : slice.Avoids ban) :
    field.Avoids ban := by
  cases spelled with
  | plain named => exact named.avoids avoids
  | qualified table column =>
    rw [List.append_cons] at avoids ⊢
    exact (table.avoids avoids.left.left).glue (column.avoids avoids.right) (by decide) (by decide)

theorem LiteralSpelling.avoids {slice pattern : Text} (spelled : LiteralSpelling slice pattern)
    (avoids : slice.Avoids ban) : pattern.Avoids ban := by
  cases spelled with
  | @quoted quote body => exact Literal.avoids_undouble (avoids.of_part ⟨[quote], [quote], rfl⟩) quote

/-- **A predicate avoids what its slice avoids.** -/
theorem PredicateSpelling.avoids {slice after : Text} {p : Predicate} (spelled : PredicateSpelling slice after p)
    (avoids : slice.Avoids ban) : p.Avoids ban := by
  have inside {body : Text} (within : Text.Avoids ban ('(' :: body ++ [')'])) : body.Avoids ban :=
    within.of_part ⟨['('], [')'], rfl⟩
  cases spelled with
  | comparison named => exact ⟨named.avoids avoids.left.left.left.left, avoids.right⟩
  | like named _ _ _ _ quoted =>
    exact ⟨named.avoids avoids.left.left.left.left.left, quoted.avoids avoids.right⟩
  | inList named _ _ _ _ _ _ items =>
    refine ⟨named.avoids avoids.left.left.left.left.left, fun value mem => ?_⟩
    exact (inside avoids.right).of_part (Text.infix_splitTop items value mem)
  | inQuery named => exact ⟨named.avoids avoids.left.left.left.left.left, (inside avoids.right).trim⟩
  | between named =>
    exact ⟨named.avoids avoids.left.left.left.left.left.left.left, avoids.left.left.right, avoids.right⟩
  | isNull named => exact named.avoids avoids.left.left.left.left.left
  | raw => exact avoids

/-- All predicates of the condition avoid the ban. -/
def Avoids (ban : Text.Ban) (c : Condition) : Prop := ∀ p ∈ c.leaves, p.Avoids ban

theorem avoids_and {parts : List Condition} : Avoids ban (.and parts) ↔ ∀ part ∈ parts, part.Avoids ban := by
  rw [Avoids, leaves_and, List.forall_mem_flatMap]
  rfl

theorem avoids_or {parts : List Condition} : Avoids ban (.or parts) ↔ ∀ part ∈ parts, part.Avoids ban := by
  rw [Avoids, leaves_or, List.forall_mem_flatMap]
  rfl

theorem avoids_not {part : Condition} : Avoids ban (.not part) ↔ part.Avoids ban := by
  rw [Avoids, leaves]
  rfl

theorem Woven.avoids {t : Text} {ps : List Predicate} (woven : Woven t ps) (avoids : t.Avoids ban) :
    ∀ p ∈ ps, p.Avoids ban := by
  induction woven with
  | done => exact fun p mem => absurd mem List.not_mem_nil
  | next between owned more ih =>
    refine List.forall_mem_cons.2 ⟨?_, ih avoids.right⟩
    rcases owned with ⟨after, spelled⟩ | rfl
    · exact spelled.avoids avoids.left.right
    · exact avoids.left.right

/-- A condition avoids what its text avoids. -/
theorem avoids_of_parse {t : Text} {c : Condition} (avoids : t.Avoids ban) (read : parse t = .ok (some c)) :
    c.Avoids ban := (parse_reading read).woven.avoids avoids

theorem ensures_parse_avoids {t : Text} (avoids : t.Avoids ban) :
    Ensures (parse t) fun found => ∀ c ∈ found, c.Avoids ban := by
  rintro _ read c ⟨⟩
  exact avoids_of_parse avoids read

/-! ## Printed conditions -/

theorem mapLeaves_self (c : Condition) : c.mapLeaves (fun p => p) = c := by
  induction c using byParts with
  | and parts ih => rw [mapLeaves, mapParts_eq_map, List.map_congr_left ih, List.map_id']
  | or parts ih => rw [mapLeaves, mapParts_eq_map, List.map_congr_left ih, List.map_id']
  | not part ih => rw [mapLeaves, ih]
  | leaf p => rw [mapLeaves]

theorem avoids_bracket {t : Text} (avoids : t.Avoids ban) (brackets : Bool) : (bracket brackets t).Avoids ban := by
  unfold bracket
  split
  · exact (Text.Tame.append_avoids (by decide) avoids).append_tame (by decide)
  · exact avoids

/-- Between the predicates there are connectives and parentheses only. -/
theorem avoids_text_mapLeaves {f : Predicate → Predicate} {c : Condition}
    (each : ∀ p ∈ c.leaves, (f p).text.Avoids ban) : (c.mapLeaves f).text.Avoids ban := by
  have joined {underAnd : Bool} {parts : List Condition}
      (all : ∀ part ∈ parts, (part.mapLeaves f).text.Avoids ban) :
      Text.Avoids ban (Text.join (joiner underAnd)
        (parts.map fun part => placed underAnd part (part.mapLeaves f).text)) := by
    refine Text.avoids_join (List.forall_mem_map.2 fun part mem => ?_) ?_ ?_
    · exact avoids_bracket (all part mem) _
    · cases underAnd <;> decide
    · cases underAnd <;> decide
  induction c using byParts with
  | and parts ih =>
    rw [leaves_and, List.forall_mem_flatMap] at each
    rw [text_mapLeaves_and]
    exact joined fun part mem => ih part mem (each part mem)
  | or parts ih =>
    rw [leaves_or, List.forall_mem_flatMap] at each
    rw [text_mapLeaves_or]
    exact joined fun part mem => ih part mem (each part mem)
  | not part ih =>
    rw [leaves] at each
    rw [text_mapLeaves_not]
    exact Text.Tame.append_avoids (by decide) (avoids_bracket (ih each) _)
  | leaf p =>
    rw [text_mapLeaves_leaf]
    exact each p (by rw [leaves]; exact List.mem_singleton_self p)

theorem avoids_text {c : Condition} (avoids : c.Avoids ban) : c.text.Avoids ban := by
  have printed := avoids_text_mapLeaves (f := fun p => p) fun p mem => Predicate.avoids_text (avoids p mem)
  rwa [mapLeaves_self] at printed

theorem Avoids.of_mem_conjuncts {c part : Condition} (avoids : c.Avoids ban) (mem : part ∈ c.conjuncts) :
    part.Avoids ban := by
  intro p leaf
  refine avoids p ?_
  rw [← leaves_conjuncts]
  exact List.mem_flatMap.2 ⟨part, mem, leaf⟩

theorem avoids_predicate {c : Condition} {p : Predicate} (avoids : c.Avoids ban) (found : c.predicate? = some p) :
    p.Avoids ban := by
  unfold predicate? at found
  split at found
  · cases found
    exact avoids p (by rw [leaves]; exact List.mem_singleton_self p)
  · rename_i q
    exact Predicate.avoids_negation (avoids q (by rw [leaves, leaves]; exact List.mem_singleton_self q)) found
  · cases found

end Condition

/-! ## Plans -/

/-- The field and the value of a comparison avoid the ban. -/
def SimpleTest.Avoids (ban : Text.Ban) (test : SimpleTest) : Prop := test.field.Avoids ban ∧ test.value.Avoids ban

namespace Tests

/-- The fields, patterns and values of all tests avoid the ban. -/
structure Avoids (ban : Text.Ban) (tests : Tests) : Prop where
  like : ∀ test ∈ tests.like, test.field.Avoids ban ∧ test.pattern.Avoids ban
  inList : ∀ test ∈ tests.inList, test.field.Avoids ban ∧ ∀ value ∈ test.values, value.Avoids ban
  between : ∀ test ∈ tests.between, test.field.Avoids ban ∧ test.low.Avoids ban ∧ test.high.Avoids ban
  null : ∀ test ∈ tests.null, test.field.Avoids ban
  simple : ∀ test ∈ tests.simple, test.Avoids ban

theorem avoids_empty : Avoids ban {} := by
  constructor <;> exact fun _ mem => absurd mem List.not_mem_nil

theorem Avoids.append {a b : Tests} (left : a.Avoids ban) (right : b.Avoids ban) : (a ++ b).Avoids ban where
  like := List.forall_mem_append.2 ⟨left.like, right.like⟩
  inList := List.forall_mem_append.2 ⟨left.inList, right.inList⟩
  between := List.forall_mem_append.2 ⟨left.between, right.between⟩
  null := List.forall_mem_append.2 ⟨left.null, right.null⟩
  simple := List.forall_mem_append.2 ⟨left.simple, right.simple⟩

theorem avoids_ofPredicate {p : Predicate} (avoids : p.Avoids ban) : (ofPredicate p).Avoids ban := by
  cases p with
  | comparison =>
    exact { avoids_empty with
      simple := List.forall_mem_singleton.2 ⟨avoids.1, Literal.avoids_ofToken avoids.2⟩ }
  | like => exact { avoids_empty with like := List.forall_mem_singleton.2 avoids }
  | inList =>
    exact { avoids_empty with
      inList := List.forall_mem_singleton.2
        ⟨avoids.1, List.forall_mem_map.2 fun value mem => Literal.avoids_ofToken (avoids.2 value mem)⟩ }
  | between =>
    exact { avoids_empty with
      between := List.forall_mem_singleton.2
        ⟨avoids.1, Literal.avoids_ofToken avoids.2.1, Literal.avoids_ofToken avoids.2.2⟩ }
  | isNull => exact { avoids_empty with null := List.forall_mem_singleton.2 avoids }
  | inQuery => exact avoids_empty
  | raw => exact { avoids_empty with }

theorem avoids_ofConditions {cs : List Condition} (each : ∀ c ∈ cs, (ofCondition c).Avoids ban) :
    (ofConditions cs).Avoids ban := by
  induction cs with
  | nil =>
    rw [ofConditions]
    exact avoids_empty
  | cons c cs ih =>
    rw [List.forall_mem_cons] at each
    rw [ofConditions]
    exact each.1.append (ih each.2)

theorem avoids_ofCondition {c : Condition} (avoids : c.Avoids ban) : (ofCondition c).Avoids ban := by
  induction c using Condition.byParts with
  | and parts ih =>
    rw [ofCondition]
    exact avoids_ofConditions fun c mem => ih c mem (Condition.avoids_and.1 avoids c mem)
  | or parts ih =>
    rw [ofCondition]
    exact avoids_ofConditions fun c mem => ih c mem (Condition.avoids_or.1 avoids c mem)
  | not part =>
    rw [ofCondition]
    split
    · rename_i p found
      exact avoids_ofPredicate (Condition.avoids_predicate avoids found)
    · exact { avoids_empty with }
  | leaf p =>
    rw [ofCondition]
    exact avoids_ofPredicate (Condition.avoids_predicate avoids rfl)

end Tests

theorem Condition.avoids_simpleTests {c : Condition} (avoids : c.Avoids ban) :
    ∀ test ∈ c.simpleTests, test.Avoids ban := by
  intro test mem
  obtain ⟨part, member, found⟩ := List.mem_filterMap.1 mem
  have kept := avoids.of_mem_conjuncts member
  unfold simpleTest? at found
  split at found
  · cases found
    have both : Predicate.Avoids ban (.comparison _ _ _) := avoids_predicate kept rfl
    exact ⟨both.1, Literal.avoids_ofToken both.2⟩
  · cases found

namespace Plan

/-- All texts of the plan avoid the ban. -/
def Avoids (ban : Text.Ban) : Plan → Prop
  | .empty => True
  | .literal text => text.Avoids ban
  | .disjunction c => c.Avoids ban
  | .decomposed tests => tests.Avoids ban
  | .consolidated tests => ∀ test ∈ tests, test.Avoids ban
  | .raw c => c.Avoids ban

theorem avoids_ofCondition {c : Condition} (avoids : c.Avoids ban) : (ofCondition c).Avoids ban := by
  unfold ofCondition
  split
  · exact avoids
  split
  · exact avoids
  split
  · exact Condition.avoids_simpleTests avoids
  · exact Tests.avoids_ofCondition avoids

/-- **The plan of a text avoids what the text avoids.** -/
theorem ensures_ofText {t : Text} (avoids : t.Avoids ban) : Ensures (ofText t) (Avoids ban) := by
  unfold ofText
  dsimp only
  split
  · exact ensures_ok trivial
  split
  · exact ensures_ok avoids.trim
  · cases read : Condition.parse (Text.trim t) with
    | error fault => exact fun _ => nofun
    | ok found =>
      cases found with
      | none => exact ensures_ok trivial
      | some c => exact ensures_ok (avoids_ofCondition (Condition.avoids_of_parse avoids.trim read))

end Plan
end QueryCode
