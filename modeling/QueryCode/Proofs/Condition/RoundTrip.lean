import QueryCode.Proofs.Condition.Equality
import QueryCode.Proofs.Condition.Printed

/-!
# Printing and reading conditions

Reading the text of a condition gives the condition back. The printer writes parentheses around an `OR` under an
`AND` and around whatever a `NOT` covers that is no predicate; these are the ones that the reader needs, since a
tree with an `AND` right under an `AND`, or an `OR` right under an `OR`, is not canonical.

Each level of the grammar is read from the text of its parts: a predicate or a group by `unary`, an `AND` by
`conjunction`, and anything by `disjunction`. What follows a part is a connective of the same level or the end. At the
end the last predicate may leave a literal or a parenthesis open, as long as none of the printer's parentheses closes
after it.
-/

namespace QueryCode
set_option autoImplicit false

namespace Condition

open Reader

/-- The root is an `AND`. -/
def isAnd : Condition → Bool
  | .and _ => true
  | _ => false

/-- The trees that texts stand for: an `AND` or an `OR` has at least two parts, and none of its own kind right under
it. -/
inductive Canonical : Condition → Prop where
  | leaf (p : Predicate) : Canonical (.leaf p)
  | not {part : Condition} (inner : Canonical part) : Canonical (.not part)
  | and {parts : List Condition} (several : 2 ≤ parts.length) (each : ∀ part ∈ parts, Canonical part)
      (flat : ∀ part ∈ parts, part.isAnd = false) : Canonical (.and parts)
  | or {parts : List Condition} (several : 2 ≤ parts.length) (each : ∀ part ∈ parts, Canonical part)
      (flat : ∀ part ∈ parts, part.isOr = false) : Canonical (.or parts)

mutual

/-- The texts that stand in parentheses in the text of a condition. -/
def enclosed : Condition → List Text
  | .and parts => partsEnclosed true parts
  | .or parts => partsEnclosed false parts
  | .not part => (if part.isLeaf then [] else [part.text]) ++ enclosed part
  | .leaf _ => []

/-- Those in the text of the parts of an `AND` or an `OR`. -/
def partsEnclosed (underAnd : Bool) : List Condition → List Text
  | [] => []
  | part :: more => (if underAnd && part.isOr then [part.text] else []) ++ enclosed part ++ partsEnclosed underAnd more

end

/-- A text that is a condition in parentheses: it ends outside its literals and parentheses and is no query. -/
structure IsEnclosable (t : Text) : Prop where
  closed : Text.isClosed t = true
  list : startsWith "select" t = false

/-- No predicate of the condition ends inside a literal or parentheses. -/
def Steady (c : Condition) : Prop := ∀ p ∈ c.leaves, Text.isClosed p.lastOperand = true

/-- The predicates of the condition say what they are, only the last of them may end inside a literal or parentheses,
and what the printer puts in parentheses can stand there. -/
structure IsLegible (c : Condition) : Prop where
  leaves : ∀ p ∈ c.leaves, p.Legible
  steady : ∀ p ∈ c.leaves.dropLast, Text.isClosed p.lastOperand = true
  groups : ∀ t ∈ c.enclosed, IsEnclosable t

/-! ## The parts of a tree -/

theorem mem_allLeaves {p : Predicate} {parts : List Condition} :
    p ∈ allLeaves parts ↔ ∃ part ∈ parts, p ∈ part.leaves := by
  induction parts with
  | nil => simp [allLeaves]
  | cons part more ih => simp [allLeaves, ih]

theorem mem_partsEnclosed {t : Text} {underAnd : Bool} {parts : List Condition} :
    t ∈ partsEnclosed underAnd parts ↔
      ∃ part ∈ parts, ((underAnd && part.isOr) = true ∧ t = part.text) ∨ t ∈ part.enclosed := by
  induction parts with
  | nil => simp [partsEnclosed]
  | cons part more ih =>
    have first : t ∈ (if underAnd && part.isOr then [part.text] else []) ↔
        (underAnd && part.isOr) = true ∧ t = part.text := by
      cases underAnd && part.isOr <;> simp
    rw [partsEnclosed, List.mem_append, List.mem_append, ih, first]
    simp only [List.mem_cons, or_and_right, exists_or, exists_eq_left]

theorem mem_enclosed_not {t : Text} {part : Condition} :
    t ∈ (Condition.not part).enclosed ↔ (part.isLeaf = false ∧ t = part.text) ∨ t ∈ part.enclosed := by
  rw [enclosed, List.mem_append]
  cases part.isLeaf <;> simp

theorem Canonical.leaves_ne_nil {c : Condition} (canonical : Canonical c) : c.leaves ≠ [] := by
  have parts {parts : List Condition} (several : 2 ≤ parts.length) (each : ∀ part ∈ parts, part.leaves ≠ []) :
      allLeaves parts ≠ [] := by
    match parts, several with
    | part :: _, _ => simp [allLeaves, each part List.mem_cons_self]
  induction canonical with
  | leaf p => simp [leaves]
  | not _ ih =>
    rw [leaves]
    exact ih
  | and several _ _ ih =>
    rw [leaves]
    exact parts several ih
  | or several _ _ ih =>
    rw [leaves]
    exact parts several ih

/-- The parts of a legible `AND` or `OR` are legible, and none but the last may leave a literal or a parenthesis open. -/
theorem isLegible_parts {underAnd : Bool} {parts : List Condition} (solid : ∀ part ∈ parts, part.leaves ≠ [])
    (legible : ∀ p ∈ allLeaves parts, p.Legible)
    (steady : ∀ p ∈ (allLeaves parts).dropLast, Text.isClosed p.lastOperand = true)
    (groups : ∀ t ∈ partsEnclosed underAnd parts, IsEnclosable t) :
    (∀ part ∈ parts, IsLegible part) ∧ ∀ part ∈ parts.dropLast, Steady part := by
  induction parts with
  | nil => simp
  | cons part more ih =>
    rw [allLeaves] at legible steady
    rw [List.forall_mem_cons] at solid
    rw [List.forall_mem_append] at legible
    have inner : ∀ t ∈ part.enclosed, IsEnclosable t := fun t mem =>
      groups t (mem_partsEnclosed.2 ⟨part, List.mem_cons_self, .inr mem⟩)
    cases more with
    | nil =>
      rw [allLeaves, List.append_nil] at steady
      exact ⟨List.forall_mem_singleton.2 ⟨legible.1, steady, inner⟩, by simp⟩
    | cons next more =>
      have filled : allLeaves (next :: more) ≠ [] := by
        simp [allLeaves, solid.2 next List.mem_cons_self]
      rw [List.dropLast_append_of_ne_nil filled, List.forall_mem_append] at steady
      have outer : ∀ t ∈ partsEnclosed underAnd (next :: more), IsEnclosable t := by
        intro t mem
        obtain ⟨d, later, either⟩ := mem_partsEnclosed.1 mem
        exact groups t (mem_partsEnclosed.2 ⟨d, List.mem_cons_of_mem part later, either⟩)
      obtain ⟨rest, closed⟩ := ih solid.2 legible.2 steady.2 outer
      have first : IsLegible part := ⟨legible.1, fun p mem => steady.1 p (List.dropLast_subset _ mem), inner⟩
      rw [List.dropLast_cons_cons]
      exact ⟨List.forall_mem_cons.2 ⟨first, rest⟩, List.forall_mem_cons.2 ⟨steady.1, closed⟩⟩

/-! ## The text of a tree -/

theorem bracket_true (t : Text) : bracket true t = '(' :: t ++ [')'] := by
  simp [bracket]

theorem bracket_false (t : Text) : bracket false t = t := by
  simp [bracket]

theorem IsPhrase.isBalanced {t : Text} (phrase : IsPhrase t) (closed : Text.isClosed t = true) : Text.isBalanced t = true :=
  Text.isBalanced_iff.2 ⟨phrase.matched, closed⟩

theorem IsPhrase.bracket {t : Text} (phrase : IsPhrase t) {brackets : Bool}
    (closed : brackets = true → Text.isClosed t = true) : IsPhrase (bracket brackets t) := by
  cases brackets with
  | true =>
    rw [bracket_true]
    refine ⟨rfl, ?_, (Text.isBalanced_iff.1 (Text.isBalanced_parens (phrase.isBalanced (closed rfl)))).1⟩
    rw [List.getLast?_concat]
    decide
  | false =>
    rw [bracket_false]
    exact phrase

theorem IsPhrase.isClosed_bracket {t : Text} (phrase : IsPhrase t) (closed : Text.isClosed t = true) (brackets : Bool) :
    Text.isClosed (Condition.bracket brackets t) = true := by
  cases brackets with
  | true =>
    rw [bracket_true]
    exact Text.isClosed_of_isBalanced (Text.isBalanced_parens (phrase.isBalanced closed))
  | false =>
    rw [bracket_false]
    exact closed

theorem IsPhrase.negated {t : Text} (phrase : IsPhrase t) : IsPhrase ("NOT ".toList ++ t) where
  starts := rfl
  ends := by
    rw [List.getLast?_append_of_ne_nil _ phrase.ne_nil]
    exact phrase.ends
  matched := by
    have word : Text.Plain "NOT ".toList := by decide
    rw [Text.matched_append_left word.isBalanced word.apart_left]
    exact phrase.matched

theorem plain_joiner (underAnd : Bool) : Text.Plain (joiner underAnd) := by
  cases underAnd <;> decide

theorem IsPhrase.joined {s t : Text} (first : IsPhrase s) (closed : Text.isClosed s = true) (second : IsPhrase t)
    (underAnd : Bool) : IsPhrase (s ++ (joiner underAnd ++ t)) where
  starts := by
    obtain ⟨c, more, rfl⟩ := List.exists_cons_of_ne_nil first.ne_nil
    exact first.starts
  ends := by
    have filled : joiner underAnd ++ t ≠ [] := by simp [second.ne_nil]
    rw [List.getLast?_append_of_ne_nil _ filled, List.getLast?_append_of_ne_nil _ second.ne_nil]
    exact second.ends
  matched := by
    have word := plain_joiner underAnd
    rw [Text.matched_append_left (first.isBalanced closed) ((Stops.joined underAnd t).apart s),
      Text.matched_append_left word.isBalanced word.apart_left]
    exact second.matched

/-- The text of one part of an `AND` or an `OR`. -/
def partText (underAnd : Bool) (part : Condition) : Text := bracket (underAnd && part.isOr) part.text

theorem partsText_single (underAnd : Bool) (part : Condition) : partsText underAnd [part] = partText underAnd part := by
  rw [partsText, partText]

theorem partsText_cons (underAnd : Bool) (part next : Condition) (more : List Condition) :
    partsText underAnd (part :: next :: more) =
      partText underAnd part ++ (joiner underAnd ++ partsText underAnd (next :: more)) := by
  rw [partsText, partText, List.append_assoc]
  simp

/-- The texts of the parts can stand next to each other: only the last may end inside a literal or parentheses. -/
structure Phrased (underAnd : Bool) (parts : List Condition) : Prop where
  phrases : ∀ c ∈ parts, IsPhrase (partText underAnd c)
  closed : ∀ c ∈ parts.dropLast, Text.isClosed (partText underAnd c) = true

section Parts

variable {underAnd : Bool} {part next : Condition} {more : List Condition}

theorem Phrased.tail (parts : Phrased underAnd (part :: next :: more)) : Phrased underAnd (next :: more) where
  phrases := fun c mem => parts.phrases c (List.mem_cons_of_mem part mem)
  closed := fun c mem => parts.closed c (List.mem_cons_of_mem part mem)

theorem Phrased.isPhrase (parts : Phrased underAnd (part :: more)) : IsPhrase (partsText underAnd (part :: more)) := by
  induction more generalizing part with
  | nil =>
    rw [partsText_single]
    exact parts.phrases part List.mem_cons_self
  | cons next more ih =>
    rw [partsText_cons]
    exact (parts.phrases part List.mem_cons_self).joined (parts.closed part List.mem_cons_self) (ih parts.tail) underAnd

theorem isClosed_partsText (closed : ∀ c ∈ part :: more, Text.isClosed (partText underAnd c) = true) :
    Text.isClosed (partsText underAnd (part :: more)) = true := by
  induction more generalizing part with
  | nil =>
    rw [partsText_single]
    exact closed part List.mem_cons_self
  | cons next more ih =>
    rw [List.forall_mem_cons] at closed
    have word := plain_joiner underAnd
    rw [partsText_cons, Text.isClosed_append_left closed.1 ((Stops.joined underAnd _).apart _),
      Text.isClosed_append_left word.isClosed word.apart_left]
    exact ih closed.2

/-- The parts of an `AND` or an `OR` are no query if the first of them is none. -/
theorem not_query_partsText (list : startsWith "select" part.text = false) :
    startsWith "select" (partsText underAnd (part :: more)) = false := by
  have first : startsWith "select" (partText underAnd part) = false := by
    unfold partText
    cases underAnd && part.isOr with
    | true => rw [bracket_true, startsWith, List.cons_append, keyword_of_differs rfl]
    | false => rwa [bracket_false]
  cases more with
  | nil =>
    rw [partsText_single]
    exact first
  | cons next more =>
    rw [partsText_cons, ← Bool.not_eq_true]
    intro starts
    have early := startsWith_of_stops (by decide) (by decide) (.joined underAnd _) starts
    rw [first] at early
    cases early

end Parts

theorem length_partText_le {underAnd : Bool} {part : Condition} {parts : List Condition} (mem : part ∈ parts) :
    (partText underAnd part).length ≤ (partsText underAnd parts).length := by
  induction parts with
  | nil => cases mem
  | cons first more ih =>
    cases more with
    | nil =>
      rw [List.mem_singleton.1 mem, partsText_single]
    | cons next more =>
      rw [partsText_cons, List.length_append, List.length_append]
      rcases List.mem_cons.1 mem with rfl | later
      · omega
      · have inner := ih later
        omega

theorem length_le_partsText {underAnd : Bool} {parts : List Condition} (phrases : ∀ c ∈ parts, IsPhrase (partText underAnd c)) :
    parts.length ≤ (partsText underAnd parts).length := by
  induction parts with
  | nil => exact Nat.zero_le _
  | cons first more ih =>
    rw [List.forall_mem_cons] at phrases
    have solid : 0 < (partText underAnd first).length := List.length_pos_of_ne_nil phrases.1.ne_nil
    cases more with
    | nil =>
      rw [partsText_single]
      exact solid
    | cons next more =>
      have inner := ih phrases.2
      rw [partsText_cons, List.length_append, List.length_append, List.length_cons]
      omega

/-! ## Parts and connectives -/

/-- The words of the two connectives. -/
def joinWord (underAnd : Bool) : String := if underAnd then "and" else "or"

theorem connective_joiner {underAnd : Bool} {t : Text} (phrase : IsPhrase t) (rest : Text) :
    connective (joinWord underAnd) (joiner underAnd ++ (t ++ rest)) = .ok (some ((), t ++ rest)) := by
  have starts := phrase.append_not_isGap rest
  cases underAnd with
  | true => exact connective_append "AND".toList rfl rfl (by decide) starts
  | false => exact connective_append "OR".toList rfl rfl (by decide) starts

/-- What can follow the last part of an `AND` or an `OR`: nothing or, after an `AND`, an `OR`. -/
def Ends (underAnd : Bool) (rest : Text) : Prop := rest = [] ∨ underAnd = true ∧ ∃ more, rest = joiner false ++ more

theorem Ends.stops {underAnd : Bool} {rest : Text} (ends : Ends underAnd rest) : Stops rest := by
  rcases ends with rfl | ⟨_, more, rfl⟩
  · exact .nil
  · exact .joined false more

theorem Ends.connective {underAnd : Bool} {rest : Text} (ends : Ends underAnd rest) (part : Reader Condition) :
    (do connective (joinWord underAnd); part : Reader Condition) rest = .ok none := by
  rcases ends with rfl | ⟨rfl, more, rfl⟩
  · cases underAnd <;> exact bind_of_none rfl
  · have lead : gaps (joiner false ++ more) = .ok (some ((), "OR ".toList ++ more)) := gaps_append gap_space rfl
    have other : keyword "and" ("OR ".toList ++ more) = .ok none := keyword_of_differs rfl
    exact bind_of_none ((bind_of_ok lead).trans (bind_of_none other))

/-- Each part is read in its place: before the connective, and the last of them before the rest. -/
structure ReadsParts (underAnd : Bool) (part : Reader Condition) (parts : List Condition) (rest : Text) : Prop where
  phrased : Phrased underAnd parts
  front : ∀ c ∈ parts.dropLast, ∀ more, part (partText underAnd c ++ (joiner underAnd ++ more)) =
    .ok (some (c, joiner underAnd ++ more))
  last : ∀ c, parts.getLast? = some c → part (partText underAnd c ++ rest) = .ok (some (c, rest))

/-- The parts of an `AND` or an `OR` are read one after the other. -/
theorem repeats_parts {underAnd : Bool} {part : Reader Condition} {c : Condition} {cs : List Condition} {rest : Text}
    (reads : ReadsParts underAnd part (c :: cs) rest) :
    ∃ mid, part (partsText underAnd (c :: cs) ++ rest) = .ok (some (c, mid)) ∧ cs.length ≤ mid.length ∧
      Repeats (do connective (joinWord underAnd); part) mid cs rest := by
  -- the induction is on the further parts; each of them is the first of what is left
  induction cs generalizing c with
  | nil =>
    refine ⟨rest, ?_, Nat.zero_le _, .nil rest⟩
    rw [partsText_single]
    exact reads.last c rfl
  | cons d cs ih =>
    obtain ⟨phrased, front, last⟩ := reads
    rw [List.dropLast_cons_cons, List.forall_mem_cons] at front
    obtain ⟨mid, first, _, others⟩ := ih ⟨phrased.tail, front.2, last⟩
    have text : partsText underAnd (c :: d :: cs) ++ rest =
        partText underAnd c ++ (joiner underAnd ++ (partsText underAnd (d :: cs) ++ rest)) := by
      rw [partsText_cons, List.append_assoc, List.append_assoc]
    refine ⟨joiner underAnd ++ (partsText underAnd (d :: cs) ++ rest), ?_, ?_, .cons ?_ others⟩
    · rw [text]
      exact front.1 _
    · have long := length_le_partsText phrased.tail.phrases
      rw [List.length_append, List.length_append]
      omega
    · exact (bind_of_ok (connective_joiner phrased.tail.isPhrase rest)).trans first

/-! ## Reading back -/

/-- A predicate is read where a condition can stand. -/
theorem unary_leaf {p : Predicate} {rest : Text} (legible : p.Legible) (stops : Stops rest)
    (closed : rest = [] ∨ Text.isClosed p.lastOperand = true) (depth : Nat) :
    unary (depth + 1) (p.text ++ rest) = .ok (some (.leaf p, rest)) := by
  obtain ⟨field, words, shape⟩ := exists_shape legible
  obtain ⟨head, bare, other⟩ := shape.named
  have start : p.text ++ rest = field ++ ' ' :: (words ++ ending p ++ rest) := by
    rw [shape.text]
    simp
  have word : keyword "not" (p.text ++ rest) = .ok none := by
    rw [start]
    exact keyword_of_field bare (by decide) (by decide) other rfl
  have group : group (unary depth) (p.text ++ rest) = .ok none := by
    have open' : ofOption Text.parenBody? (p.text ++ rest) = .ok none := by
      rw [start]
      exact congrArg Except.ok (bare.parenBody _)
    exact bind_of_none open'
  have leaf : before predicate atBoundary (p.text ++ rest) = .ok (some (p, rest)) :=
    before_ok.2 ⟨predicate_append legible stops closed, stops.atBoundary⟩
  refine (orElse_of_none (bind_of_none word)).trans ?_
  exact (orElse_of_none (bind_of_none group)).trans (orElse_of_ok (bind_of_ok leaf))

/-- A condition in parentheses is read as it is read alone. -/
theorem unary_group {c : Condition} {t rest : Text} {depth : Nat} (phrase : IsPhrase t) (group' : IsEnclosable t)
    (stops : Stops rest) (inner : disjunction (unary depth) t = .ok (some (c, []))) :
    unary (depth + 1) ('(' :: t ++ ')' :: rest) = .ok (some (c, rest)) := by
  have word : keyword "not" ('(' :: t ++ ')' :: rest) = .ok none := keyword_of_differs rfl
  have inside : ofOption Text.parenBody? ('(' :: t ++ ')' :: rest) = .ok (some (t, rest)) :=
    ofOption_ok.2 (Text.parenBody_of_isBalanced (phrase.isBalanced group'.closed))
  have whole : wholeBody (unary depth) t = .ok (some c) := by
    have lead : gaps t = .ok (some ((), t)) := by
      have starts := phrase.append_not_isGap []
      rw [List.append_nil] at starts
      have empty : Gap [] := by simp [Gap]
      exact gaps_append empty starts
    have read : (do gaps; let c ← disjunction (unary depth); gaps; return c : Reader Condition) t =
        .ok (some (c, [])) := (bind_of_ok lead).trans (bind_of_ok inner)
    rw [wholeBody, read]
  have found : group (unary depth) ('(' :: t ++ ')' :: rest) = .ok (some (c, rest)) := by
    refine (bind_of_ok inside).trans ?_
    have filled : (Text.trim t).isEmpty = false := by
      rw [phrase.trimmed]
      exact List.isEmpty_eq_false_iff.2 phrase.ne_nil
    rw [filled, phrase.trimStart_eq, group'.list, whole]
    rfl
  refine (orElse_of_none (bind_of_none word)).trans ?_
  exact orElse_of_ok (before_ok.2 ⟨found, stops.atBoundary⟩)

/-- A single part with no connective after it is read as an `AND` or an `OR` of it alone. -/
theorem junction_alone {kw : String} {part : Reader Condition} {wrap : List Condition → Condition} {c : Condition}
    {t rest : Text} (stop : (do connective kw; part : Reader Condition) rest = .ok none) (read : part t = .ok (some (c, rest))) :
    (do
      let first ← part
      let more ← many (do connective kw; part)
      return combine wrap first more : Reader Condition) t = .ok (some (c, rest)) :=
  (bind_of_ok read).trans (bind_of_ok (many_of_repeats (.nil rest) stop (Nat.zero_le _)))

/-- Several parts are read as an `AND` or an `OR` of them. -/
theorem junction_several (underAnd : Bool) (wrap : List Condition → Condition) {part : Reader Condition}
    {parts : List Condition} {rest : Text} (several : 2 ≤ parts.length) (ends : Ends underAnd rest)
    (reads : ReadsParts underAnd part parts rest) :
    (do
      let first ← part
      let more ← many (do connective (joinWord underAnd); part)
      return combine wrap first more : Reader Condition) (partsText underAnd parts ++ rest) =
        .ok (some (wrap parts, rest)) := by
  match parts, several with
  | c :: d :: more, _ =>
    obtain ⟨mid, first, long, others⟩ := repeats_parts reads
    exact (bind_of_ok first).trans (bind_of_ok (many_of_repeats others (ends.connective part) long))

/-- How the text of a condition is read back at each level of the grammar at which it can stand. -/
structure ReadsBack (c : Condition) : Prop where
  block : IsPhrase c.text
  closed : c.Steady → Text.isClosed c.text = true
  /-- A predicate or a `NOT` needs no parentheses. -/
  alone : c.isAnd = false → c.isOr = false → ∀ depth rest, c.text.length ≤ depth → Stops rest → rest = [] ∨ c.Steady →
    unary depth (c.text ++ rest) = .ok (some (c, rest))
  /-- Under an `OR` only another one would need parentheses. -/
  underOr : c.isOr = false → ∀ depth rest, c.text.length ≤ depth → Ends true rest → rest = [] ∨ c.Steady →
    conjunction (unary depth) (c.text ++ rest) = .ok (some (c, rest))
  whole : ∀ depth, c.text.length ≤ depth → disjunction (unary depth) c.text = .ok (some (c, []))

namespace ReadsBack

variable {c : Condition}

theorem of_conjunction (block : IsPhrase c.text) (closed : c.Steady → Text.isClosed c.text = true)
    (alone : c.isAnd = false → c.isOr = false → ∀ depth rest, c.text.length ≤ depth → Stops rest → rest = [] ∨ c.Steady →
      unary depth (c.text ++ rest) = .ok (some (c, rest)))
    (underOr : ∀ depth rest, c.text.length ≤ depth → Ends true rest → rest = [] ∨ c.Steady →
      conjunction (unary depth) (c.text ++ rest) = .ok (some (c, rest))) : ReadsBack c where
  block := block
  closed := closed
  alone := alone
  underOr := fun _ => underOr
  whole := by
    intro depth enough
    have read := underOr depth [] enough (.inl rfl) (.inl rfl)
    rw [List.append_nil] at read
    have ends : Ends false [] := .inl rfl
    exact junction_alone (ends.connective _) read

theorem of_unary (block : IsPhrase c.text) (closed : c.Steady → Text.isClosed c.text = true)
    (alone : ∀ depth rest, c.text.length ≤ depth → Stops rest → rest = [] ∨ c.Steady →
      unary depth (c.text ++ rest) = .ok (some (c, rest))) : ReadsBack c := by
  refine of_conjunction block closed (fun _ _ => alone) fun depth rest enough ends steady => ?_
  exact junction_alone (ends.connective _) (alone depth rest enough ends.stops steady)

theorem parens (back : ReadsBack c) (group : IsEnclosable c.text) {depth : Nat} {rest : Text}
    (enough : (bracket true c.text).length ≤ depth) (stops : Stops rest) :
    unary depth (bracket true c.text ++ rest) = .ok (some (c, rest)) := by
  rw [bracket_true] at enough ⊢
  simp only [List.length_append, List.length_cons, List.length_nil] at enough
  obtain ⟨depth, rfl⟩ : ∃ d, depth = d + 1 := ⟨depth - 1, by omega⟩
  have text : '(' :: c.text ++ [')'] ++ rest = '(' :: c.text ++ ')' :: rest := by simp
  rw [text]
  exact unary_group back.block group stops (back.whole depth (by omega))

/-- A part of an `AND`, in parentheses if it is an `OR`. -/
theorem part (back : ReadsBack c) (flat : c.isAnd = false) (group : c.isOr = true → IsEnclosable c.text) {depth : Nat}
    {rest : Text} (enough : (partText true c).length ≤ depth) (stops : Stops rest) (steady : rest = [] ∨ c.Steady) :
    unary depth (partText true c ++ rest) = .ok (some (c, rest)) := by
  unfold partText at enough ⊢
  rw [Bool.true_and] at enough ⊢
  cases or : c.isOr with
  | true =>
    rw [or] at enough
    exact back.parens (group or) enough stops
  | false =>
    rw [or, bracket_false] at enough
    rw [bracket_false]
    exact back.alone flat or depth rest enough stops steady

/-- What a `NOT` covers, in parentheses unless it is a predicate. -/
theorem covered (back : ReadsBack c) (group : c.isLeaf = false → IsEnclosable c.text) {depth : Nat} {rest : Text}
    (enough : (bracket (!c.isLeaf) c.text).length ≤ depth) (stops : Stops rest) (steady : rest = [] ∨ c.Steady) :
    unary depth (bracket (!c.isLeaf) c.text ++ rest) = .ok (some (c, rest)) := by
  cases c with
  | leaf p =>
    change (bracket false _).length ≤ _ at enough
    change unary depth (bracket false _ ++ rest) = _
    rw [bracket_false] at enough ⊢
    exact back.alone rfl rfl depth rest enough stops steady
  | and parts => exact back.parens (group rfl) enough stops
  | or parts => exact back.parens (group rfl) enough stops
  | not part => exact back.parens (group rfl) enough stops

theorem isPhrase_partText (back : ReadsBack c) {underAnd : Bool}
    (group : (underAnd && c.isOr) = true → IsEnclosable c.text) : IsPhrase (partText underAnd c) :=
  back.block.bracket fun brackets => (group brackets).closed

theorem isClosed_partText (back : ReadsBack c) (steady : c.Steady) (underAnd : Bool) :
    Text.isClosed (partText underAnd c) = true :=
  back.block.isClosed_bracket (back.closed steady) _

end ReadsBack

section Parts

variable {underAnd : Bool} {parts : List Condition} (back : ∀ part ∈ parts, ReadsBack part)
include back

theorem isClosed_parts (several : 2 ≤ parts.length) (steady : ∀ part ∈ parts, Steady part) :
    Text.isClosed (partsText underAnd parts) = true := by
  match parts, several with
  | c :: d :: more, _ => exact isClosed_partsText fun part mem => (back part mem).isClosed_partText (steady part mem) underAnd

variable (early : ∀ part ∈ parts.dropLast, Steady part) (groups : ∀ t ∈ partsEnclosed underAnd parts, IsEnclosable t)
include early groups

theorem phrased_parts : Phrased underAnd parts where
  phrases := fun c mem => (back c mem).isPhrase_partText fun brackets =>
    groups _ (mem_partsEnclosed.2 ⟨c, mem, .inl ⟨brackets, rfl⟩⟩)
  closed := fun c mem => (back c (List.dropLast_subset _ mem)).isClosed_partText (early c mem) underAnd

theorem isPhrase_parts (several : 2 ≤ parts.length) : IsPhrase (partsText underAnd parts) := by
  have phrased := phrased_parts back early groups
  match parts, several with
  | c :: d :: more, _ => exact phrased.isPhrase

/-- The parts of an `AND` or an `OR` are read in their places if each of them is read before a connective or the end. -/
theorem readsParts {part : Reader Condition} {rest : Text} (stops : Stops rest) (last : rest = [] ∨ ∀ c ∈ parts, Steady c)
    (each : ∀ c ∈ parts, ∀ after, Stops after → after = [] ∨ c.Steady → (after = rest ∨ ∃ more, after = joiner underAnd ++ more) →
      part (partText underAnd c ++ after) = .ok (some (c, after))) : ReadsParts underAnd part parts rest where
  phrased := phrased_parts back early groups
  front := fun c mem more =>
    each c (List.dropLast_subset _ mem) _ (.joined underAnd more) (.inr (early c mem)) (.inr ⟨more, rfl⟩)
  last := fun c final =>
    have mem := List.mem_of_getLast? final
    each c mem rest stops (last.imp_right fun steady => steady c mem) (.inl rfl)

end Parts

theorem Steady.parts {parts : List Condition} (steady : ∀ p ∈ allLeaves parts, Text.isClosed p.lastOperand = true) :
    ∀ part ∈ parts, Steady part := fun part mem p leaf => steady p (mem_allLeaves.2 ⟨part, mem, leaf⟩)

theorem readsBack_leaf {p : Predicate} (written : p.Legible) : ReadsBack (.leaf p) := by
  obtain ⟨field, words, shape⟩ := exists_shape written
  have closed (steady : (Condition.leaf p).Steady) : Text.isClosed p.lastOperand = true :=
    steady p (by simp [Condition.leaves])
  have block : IsPhrase (Condition.leaf p).text := by
    rw [text]
    exact shape.isPhrase
  refine .of_unary block (fun steady => ?_) fun depth rest enough stops steady => ?_
  · rw [text, shape.isClosed_text]
    exact closed steady
  · have filled := List.length_pos_of_ne_nil block.ne_nil
    obtain ⟨depth, rfl⟩ : ∃ d, depth = d + 1 := ⟨depth - 1, by omega⟩
    rw [text]
    exact unary_leaf written stops (steady.imp_right closed) depth

theorem readsBack_not {part : Condition} (back : ReadsBack part) (group : part.isLeaf = false → IsEnclosable part.text) :
    ReadsBack (.not part) := by
  have below (steady : (Condition.not part).Steady) : part.Steady := by
    rw [Steady, Condition.leaves] at steady
    exact steady
  have phrase : IsPhrase (bracket (!part.isLeaf) part.text) :=
    back.block.bracket fun brackets => (group (by simpa using brackets)).closed
  have whole : (Condition.not part).text = "NOT".toList ++ ' ' :: bracket (!part.isLeaf) part.text := by
    rw [text]
    rfl
  refine .of_unary ?_ (fun steady => ?_) fun depth rest enough stops steady => ?_
  · rw [text]
    exact phrase.negated
  · have word : Text.Plain "NOT ".toList := by decide
    rw [text, Text.isClosed_append_left word.isClosed word.apart_left]
    exact back.block.isClosed_bracket (back.closed (below steady)) _
  · rw [whole] at enough ⊢
    have word : keyword "not" ("NOT".toList ++ ' ' :: (bracket (!part.isLeaf) part.text ++ rest)) =
        .ok (some ((), ' ' :: (bracket (!part.isLeaf) part.text ++ rest))) := keyword_of_isKeyword ⟨rfl, rfl⟩
    have gap : gaps (' ' :: (bracket (!part.isLeaf) part.text ++ rest)) =
        .ok (some ((), bracket (!part.isLeaf) part.text ++ rest)) := gaps_append gap_space (phrase.append_not_isGap rest)
    rw [List.length_append, List.length_cons] at enough
    obtain ⟨depth, rfl⟩ : ∃ d, depth = d + 1 := ⟨depth - 1, by omega⟩
    have short : (bracket (!part.isLeaf) part.text).length ≤ depth := by omega
    have covered := back.covered group short stops (steady.imp_right below)
    rw [List.append_assoc]
    exact orElse_of_ok ((bind_of_ok word).trans ((bind_of_ok gap).trans (bind_of_ok covered)))

theorem readsBack_and {parts : List Condition} (back : ∀ part ∈ parts, ReadsBack part)
    (early : ∀ part ∈ parts.dropLast, Steady part) (groups : ∀ t ∈ partsEnclosed true parts, IsEnclosable t)
    (several : 2 ≤ parts.length) (flat : ∀ part ∈ parts, part.isAnd = false) : ReadsBack (.and parts) := by
  have below (steady : (Condition.and parts).Steady) : ∀ part ∈ parts, Steady part := by
    rw [Steady, Condition.leaves] at steady
    exact Steady.parts steady
  refine .of_conjunction ?_ (fun steady => ?_) (fun root => nomatch root) fun depth rest enough ends steady => ?_
  · rw [text]
    exact isPhrase_parts back early groups several
  · rw [text]
    exact isClosed_parts back several (below steady)
  · rw [text] at enough ⊢
    refine junction_several true .and several ends
      (readsParts back early groups ends.stops (steady.imp_right below) fun part mem after stops steady _ => ?_)
    refine (back part mem).part (flat part mem) (fun or => ?_) (Nat.le_trans (length_partText_le mem) enough) stops steady
    exact groups _ (mem_partsEnclosed.2 ⟨part, mem, .inl ⟨by simpa using or, rfl⟩⟩)

theorem readsBack_or {parts : List Condition} (back : ∀ part ∈ parts, ReadsBack part)
    (early : ∀ part ∈ parts.dropLast, Steady part) (groups : ∀ t ∈ partsEnclosed false parts, IsEnclosable t)
    (several : 2 ≤ parts.length) (flat : ∀ part ∈ parts, part.isOr = false) : ReadsBack (.or parts) := by
  have below (steady : (Condition.or parts).Steady) : ∀ part ∈ parts, Steady part := by
    rw [Steady, Condition.leaves] at steady
    exact Steady.parts steady
  refine ⟨?_, fun steady => ?_, fun _ root => (nomatch root), fun root => (nomatch root), fun depth enough => ?_⟩
  · rw [text]
    exact isPhrase_parts back early groups several
  · rw [text]
    exact isClosed_parts back several (below steady)
  · rw [text] at enough ⊢
    have reads : ReadsParts false (conjunction (unary depth)) parts [] := by
      refine readsParts back early groups .nil (.inl rfl) fun part mem after _ steady follows => ?_
      have short : (partText false part).length ≤ depth := Nat.le_trans (length_partText_le mem) enough
      have ends : Ends true after := by
        rcases follows with rfl | ⟨more, rfl⟩
        · exact .inl rfl
        · exact .inr ⟨rfl, more, rfl⟩
      unfold partText at short ⊢
      rw [Bool.false_and, bracket_false] at short ⊢
      exact (back part mem).underOr (flat part mem) depth after short ends steady
    have read := junction_several false .or several (.inl rfl) reads
    rw [List.append_nil] at read
    exact read

/-- **A legible condition is read back from its text.** -/
theorem readsBack_of_legible {c : Condition} (canonical : Canonical c) (legible : IsLegible c) : ReadsBack c := by
  induction canonical with
  | leaf p => exact readsBack_leaf (legible.leaves p (by simp [Condition.leaves]))
  | @not part inner ih =>
    obtain ⟨leaves, steady, groups⟩ := legible
    rw [Condition.leaves] at leaves steady
    exact readsBack_not (ih ⟨leaves, steady, fun t mem => groups t (mem_enclosed_not.2 (.inr mem))⟩) fun root =>
      groups _ (mem_enclosed_not.2 (.inl ⟨root, rfl⟩))
  | @and parts several each flat ih =>
    obtain ⟨leaves, steady, groups⟩ := legible
    rw [Condition.leaves] at leaves steady
    rw [enclosed] at groups
    obtain ⟨legible, early⟩ := isLegible_parts (fun part mem => (each part mem).leaves_ne_nil) leaves steady groups
    exact readsBack_and (fun part mem => ih part mem (legible part mem)) early groups several flat
  | @or parts several each flat ih =>
    obtain ⟨leaves, steady, groups⟩ := legible
    rw [Condition.leaves] at leaves steady
    rw [enclosed] at groups
    obtain ⟨legible, early⟩ := isLegible_parts (fun part mem => (each part mem).leaves_ne_nil) leaves steady groups
    exact readsBack_or (fun part mem => ih part mem (legible part mem)) early groups several flat

theorem ReadsBack.parse {c : Condition} (back : ReadsBack c) : Condition.parse c.text = .ok (some c) := by
  have filled : (Text.trim c.text).isEmpty = false := by
    rw [back.block.trimmed]
    exact List.isEmpty_eq_false_iff.2 back.block.ne_nil
  have read := back.whole c.text.length (Nat.le_refl _)
  simp only [Condition.parse]
  rw [filled, back.block.trimmed, read]
  rfl

/-! ## Printable trees -/

theorem isLegible_of_groups {c : Condition} (printable : ∀ p ∈ c.leaves, p.Printable)
    (groups : ∀ t ∈ c.enclosed, IsEnclosable t) : IsLegible c where
  leaves := fun p mem => (printable p mem).legible
  steady := fun p mem => (printable p (List.dropLast_subset _ mem)).isClosed_lastOperand
  groups := groups

/-- What the printer puts in parentheses in the parts of an `AND` or an `OR` can stand there, and the parts are no query. -/
theorem isEnclosable_parts (underAnd : Bool) {parts : List Condition} (several : 2 ≤ parts.length)
    (each : ∀ part ∈ parts, (∀ t ∈ part.enclosed, IsEnclosable t) ∧ IsEnclosable part.text) :
    (∀ t ∈ partsEnclosed underAnd parts, IsEnclosable t) ∧ startsWith "select" (partsText underAnd parts) = false := by
  constructor
  · intro t mem
    obtain ⟨part, listed, ⟨_, rfl⟩ | inner⟩ := mem_partsEnclosed.1 mem
    · exact (each part listed).2
    · exact (each part listed).1 t inner
  · match parts, several with
    | part :: _ :: _, _ => exact not_query_partsText (each part List.mem_cons_self).2.list

/-- A condition of printable predicates can be put in parentheses, and so can all that its text has in parentheses. -/
theorem isEnclosable_of_printable {c : Condition} (canonical : Canonical c) (printable : ∀ p ∈ c.leaves, p.Printable) :
    (∀ t ∈ c.enclosed, IsEnclosable t) ∧ IsEnclosable c.text := by
  have whole {c : Condition} (canonical : Canonical c) (printable : ∀ p ∈ c.leaves, p.Printable)
      (groups : ∀ t ∈ c.enclosed, IsEnclosable t) (list : startsWith "select" c.text = false) :
      (∀ t ∈ c.enclosed, IsEnclosable t) ∧ IsEnclosable c.text := by
    have back := readsBack_of_legible canonical (isLegible_of_groups printable groups)
    exact ⟨groups, back.closed fun p mem => (printable p mem).isClosed_lastOperand, list⟩
  induction canonical with
  | leaf p =>
    refine whole (.leaf p) printable (by simp [enclosed]) ?_
    rw [text]
    exact startsWith_of_printable (printable p (by simp [leaves])) (by decide)
  | @not part inner ih =>
    have below : ∀ p ∈ part.leaves, p.Printable := by rwa [leaves] at printable
    obtain ⟨groups, group⟩ := ih below
    refine whole (.not inner) printable (fun t mem => ?_) ?_
    · obtain ⟨_, rfl⟩ | mem := mem_enclosed_not.1 mem
      · exact group
      · exact groups t mem
    · rw [text, startsWith, keyword_of_differs rfl]
  | and several each flat ih =>
    have below := printable
    rw [leaves] at below
    obtain ⟨groups, list⟩ := isEnclosable_parts true several fun part mem =>
      ih part mem fun p leaf => below p (mem_allLeaves.2 ⟨part, mem, leaf⟩)
    exact whole (.and several each flat) printable (by rwa [enclosed]) (by rwa [text])
  | or several each flat ih =>
    have below := printable
    rw [leaves] at below
    obtain ⟨groups, list⟩ := isEnclosable_parts false several fun part mem =>
      ih part mem fun p leaf => below p (mem_allLeaves.2 ⟨part, mem, leaf⟩)
    exact whole (.or several each flat) printable (by rwa [enclosed]) (by rwa [text])

theorem readsBack {c : Condition} (canonical : Canonical c) (printable : ∀ p ∈ c.leaves, p.Printable) : ReadsBack c :=
  readsBack_of_legible canonical (isLegible_of_groups printable (isEnclosable_of_printable canonical printable).1)

/-- **Printing and then reading a condition gives the condition back.** -/
theorem parse_text {c : Condition} (canonical : Canonical c) (printable : ∀ p ∈ c.leaves, p.Printable) :
    parse c.text = .ok (some c) :=
  (readsBack canonical printable).parse

/-- A condition with every kind of predicate, and with parentheses, commas, quotes and connectives in its values. -/
theorem parse_text_mixed :
    let c : Condition := .and [
      .or [.leaf (.comparison "u.age".toList .ge "(18 AND 1)".toList),
        .and [.leaf (.isNull "select_id".toList true), .leaf (.like "note".toList false "it's 5% OR".toList true)]],
      .not (.not (.leaf (.between "t".toList true "'a AND b'".toList "x + 1".toList))),
      .not (.leaf (.inList "k".toList false ["'a, b'".toList, "f(1, ')')".toList])),
      .leaf (.inQuery "id".toList true "SELECT id FROM t WHERE (n = 1)".toList)]
    c.Canonical ∧ (∀ p ∈ c.leaves, p.Printable) ∧
      c.text = ("(u.age >= (18 AND 1) OR select_id IS NOT NULL AND note ILIKE 'it''s 5% OR') AND " ++
        "NOT (NOT t NOT BETWEEN 'a AND b' AND x + 1) AND NOT k IN ('a, b', f(1, ')')) AND " ++
        "id NOT IN (SELECT id FROM t WHERE (n = 1))").toList ∧
      parse c.text = .ok (some c) := by
  intro c
  have canonical : c.Canonical := by
    refine .and (by decide) ?_ (by decide)
    simp only [List.forall_mem_cons, List.not_mem_nil, false_imp_iff, implies_true, and_true]
    refine ⟨.or (by decide) ?_ (by decide), .not (.not (.leaf _)), .not (.leaf _), .leaf _⟩
    simp only [List.forall_mem_cons, List.not_mem_nil, false_imp_iff, implies_true, and_true]
    refine ⟨.leaf _, .and (by decide) ?_ (by decide)⟩
    simp only [List.forall_mem_cons, List.not_mem_nil, false_imp_iff, implies_true, and_true]
    exact ⟨.leaf _, .leaf _⟩
  have printable : ∀ p ∈ c.leaves, p.Printable := by
    have written : ∀ x ∈ ["(18 AND 1)".toList, "'a AND b'".toList, "x + 1".toList], IsWritten x := by
      simp only [List.forall_mem_cons, List.not_mem_nil, false_imp_iff, implies_true, and_true]
      exact ⟨⟨by decide +kernel, by decide, by decide⟩, ⟨by decide +kernel, by decide, by decide⟩,
        ⟨by decide +kernel, by decide, by decide⟩⟩
    have values : ∀ v ∈ ["'a, b'".toList, "f(1, ')')".toList], IsListValue v := by
      simp only [List.forall_mem_cons, List.not_mem_nil, false_imp_iff, implies_true, and_true]
      exact ⟨⟨⟨by decide, by decide, by decide, by decide⟩, by decide, by decide⟩,
        ⟨⟨by decide, by decide, by decide, by decide⟩, by decide, by decide⟩⟩
    have query : IsQuery "SELECT id FROM t WHERE (n = 1)".toList :=
      ⟨by decide, by decide, by decide⟩
    have named (name : String) (named : isName name.toList = true) (free : isHeadWord name.toList = false) :
        IsField name.toList := .plain named free
    have leaves : c.leaves = [.comparison "u.age".toList .ge "(18 AND 1)".toList, .isNull "select_id".toList true,
        .like "note".toList false "it's 5% OR".toList true, .between "t".toList true "'a AND b'".toList "x + 1".toList,
        .inList "k".toList false ["'a, b'".toList, "f(1, ')')".toList],
        .inQuery "id".toList true "SELECT id FROM t WHERE (n = 1)".toList] := rfl
    rw [leaves]
    simp only [List.forall_mem_cons, List.not_mem_nil, false_imp_iff, implies_true, and_true]
    have qualified : IsField ("u".toList ++ '.' :: "age".toList) :=
      .qualified (by decide) (by decide) (by decide)
    exact ⟨⟨qualified, written _ (by simp)⟩, named "select_id" (by decide) (by decide),
      ⟨named "note" (by decide) (by decide), by decide⟩,
      ⟨named "t" (by decide) (by decide), written _ (by simp), written _ (by simp)⟩,
      ⟨named "k" (by decide) (by decide), values⟩, ⟨named "id" (by decide) (by decide), query⟩⟩
  exact ⟨canonical, printable, by decide +kernel, parse_text canonical printable⟩

/-- A list value and a query that end outside their literals and parentheses, but with a stray closing parenthesis. The
parentheses around them are closed by it, and the rest is raw text. -/
theorem parse_text_stray :
    let list : Condition := .leaf (.inList "f".toList false ["a)".toList])
    let query : Condition := .leaf (.inQuery "f".toList false "SELECT 1) x".toList)
    (IsField "f".toList ∧ Text.IsItem "a)".toList ∧ containsSelect "a)".toList = false) ∧
      (Text.trim "SELECT 1) x".toList = "SELECT 1) x".toList ∧ Text.isClosed "SELECT 1) x".toList = true ∧
        containsSelect "SELECT 1) x".toList = true) ∧
      (list.Canonical ∧ list.text = "f IN (a))".toList ∧
        parse list.text = .ok (some (.and [.leaf (.inList "f".toList false ["a".toList]), .leaf (.raw ")".toList)])) ∧
        parse list.text ≠ .ok (some list)) ∧
      query.Canonical ∧ query.text = "f IN (SELECT 1) x)".toList ∧
        parse query.text = .ok (some (.and [.leaf (.raw "f IN (SELECT 1) x".toList), .leaf (.raw ")".toList)])) ∧
        parse query.text ≠ .ok (some query) := by
  intro list query
  refine ⟨⟨.plain (by decide) (by decide), ⟨by decide, by decide, by decide, by decide⟩, by decide⟩,
    ⟨by decide, by decide, by decide⟩, ⟨.leaf _, by decide +kernel⟩, .leaf _, by decide +kernel⟩

end Condition
end QueryCode
