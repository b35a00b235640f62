import QueryCode.Proofs.Condition.Weight

/-!
# Conditions that are read from their own text

A condition that was read prints a text, and the text is read as the condition again, flattened, exactly where two things
hold: each predicate has a field that is read from its bare name and a pattern that is quoted by doubling its quotes, and
what the printer puts in parentheses ends outside its literals and is no query. That this is enough follows from the
reading of legible conditions. That it is needed follows from the weight of the text: it is read with nothing to spare,
so the predicates are spelled there as the printer writes them.
-/

namespace QueryCode
set_option autoImplicit false

namespace Condition

open Reader
open Text (Blank isClosed isBalanced)

/-! ## The first word of a predicate -/

theorem identifier_bare {t name rest : Text} (found : identifier? t = some (name, rest)) (bare : t.head? ≠ some '\x60') :
    t = name ++ rest ∧ isName name = true ∧ rest.head?.any Text.isNameChar = false := by
  unfold identifier? at found
  split at found
  · exact absurd rfl bare
  · rename_i c tail _
    split at found
    · rename_i start
      cases found
      refine ⟨?_, ?_, ?_⟩
      · rw [List.cons_append, List.takeWhile_append_dropWhile]
      · rw [isName, start, Bool.true_and, List.all_eq_true]
        exact fun _ mem => List.mem_takeWhile_imp mem
      · exact head_dropWhile Text.isNameChar tail
    · cases found
  · cases found

/-- A field without a backtick in front starts with its whole first word. -/
theorem fieldRef_bare {t field rest : Text} (found : fieldRef? t = some (field, rest)) (bare : t.head? ≠ some '\x60') :
    ∃ head more tail, t = head ++ more ∧ isName head = true ∧ more.head?.any Text.isNameChar = false ∧
      field = head ++ tail ∧ tail.head?.any Text.isNameChar = false := by
  unfold fieldRef? at found
  split at found
  · cases found
  · rename_i head after read
    obtain ⟨split', named, ends⟩ := identifier_bare read bare
    split at found
    · rename_i column last _
      cases found
      exact ⟨head, _, '.' :: column, split', named, ends, rfl, rfl⟩
    · cases found
      exact ⟨_, _, [], split', named, ends, by simp, rfl⟩
  · rename_i head after _ read
    cases found
    obtain ⟨split', named, ends⟩ := identifier_bare read bare
    exact ⟨_, _, [], split', named, ends, by simp, rfl⟩

/-- A text that starts with a name starts with a keyword only if the name is the keyword. -/
theorem startsWith_name_iff {kw : String} {head more : Text} (bare : isBare kw.toList = true)
    (lower : Text.isLowerWord kw.toList = true) (named : isName head = true)
    (ends : more.head?.any Text.isNameChar = false) : startsWith kw (head ++ more) = true ↔ Text.lower head = kw.toList := by
  rw [startsWith_iff bare]
  constructor
  · rintro ⟨slice, after, split, spelled⟩
    exact eq_of_isKeyword lower (chars_of_isName named) ends split spelled
  · exact fun letters => ⟨head, more, rfl, letters, ends⟩

section Tight

variable {slice after : Text} {p : Predicate} (tight : IsTight slice after p)
include tight

/-- The text of such a predicate and the text it was read from start with the same word. -/
theorem IsTight.exists_head : ∃ head field more more', p.field? = some field ∧ BareField head field ∧
    slice ++ after = head ++ more ∧ more.head?.any Text.isNameChar = false ∧
    p.text = head ++ more' ∧ more'.head?.any Text.isNameChar = false := by
  obtain ⟨head, field, tested, named, rest, rfl⟩ := tight.bare
  obtain ⟨field', _, found, tested', _⟩ := predicate_parts tight.read
  obtain rfl : field' = field := Option.some.inj (tested'.symm.trans tested)
  obtain ⟨c, start, whole, letter⟩ := named.exists_start (rest ++ after)
  rw [List.append_assoc] at found ⊢
  have noTick : (field' ++ (rest ++ after)).head? ≠ some '\x60' := by
    rw [whole]
    rintro ⟨⟩
    cases letter
  obtain ⟨head', more, tail, split, named', ends, split', ends'⟩ := fieldRef_bare found noTick
  have edge : ([] : Text).head?.any Text.isNameChar = false := rfl
  obtain ⟨tail', split'', ends''⟩ := named.split edge
  rw [List.append_nil, split'] at split''
  obtain ⟨rfl, _⟩ := Text.eq_of_runs split'' (chars_of_isName named') ends' (chars_of_isName named.head_named) ends''
  obtain ⟨words, _, text⟩ := exists_words tested
  have gap : (' ' :: words ++ ending p).head?.any Text.isNameChar = false := rfl
  obtain ⟨more', printed, spaced⟩ := named.split gap
  exact ⟨head', field', more, more', tested, named, split, ends, text.trans printed, spaced⟩

/-- The field is no `NOT`, or the predicate would not have been read. -/
theorem IsTight.restated : p.Restated := by
  obtain ⟨head, field, more, _, tested, named, whole, ends, _, _⟩ := tight.exists_head
  refine ⟨⟨field, tested, head, named, fun letters => ?_⟩, tight.quoted⟩
  have first := tight.first
  rw [whole, (startsWith_name_iff (by decide) (by decide) named.head_named ends).2 letters] at first
  cases first

theorem IsTight.startsWith_text (query : startsWith "select" p.text = true) : startsWith "select" (slice ++ after) = true := by
  obtain ⟨head, field, more, more', _, named, whole, ends, text, ends'⟩ := tight.exists_head
  rw [text, startsWith_name_iff (by decide) (by decide) named.head_named ends'] at query
  rw [whole]
  exact (startsWith_name_iff (by decide) (by decide) named.head_named ends).2 query

end Tight

/-! ## Parentheses without queries -/

/-- The text of what a phrase stands for. -/
def Phrase.text : Phrase → Text
  | .unary c => c.text
  | .junction _ c => c.text
  | .parts k cs => partsText k.underAnd cs

/-- What stands in parentheses in that text. -/
def Phrase.enclosed : Phrase → List Text
  | .unary c => c.enclosed
  | .junction _ c => c.enclosed
  | .parts k cs => partsEnclosed k.underAnd cs

/-- Where the text of a phrase starts like a query, so does the text it was read from, and nothing that is printed in
parentheses, or could be, starts like one. -/
structure Listed (phrase : Phrase) (slice after : Text) : Prop where
  starts : startsWith "select" phrase.text = true → startsWith "select" (slice ++ after) = true
  groups : ∀ t ∈ phrase.enclosed, startsWith "select" t = false
  inside : ∀ c, phrase = .unary c → c.isLeaf = false → startsWith "select" c.text = false

theorem startsWith_trimStart {kw : String} {gap t : Text} (bare : isBare kw.toList = true)
    (lower : Text.isLowerWord kw.toList = true) (blank : Gap gap) (starts : startsWith kw t = true) :
    startsWith kw (Text.trimStart (gap ++ t)) = true := by
  obtain ⟨slice, after, rfl, spelled⟩ := (startsWith_iff bare).1 starts
  obtain ⟨c, more, rfl⟩ := List.exists_cons_of_ne_nil (ne_nil_of_lower lower spelled.letters)
  have solid := not_isBlank_of_isNameChar (isNameChar_of_lower lower spelled.letters c List.mem_cons_self)
  rw [Text.trimStart_append fun d mem => isBlank_of_isGap (blank d mem), Text.trimStart, List.cons_append,
    List.dropWhile_cons_of_neg (by simp [solid])]
  exact starts

/-- A part of an `AND` or an `OR` in front of others. -/
theorem Listed.cons {k : Connective} {c : Condition} {cs : List Condition} {slice after : Text}
    (part : Listed (Phrase.part k c) slice after) (more : ∀ t ∈ partsEnclosed k.underAnd cs, startsWith "select" t = false) :
    (startsWith "select" (partsText k.underAnd (c :: cs)) = true → startsWith "select" (slice ++ after) = true) ∧
      ∀ t ∈ partsEnclosed k.underAnd (c :: cs), startsWith "select" t = false := by
  have starts : startsWith "select" c.text = true → startsWith "select" (slice ++ after) = true := by
    cases k <;> exact part.starts
  have groups : ∀ t ∈ c.enclosed, startsWith "select" t = false := by cases k <;> exact part.groups
  have inside (group : (k.underAnd && c.isOr) = true) : startsWith "select" c.text = false := by
    cases k with
    | and =>
      refine part.inside c rfl ?_
      cases c <;> first | rfl | cases group
    | or => cases group
  constructor
  · refine fun query => starts (by_contra fun absent => ?_)
    rw [not_query_partsText (by simpa using absent)] at query
    cases query
  · rw [partsEnclosed]
    refine List.forall_mem_append.2 ⟨List.forall_mem_append.2 ⟨?_, groups⟩, more⟩
    split
    · exact List.forall_mem_singleton.2 (inside ‹_›)
    · exact fun _ mem => absurd mem List.not_mem_nil

theorem Derived.listed {phrase : Phrase} {slice after : Text} (derived : Derived IsTight phrase slice after) :
    Listed phrase slice after := by
  induction derived with
  | leaf tight =>
    refine ⟨?_, by simp [Phrase.enclosed, enclosed], ?_⟩
    · rw [Phrase.text, text]
      exact tight.startsWith_text
    · rintro _ ⟨⟩ other
      cases other
  | @group g slice g' after c _ list gap _ _ ih =>
    have absent : startsWith "select" c.text = false := by
      by_contra query
      have inner := startsWith_trimStart (by decide) (by decide) gap (ih.starts (Bool.not_eq_false _ ▸ query))
      rw [← List.append_assoc, list] at inner
      cases inner
    refine ⟨fun query => ?_, ih.groups, ?_⟩
    · rw [Phrase.text, absent] at query
      cases query
    · rintro _ ⟨⟩ _
      exact absent
  | @not word g slice after c _ _ _ ih =>
    have absent : startsWith "select" (Condition.not c).text = false := by
      rw [text, startsWith, keyword_of_differs rfl]
    refine ⟨fun query => ?_, fun t mem => ?_, ?_⟩
    · rw [Phrase.text, absent] at query
      cases query
    · obtain ⟨other, rfl⟩ | inner := mem_enclosed_not.1 mem
      · exact ih.inside c rfl other
      · exact ih.groups t inner
    · rintro _ ⟨⟩ _
      exact absent
  | @alone k _ _ _ _ ih =>
    refine ⟨?_, ?_, by rintro _ ⟨⟩⟩
    · cases k <;> exact ih.starts
    · cases k <;> exact ih.groups
  | several _ ih =>
    refine ⟨?_, ?_, by rintro _ ⟨⟩⟩
    · rw [Phrase.text, text_wrap]
      exact ih.starts
    · rw [Phrase.enclosed, enclosed_wrap]
      exact ih.groups
  | @last k _ _ _ _ ih =>
    have absent : ∀ t ∈ partsEnclosed k.underAnd [], startsWith "select" t = false := by simp [partsEnclosed]
    obtain ⟨starts, groups⟩ := ih.cons absent
    exact ⟨starts, groups, by rintro _ ⟨⟩⟩
  | more _ _ _ ih ihRest =>
    obtain ⟨starts, groups⟩ := ih.cons ihRest.groups
    refine ⟨?_, groups, by rintro _ ⟨⟩⟩
    rw [← List.append_assoc, ← List.append_assoc] at starts
    exact starts

/-! ## Parentheses that close -/

theorem isBalanced_bracket (brackets : Bool) {t : Text} (balanced : isBalanced t = true) :
    isBalanced (bracket brackets t) = true := by
  cases brackets with
  | true =>
    rw [bracket_true]
    exact Text.isBalanced_parens balanced
  | false =>
    rw [bracket_false]
    exact balanced

theorem isBalanced_partsText (underAnd : Bool) {parts : List Condition} (each : ∀ part ∈ parts, isBalanced part.text = true) :
    isBalanced (partsText underAnd parts) = true := by
  induction parts with
  | nil => rfl
  | cons part more ih =>
    rw [List.forall_mem_cons] at each
    have first := isBalanced_bracket (underAnd && part.isOr) each.1
    cases more with
    | nil =>
      rw [partsText_single]
      exact first
    | cons next more =>
      have word := plain_joiner underAnd
      rw [partsText_cons]
      exact Text.isBalanced_append first (Text.isBalanced_append word.isBalanced (ih each.2) word.apart_left)
        ((Stops.joined underAnd _).apart _)

/-- With balanced predicates the text of a condition is balanced, and so is all that it has in parentheses. -/
theorem Formed.isBalanced_text {c : Condition} (formed : Formed c) (each : ∀ p ∈ c.leaves, isBalanced p.text = true) :
    isBalanced c.text = true ∧ ∀ t ∈ c.enclosed, isBalanced t = true := by
  induction formed with
  | leaf p =>
    rw [text, enclosed]
    exact ⟨each p (by simp [leaves]), fun _ mem => absurd mem List.not_mem_nil⟩
  | @not part _ ih =>
    rw [leaves] at each
    obtain ⟨whole, inner⟩ := ih each
    have word : Text.Plain "NOT ".toList := by decide
    refine ⟨?_, fun t mem => ?_⟩
    · rw [text]
      exact Text.isBalanced_append word.isBalanced (isBalanced_bracket _ whole) word.apart_left
    · obtain ⟨_, rfl⟩ | mem := mem_enclosed_not.1 mem
      · exact whole
      · exact inner t mem
  | wrap k _ _ ih =>
    rw [leaves_wrap] at each
    have both := fun part mem => ih part mem fun p leaf => each p (mem_allLeaves.2 ⟨part, mem, leaf⟩)
    refine ⟨?_, fun t mem => ?_⟩
    · rw [text_wrap]
      exact isBalanced_partsText _ fun part mem => (both part mem).1
    · rw [enclosed_wrap] at mem
      obtain ⟨part, listed, ⟨_, rfl⟩ | inner⟩ := mem_partsEnclosed.1 mem
      · exact (both part listed).1
      · exact (both part listed).2 t inner

/-- The text ends with the predicate's last operand and some closing parentheses. Where there are none of these, the groups
in the text end before it and are balanced. -/
def EndsWith (t : Text) (groups : List Text) (p : Predicate) : Prop :=
  ∃ k, p.lastOperand ++ List.replicate k ')' <:+ t ∧ (k = 0 → ∀ s ∈ groups, isBalanced s = true)

theorem endsWith_leaf (p : Predicate) : EndsWith p.text [] p := by
  refine ⟨0, ?_, fun _ _ mem => absurd mem List.not_mem_nil⟩
  rw [List.replicate_zero, List.append_nil]
  cases p with
  | comparison field op value => exact List.suffix_append _ _
  | between field negated low high => exact List.suffix_append _ _
  | _ => exact List.nil_suffix

theorem EndsWith.bracket {t : Text} {groups : List Text} {p : Predicate} (ends : EndsWith t groups p) (brackets : Bool) :
    EndsWith (Condition.bracket brackets t) ((if brackets then [t] else []) ++ groups) p := by
  cases brackets with
  | false =>
    rw [bracket_false]
    exact ends
  | true =>
    obtain ⟨k, ⟨front, final⟩, _⟩ := ends
    refine ⟨k + 1, ⟨'(' :: front, ?_⟩, fun empty => absurd empty (Nat.succ_ne_zero k)⟩
    rw [bracket_true, List.replicate_succ', ← final]
    simp

theorem EndsWith.prepend {t front : Text} {groups before : List Text} {p : Predicate} (ends : EndsWith t groups p)
    (balanced : ∀ s ∈ before, isBalanced s = true) : EndsWith (front ++ t) (before ++ groups) p := by
  obtain ⟨k, final, rest⟩ := ends
  exact ⟨k, final.trans (List.suffix_append _ _), fun empty => List.forall_mem_append.2 ⟨balanced, rest empty⟩⟩

/-- Every predicate but the last has a balanced text. -/
def Fronted (ps : List Predicate) : Prop := ∀ p ∈ ps.dropLast, isBalanced p.text = true

theorem endsWith_partsText (underAnd : Bool) {parts : List Condition} (formed : ∀ part ∈ parts, Formed part)
    (each : ∀ part ∈ parts, Fronted part.leaves → ∀ p ∈ part.leaves.getLast?, EndsWith part.text part.enclosed p)
    (front : Fronted (allLeaves parts)) :
    ∀ p ∈ (allLeaves parts).getLast?, EndsWith (partsText underAnd parts) (partsEnclosed underAnd parts) p := by
  induction parts with
  | nil =>
    intro p empty
    cases empty
  | cons part more ih =>
    rw [List.forall_mem_cons] at formed each
    rw [allLeaves] at front ⊢
    cases more with
    | nil =>
      rw [allLeaves, List.append_nil] at front ⊢
      intro p last
      rw [partsText_single, partText, partsEnclosed, partsEnclosed, List.append_nil]
      exact (each.1 front p last).bracket _
    | cons next more =>
      have filled : allLeaves (next :: more) ≠ [] := by
        have solid := (formed.2 next List.mem_cons_self).canonical_flatten.leaves_ne_nil
        rw [(formed.2 next List.mem_cons_self).leaves_flatten] at solid
        simp [allLeaves, solid]
      rw [Fronted, List.dropLast_append_of_ne_nil filled, List.forall_mem_append] at front
      rw [List.getLast?_append_of_ne_nil _ filled, partsText_cons, ← List.append_assoc, partsEnclosed]
      intro p last
      obtain ⟨whole, inner⟩ := formed.1.isBalanced_text front.1
      refine (ih formed.2 each.2 front.2 p last).prepend (List.forall_mem_append.2 ⟨?_, inner⟩)
      split
      · exact List.forall_mem_singleton.2 whole
      · exact fun _ mem => absurd mem List.not_mem_nil

/-- **The text of a condition ends with its last operand, up to closing parentheses.** -/
theorem Formed.endsWith {c : Condition} (formed : Formed c) (front : Fronted c.leaves) :
    ∀ p ∈ c.leaves.getLast?, EndsWith c.text c.enclosed p := by
  induction formed with
  | leaf p =>
    rw [leaves, text, enclosed]
    rintro _ ⟨⟩
    exact endsWith_leaf p
  | @not part _ ih =>
    rw [leaves] at front ⊢
    intro p last
    have group : (if part.isLeaf then [] else [part.text]) = if !part.isLeaf then [part.text] else [] := by
      cases part.isLeaf <;> rfl
    have absent : ∀ s ∈ ([] : List Text), isBalanced s = true := fun _ mem => absurd mem List.not_mem_nil
    rw [text, enclosed, group]
    exact ((ih front p last).bracket _).prepend absent
  | wrap k _ each ih =>
    rw [leaves_wrap] at front ⊢
    rw [text_wrap, enclosed_wrap]
    exact endsWith_partsText _ each ih front

/-- A text that is still at the end when a character was added there is made of the character. -/
theorem eq_replicate_of_suffix {x : Text} {c : Char} {k : Nat} (final : x <:+ x ++ List.replicate (k + 1) c) :
    x = List.replicate x.length c := by
  induction x using List.reverseRecOn with
  | nil => rfl
  | append_singleton x d ih =>
    obtain ⟨front, whole⟩ := final
    rw [List.replicate_succ', ← List.append_assoc, ← List.append_assoc] at whole
    obtain ⟨rest, last⟩ := List.append_inj' whole rfl
    obtain rfl : d = c := List.singleton_inj.1 last
    have again : x <:+ x ++ List.replicate (k + 1) d := ⟨front, by rw [rest, List.append_assoc, List.replicate_succ]; rfl⟩
    rw [List.length_append, List.length_singleton, List.replicate_succ', ← ih again]

theorem isClosed_replicate (n : Nat) : isClosed (List.replicate n ')') = true := by
  rw [Text.isClosed_iff]
  induction n with
  | zero => rfl
  | succ n ih =>
    rw [List.replicate_succ, Text.Walk.run]
    exact ih

theorem blank_eq_nil {t trail : Text} (blank : Blank trail) (last : (t ++ trail).getLast?.any Text.isBlank = false) :
    trail = [] := by
  by_contra filled
  rw [List.getLast?_append_of_ne_nil _ filled, List.getLast?_eq_getLast_of_ne_nil filled, Option.any_some,
    blank _ (List.getLast_mem filled)] at last
  cases last

/-- A text that ends with an operand left open has no closing parenthesis after that operand: the operand would have to be
made of such parentheses, and would be closed. -/
theorem not_endsWith_succ {t slice trail x : Text} {k : Nat} (whole : Text.trim t = slice ++ trail) (blank : Blank trail)
    (unclosed : isClosed x = false) (final : x <:+ slice) : ¬ x ++ List.replicate (k + 1) ')' <:+ t := by
  rintro ⟨front, printed⟩
  obtain ⟨lead, rest, _, after, around⟩ := Text.exists_trim t
  have last : t.getLast?.any Text.isBlank = false := by
    rw [← printed, List.replicate_succ', ← List.append_assoc, ← List.append_assoc, List.getLast?_concat]
    decide +kernel
  obtain rfl := blank_eq_nil after (around ▸ last)
  obtain rfl := blank_eq_nil blank (whole ▸ Text.last_of_trim (Text.trim_trim t))
  rw [List.append_nil] at around whole
  have inside : x <:+ t := by
    rw [around, whole]
    exact final.trans (List.suffix_append _ _)
  have again := List.suffix_of_suffix_length_le inside ⟨front, printed⟩ (by simp)
  rw [eq_replicate_of_suffix again, isClosed_replicate] at unclosed
  cases unclosed

/-- **A condition that is read from its own text has its parentheses closed.** -/
theorem isClosed_enclosed {c : Condition} {slice trail : Text} (derived : Derived IsTest (.junction .or c) slice trail)
    (whole : Text.trim c.text = slice ++ trail) (blank : Blank trail) (legible : ∀ p ∈ c.leaves, p.Legible) :
    ∀ t ∈ c.enclosed, isClosed t = true := by
  have formed := derived.formed c List.mem_cons_self
  have settles : Settles c.leaves slice trail := derived.settles
  have balanced : ∀ p ∈ c.leaves, isClosed p.lastOperand = true → isBalanced p.text = true := by
    intro p mem closed
    obtain ⟨field, words, shape⟩ := exists_shape (legible p mem)
    exact shape.isPhrase.isBalanced (shape.isClosed_text.trans closed)
  have front : Fronted c.leaves := fun p mem => balanced p (List.dropLast_subset _ mem) (settles.front p mem)
  have groups : ∀ t ∈ c.enclosed, isBalanced t = true := by
    cases last : c.leaves.getLast? with
    | none => exact absurd (List.getLast?_eq_none_iff.1 last) derived.leaves_ne_nil
    | some p =>
      cases closed : isClosed p.lastOperand with
      | true =>
        refine (formed.isBalanced_text ?_).2
        rw [← List.dropLast_append_getLast? p last]
        exact List.forall_mem_append.2 ⟨front, List.forall_mem_singleton.2 (balanced p (List.mem_of_getLast? last) closed)⟩
      | false =>
        obtain ⟨k, final, rest⟩ := formed.endsWith front p last
        cases k with
        | zero => exact rest rfl
        | succ k => exact absurd final (not_endsWith_succ whole blank closed (settles.final p last closed))
  exact fun t mem => Text.isClosed_of_isBalanced (groups t mem)

/-! ## Reading a printed condition -/

/-- **A condition that is read from its own text** is printed with bare fields and doubled quotes, and with parentheses that
close and hold no query. -/
theorem restated_of_parse_text {c : Condition} (read : parse c.text = .ok (some c)) (known : ∀ s, .raw s ∉ c.leaves) :
    (∀ p ∈ c.leaves, p.Restated) ∧ ∀ t ∈ c.enclosed, IsEnclosable t := by
  obtain ⟨slice, trail, whole, blank, derived⟩ := parse_derived read known
  have heavy : weight slice ≤ totalWeight c.leaves := by
    have same := weight_trim c.text
    rw [whole, weight_append, weight_of_wordy (wordy_of_blank blank),
      (derived.formed c List.mem_cons_self).weight_text] at same
    omega
  have tight := derived.tight heavy
  have restated : ∀ p ∈ c.leaves, p.Restated := by
    intro p mem
    obtain ⟨s, a, leaf⟩ := tight.exists_leaf p mem
    exact leaf.restated
  have legible : ∀ p ∈ c.leaves, p.Legible := by
    intro p mem
    obtain ⟨s, a, test⟩ := derived.exists_leaf p mem
    exact (restated p mem).legible (test.isRead.taken test.known)
  exact ⟨restated, fun t mem => ⟨isClosed_enclosed derived whole blank legible t mem, tight.listed.groups t mem⟩⟩

/-- **Re-reading the text of a condition.** A condition that was read and has no raw text in it is read from its own text
again, flattened, exactly if the fields are read from their bare names, the patterns are quoted by doubling their quotes,
and what the printer puts in parentheses can stand there. -/
theorem parse_text_eq_flatten_iff {w : Text} {c : Condition} (read : parse w = .ok (some c))
    (known : ∀ s, .raw s ∉ c.leaves) : parse c.text = .ok (some c.flatten) ↔
      (∀ p ∈ c.leaves, p.Restated) ∧ ∀ t ∈ c.enclosed, IsEnclosable t := by
  obtain ⟨slice, trail, _, _, derived⟩ := parse_derived read known
  have formed := derived.formed c List.mem_cons_self
  rw [← formed.leaves_flatten, ← formed.enclosed_flatten, ← formed.text_flatten]
  constructor
  · intro again
    refine restated_of_parse_text again ?_
    rwa [formed.leaves_flatten]
  · rintro ⟨restated, groups⟩
    refine (readsBack_of_legible formed.canonical_flatten ⟨fun p mem => ?_, ?_, groups⟩).parse
    · have mem' := mem
      rw [formed.leaves_flatten] at mem'
      obtain ⟨s, a, test⟩ := derived.exists_leaf p mem'
      exact (restated p mem).legible (test.isRead.taken test.known)
    · rw [formed.leaves_flatten]
      exact derived.settles.front

/-- A nested `AND`, a pattern in double quotes and an operand that is never closed come back. A quote behind a backslash
does not: the printer doubles it, and the text is no predicate any more. -/
theorem parse_text_eq_flatten_iff_escaped :
    let w := "(a = 1 AND (\x60b\x60 <> 2 OR NOT (d LIKE \"it's\"))) AND e = f('".toList
    let c : Condition := .and [
      .and [.leaf (.comparison "a".toList .eq "1".toList),
        .or [.leaf (.comparison "b".toList .ne "2".toList), .not (.leaf (.like "d".toList false "it's".toList false))]],
      .leaf (.comparison "e".toList .eq "f('".toList)]
    let w' := "a LIKE 'it\\'s'".toList
    let c' : Condition := .leaf (.like "a".toList false "it\\'s".toList false)
    (parse w = .ok (some c) ∧ (∀ s, .raw s ∉ c.leaves) ∧ parse c.text = .ok (some c.flatten)) ∧
      parse w' = .ok (some c') ∧ (∀ s, .raw s ∉ c'.leaves) ∧ parse c'.text ≠ .ok (some c'.flatten) := by
  intro w c w' c'
  have read : parse w = .ok (some c) := by decide +kernel
  have read' : parse w' = .ok (some c') := by decide +kernel
  have leaves : c.leaves = [.comparison "a".toList .eq "1".toList, .comparison "b".toList .ne "2".toList,
      .like "d".toList false "it's".toList false, .comparison "e".toList .eq "f('".toList] := rfl
  have known : ∀ s, .raw s ∉ c.leaves := by simp [leaves]
  have known' : ∀ s, .raw s ∉ c'.leaves := by simp [c', Condition.leaves]
  have bare (name : String) (named : isName name.toList = true) (free : Text.lower name.toList ≠ "not".toList) :
      IsBareField name.toList := ⟨_, .plain named, free⟩
  refine ⟨⟨read, known, (parse_text_eq_flatten_iff read known).2 ⟨?_, ?_⟩⟩, read', known', fun again => ?_⟩
  · rw [leaves]
    simp only [List.forall_mem_cons, List.not_mem_nil, false_imp_iff, implies_true, and_true]
    refine ⟨⟨⟨_, rfl, bare "a" (by decide) (by decide)⟩, by simp [Predicate.pattern?]⟩,
      ⟨⟨_, rfl, bare "b" (by decide) (by decide)⟩, by simp [Predicate.pattern?]⟩,
      ⟨⟨_, rfl, bare "d" (by decide) (by decide)⟩, ?_⟩,
      ⟨⟨_, rfl, bare "e" (by decide) (by decide)⟩, by simp [Predicate.pattern?]⟩⟩
    rintro _ ⟨⟩
    exact quoted_doubleQuotes (by decide)
  · have enclosed : c.enclosed = ["b != 2 OR NOT d LIKE 'it''s'".toList] := by decide +kernel
    rw [enclosed, List.forall_mem_singleton]
    exact ⟨by decide, by decide⟩
  · have restated := ((parse_text_eq_flatten_iff read' known').1 again).1 _ List.mem_cons_self
    have ends : ([] : Text).head? ≠ some '\'' := by decide
    exact absurd (literalTail_append (restated.quoted _ rfl) (by decide) ends) (by decide)

end Condition
end QueryCode
