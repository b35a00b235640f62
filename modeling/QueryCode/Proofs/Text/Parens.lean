import QueryCode.Proofs.Condition.Printed

/-!
# Exact parentheses

Text in which every literal is closed and every parenthesis outside them has its partner is given by a grammar. The walk of
the mask accepts the same texts, so the parenthesis that shows first behind an opening one is its partner, and where none
shows there is no partner: `parenBody_exact`.
-/

namespace QueryCode
set_option autoImplicit false

namespace Text

open Condition (Quoted literalTail? isBalanced_literal ne_slash_of_isQuote)

/-- Text whose literals are closed and whose parentheses match. A literal ends at the first quote of its kind that is not
doubled, so no further one follows it. -/
inductive Balanced : Text → Prop where
  | nil : Balanced []
  | char {c : Char} {t : Text} (plain : isMark c = false) (rest : Balanced t) : Balanced (c :: t)
  | literal {q : Char} {body t : Text} (quote : isQuote q = true) (inside : Quoted q body) (single : t.head? ≠ some q)
      (rest : Balanced t) : Balanced (q :: body ++ q :: t)
  | group {body t : Text} (inner : Balanced body) (rest : Balanced t) : Balanced ('(' :: body ++ ')' :: t)

theorem apart_of_single {u v : Text} {q : Char} (single : v.head? ≠ some q) : Apart (u ++ [q]) v := by
  intro d last first
  rw [List.getLast?_concat] at last
  cases last
  exact absurd first single

/-- The walk accepts what the grammar describes. -/
theorem Balanced.isBalanced {t : Text} (balanced : Balanced t) : Text.isBalanced t = true := by
  induction balanced with
  | nil => rfl
  | @char c t plain _ ih =>
    have single : Plain [c] := plain_cons.2 ⟨plain, plain_nil⟩
    exact isBalanced_append single.isBalanced ih single.apart_left
  | @literal q body t quote inside single _ ih =>
    have whole := isBalanced_append (isBalanced_literal quote inside) ih (apart_of_single single)
    rwa [List.append_assoc] at whole
  | @group body t _ _ inner rest =>
    have whole := isBalanced_append (isBalanced_parens inner) rest (apart_of_last (by decide))
    rwa [List.append_assoc] at whole

/-- The walk does not leave a literal that has no closing quote. -/
theorem Walk.run_of_missed {q : Char} {t : Text} (quote : isQuote q = true) (missed : literalTail? q t = none) (depth : Nat) :
    (run ⟨.quoted q, depth⟩ t).mode ≠ .plain := by
  have slash := ne_slash_of_isQuote quote
  fun_induction literalTail? q t with
  | case1 => simp [run]
  | case2 => cases missed
  | case3 c open' =>
    simp only [Bool.and_eq_true, bne_iff_ne, beq_iff_eq, not_and] at open'
    by_cases escape : c = '\\'
    · simp [run, step, escape]
    · simp [run, step, escape, open' escape]
  | case4 c d inner escape ih =>
    have through : run ⟨.quoted q, depth⟩ (c :: d :: inner) = run ⟨.quoted q, depth⟩ inner := by
      simp [run, step, escape]
    rw [through]
    exact ih (Option.map_eq_none_iff.1 missed)
  | case5 c d inner plain closing doubled ih =>
    have through : run ⟨.quoted q, depth⟩ (c :: d :: inner) = run ⟨.quoted q, depth⟩ inner := by
      simp [run, step, beq_iff_eq.1 closing, beq_iff_eq.1 doubled, slash]
    rw [through]
    exact ih (Option.map_eq_none_iff.1 missed)
  | case6 => cases missed
  | case7 c d inner plain other ih =>
    have through : run ⟨.quoted q, depth⟩ (c :: d :: inner) = run ⟨.quoted q, depth⟩ (d :: inner) := by
      simp only [Bool.not_eq_true] at plain other
      simp [run, step, plain, other]
    rw [through]
    exact ih (Option.map_eq_none_iff.1 missed)

/-- Behind a literal stands no quote of its kind. -/
theorem head_of_literalTail {q : Char} {t tail rest : Text} (found : literalTail? q t = some (tail, rest)) :
    rest.head? ≠ some q := by
  fun_induction literalTail? q t generalizing tail rest with
  | case1 => cases found
  | case2 c closing =>
    cases found
    simp
  | case3 => cases found
  | case4 c d inner escape ih =>
    obtain ⟨⟨tail', rest'⟩, found', same⟩ := Option.map_eq_some_iff.1 found
    cases same
    exact ih found'
  | case5 c d inner plain closing doubled ih =>
    obtain ⟨⟨tail', rest'⟩, found', same⟩ := Option.map_eq_some_iff.1 found
    cases same
    exact ih found'
  | case6 c d inner plain closing single =>
    cases found
    simpa using single
  | case7 c d inner plain other ih =>
    obtain ⟨⟨tail', rest'⟩, found', same⟩ := Option.map_eq_some_iff.1 found
    cases same
    exact ih found'

/-- A closed text that starts with a quote starts with a literal. -/
theorem exists_literal {q : Char} {t : Text} (quote : isQuote q = true) (closed : isClosed (q :: t) = true) :
    ∃ body rest, t = body ++ q :: rest ∧ Quoted q body ∧ rest.head? ≠ some q := by
  cases found : literalTail? q t with
  | none =>
    have opened : Walk.run {} (q :: t) = Walk.run ⟨.quoted q, 0⟩ t := by simp [Walk.run, Walk.step, quote]
    rw [isClosed_iff, opened] at closed
    exact absurd (congrArg Walk.mode closed) (Walk.run_of_missed quote found 0)
  | some hit =>
    obtain ⟨tail, rest⟩ := hit
    obtain ⟨rfl, body, rfl, inside⟩ := Condition.literalTail_spelled found
    exact ⟨body, rest, by rw [List.append_assoc]; rfl, inside, head_of_literalTail found⟩

/-- A closed text that starts with a parenthesis has its partner. -/
theorem exists_group {t : Text} (closed : isClosed ('(' :: t) = true) :
    ∃ body rest, t = body ++ ')' :: rest ∧ isBalanced body = true := by
  cases found : parenBody? ('(' :: t) with
  | some hit =>
    obtain ⟨body, rest⟩ := hit
    obtain ⟨-, rfl⟩ := List.cons.inj (parenBody_append found)
    exact ⟨body, rest, rfl, isBalanced_of_parenBody found⟩
  | none =>
    -- no cell closes the parenthesis, so the walk stays inside it to the end
    have matched : Walk.matched {} t = true := by
      refine Walk.matched_of_cells fun cell mem => ?_
      have inner : (cells ('(' :: t)).tail = (Walk.deeper {}).cells t := rfl
      simp only [parenBody?, inner] at found
      split at found
      · rename_i all
        simpa using List.dropWhile_eq_nil_iff.1 all cell mem
      · cases found
    have depth : (Walk.deeper {}).run t = {} := isClosed_iff.1 closed
    rw [Walk.run_deeper matched] at depth
    exact absurd (congrArg Walk.depth depth) (Nat.succ_ne_zero _)

/-- The grammar describes what the walk accepts. -/
theorem balanced_of_isBalanced {t : Text} (balanced : isBalanced t = true) : Balanced t := by
  match t with
  | [] => exact .nil
  | c :: t =>
    have closed := isClosed_of_isBalanced balanced
    by_cases quote : isQuote c = true
    · obtain ⟨body, rest, rfl, inside, single⟩ := exists_literal quote closed
      have whole : c :: (body ++ c :: rest) = (c :: body ++ [c]) ++ rest := by simp
      rw [whole] at balanced
      have literal := isClosed_of_isBalanced (isBalanced_literal quote inside)
      have behind := (isBalanced_of_append balanced literal (apart_of_single single)).2
      exact .literal quote inside single (balanced_of_isBalanced behind)
    · by_cases opening : '(' = c
      · subst opening
        obtain ⟨body, rest, rfl, inner⟩ := exists_group closed
        have whole : '(' :: (body ++ ')' :: rest) = ('(' :: body ++ [')']) ++ rest := by simp
        rw [whole] at balanced
        have group := isClosed_of_isBalanced (isBalanced_parens inner)
        have behind := (isBalanced_of_append balanced group (apart_of_last (by decide))).2
        exact .group (balanced_of_isBalanced inner) (balanced_of_isBalanced behind)
      · have other : c ≠ ')' := by
          rintro rfl
          obtain ⟨matched, -⟩ := isBalanced_iff.1 balanced
          cases matched
        have plain : isMark c = false := by simp [isMark, quote, Ne.symm opening, other]
        have single : Plain [c] := plain_cons.2 ⟨plain, plain_nil⟩
        have behind := (isBalanced_of_append (u := [c]) balanced single.isClosed single.apart_left).2
        exact .char plain (balanced_of_isBalanced behind)
termination_by t.length

theorem balanced_iff {t : Text} : Balanced t ↔ isBalanced t = true := ⟨Balanced.isBalanced, balanced_of_isBalanced⟩

/-! ## Partners -/

/-- The text starts with a parenthesis whose partner stands behind `inner`. -/
structure Encloses (t inner rest : Text) : Prop where
  split : t = '(' :: inner ++ ')' :: rest
  balanced : Balanced inner

theorem parenBody_eq_some_iff {t inner rest : Text} : parenBody? t = some (inner, rest) ↔ Encloses t inner rest := by
  constructor
  · intro found
    have split := parenBody_append found
    rw [split] at found
    exact ⟨split, balanced_iff.2 (isBalanced_of_parenBody found)⟩
  · rintro ⟨rfl, balanced⟩
    exact parenBody_of_isBalanced (balanced_iff.1 balanced)

/-! ## Parentheses by offsets -/

/-- The inside of the parentheses at the start of a text and what follows them, cut out of the text at the offset of the
first closing parenthesis in the mask. -/
def parenSlices (t : Text) : Except Fault (Option (Text × Text)) :=
  if t.head? == some '(' then
    match findTop? ')' t with
    | none => .ok none
    | some close => do
      let inner ← slice 1 close t
      let (_, rest) ← cut (close + 1) t
      return some (inner, rest)
  else .ok none

/-- The first closing parenthesis in the mask is the one that closes the first character. -/
theorem findTop_of_parenBody {t inner rest : Text} (found : parenBody? t = some (inner, rest)) :
    findTop? ')' t = some (size ('(' :: inner)) := by
  have split := parenBody_append found
  rw [split] at found
  have unseen : ')' ∉ '(' :: List.replicate (size inner) ' ' := by
    rw [List.mem_cons, not_or]
    exact ⟨by decide, fun mem => absurd (List.eq_of_mem_replicate mem) (by decide)⟩
  rw [findTop?, split, mask_parens (isBalanced_of_parenBody found), offsetOf_append unseen, size, size, size_spaces]

theorem findTop_of_unclosed {t : Text} (opens : t.head? = some '(') (unclosed : parenBody? t = none) :
    findTop? ')' t = none := by
  obtain ⟨t, rfl⟩ := List.head?_eq_some_iff.1 opens
  rw [findTop?, offsetOf_none, mem_mask_iff (by decide)]
  rintro ⟨cell, mem, shown⟩
  have inside : cell ∈ (cells ('(' :: t)).tail := by
    rcases List.mem_cons.1 (show cell ∈ ⟨'(', false, false⟩ :: (cells ('(' :: t)).tail from mem) with rfl | mem
    · cases shown
    · exact mem
  rw [parenBody?] at unclosed
  split at unclosed
  · rename_i all
    have open' := List.dropWhile_eq_nil_iff.1 all cell inside
    rw [show closes cell = true from shown] at open'
    cases open'
  · cases unclosed

/-- **Parentheses are cut at boundaries**, and what is cut out is what they hold. -/
theorem parenSlices_eq (t : Text) : parenSlices t = .ok (parenBody? t) := by
  cases found : parenBody? t with
  | none =>
    unfold parenSlices
    split
    · rename_i opens
      rw [findTop_of_unclosed (eq_of_beq opens) found]
    · rfl
  | some pair =>
    obtain ⟨inner, rest⟩ := pair
    have close := findTop_of_parenBody found
    have split := parenBody_append found
    have body : slice 1 (size ('(' :: inner)) t = .ok inner := by
      rw [split]
      exact slice_append ['('] inner (')' :: rest)
    have behind : cut (size ('(' :: inner) + 1) t = .ok ('(' :: inner ++ [')'], rest) := by
      have whole := cut_size ('(' :: inner ++ [')']) rest
      rw [size_append, List.append_assoc] at whole
      rw [split]
      exact whole
    have opens : (t.head? == some '(') = true := by
      rw [split]
      rfl
    unfold parenSlices
    rw [if_pos opens, close]
    dsimp only
    rw [body, behind]
    rfl

/-- **Parentheses are matched exactly.** The inside of the parentheses at the start of a text is the balanced text up to
a closing parenthesis, if there is any; there is at most one, and the mask shows a space for each of its bytes. At any
place of a text the offset of the partner is that of this parenthesis, counted from the place. -/
theorem parenBody_exact :
    (∀ t inner rest, parenBody? t = some (inner, rest) ↔ Encloses t inner rest) ∧
    (∀ t inner rest inner' rest', Encloses t inner rest → Encloses t inner' rest' → inner = inner' ∧ rest = rest') ∧
    (∀ t inner rest, Encloses t inner rest →
      mask .nested t = '(' :: List.replicate (size inner) ' ' ++ ')' :: mask .nested rest) ∧
    ∀ before t,
      (∀ inner rest, Encloses t inner rest →
        matchingParen? (before ++ t) (size before) = some (size before + size ('(' :: inner))) ∧
      ((∀ inner rest, ¬ Encloses t inner rest) → matchingParen? (before ++ t) (size before) = none) := by
  refine ⟨fun t inner rest => parenBody_eq_some_iff, fun t inner rest inner' rest' first second => ?_,
    fun t inner rest encloses => ?_, fun before t => ⟨fun inner rest encloses => ?_, fun absent => ?_⟩⟩
  · have same := (parenBody_eq_some_iff.2 first).symm.trans (parenBody_eq_some_iff.2 second)
    exact Prod.mk.inj (Option.some.inj same)
  · rw [encloses.split, mask_parens (balanced_iff.1 encloses.balanced)]
  · rw [matchingParen?, cut_size]
    dsimp only
    rw [parenBody_eq_some_iff.2 encloses, Option.map_some, size, ← Nat.add_assoc]
    rfl
  · rw [matchingParen?, cut_size]
    dsimp only
    rw [Option.map_eq_none_iff, Option.eq_none_iff_forall_ne_some]
    rintro ⟨inner, rest⟩ found
    exact absent inner rest (parenBody_eq_some_iff.1 found)

/-- A literal with a parenthesis and a call inside the parentheses, and a literal that never ends. -/
theorem parenBody_exact_values :
    let values := "('a)', NOW(), 'é') RETURNING id".toList
    let inner := "'a)', NOW(), 'é'".toList
    Encloses values inner " RETURNING id" ∧ parenBody? values = some (inner, " RETURNING id".toList) ∧
      mask .nested values = '(' :: List.replicate 17 ' ' ++ ')' :: " RETURNING id".toList ∧
      matchingParen? ("VALUES ".toList ++ values) 7 = some 25 ∧
      (∀ inner rest, ¬ Encloses "('a)" inner rest) ∧ matchingParen? ("VALUES ".toList ++ "('a)".toList) 7 = none := by
  intro values inner
  obtain ⟨body, -, masked, place⟩ := parenBody_exact
  have encloses : Encloses values inner " RETURNING id" := ⟨by decide, balanced_iff.2 (by decide)⟩
  have absent : ∀ inner rest, ¬ Encloses "('a)" inner rest := by
    intro inner rest encloses
    have found := (body _ _ _).2 encloses
    have missed : parenBody? "('a)" = none := by decide
    rw [missed] at found
    cases found
  exact ⟨encloses, (body _ _ _).2 encloses, masked _ _ _ encloses, (place "VALUES ".toList _).1 _ _ encloses, absent,
    (place "VALUES ".toList _).2 absent⟩

end Text
end QueryCode
