import QueryCode.Proofs.Condition.Spelling
import QueryCode.Proofs.Reader
import QueryCode.Proofs.Text.TopLevel

/-!
# What the tokens of a condition spell

Each token reader takes a slice from the start of a text, and the slice spells the value that it returns. A
keyword is the one case that needs care: it is compared letter by letter but cut off by its length in bytes,
and the two agree because the only letter of several bytes, the Kelvin sign, leaves no place to cut.
-/

namespace QueryCode
set_option autoImplicit false

namespace Condition

open Reader

theorem isBlank_of_isGap {c : Char} (gap : Text.isGap c = true) : Text.isBlank c = true := by
  simp only [Text.isGap, Bool.or_eq_true, beq_iff_eq] at gap
  rcases gap with ((rfl | rfl) | rfl) | rfl <;> decide

/-! ## Keywords -/

/-- Every letter has one byte, and a `k` has no two letters after it. -/
def isSteady : Text → Bool
  | [] => true
  | k :: kw => k.utf8Size == 1 && (k != 'k' || kw.length < 2) && isSteady kw

theorem size_of_isSteady {kw : Text} (steady : isSteady kw = true) : Text.size kw = kw.length := by
  induction kw with
  | nil => rfl
  | cons k kw ih =>
    simp only [isSteady, Bool.and_eq_true, beq_iff_eq] at steady
    rw [Text.size, ih steady.2, steady.1.1, List.length_cons, Nat.add_comm]

theorem utf8Size_toLower (c : Char) : c.toLower.utf8Size = c.utf8Size := by
  obtain same | ⟨small, _, high⟩ := Text.toLower_cases c
  · rw [same]
  · have small' : c.toLower.val ≤ 127 := UInt32.le_iff_toNat_le.2 (Nat.le_trans high (by decide))
    rw [show c.utf8Size = 1 from if_pos small, show c.toLower.utf8Size = 1 from if_pos small']

/-- **A keyword is cut off after its letters**: had it a letter of several bytes, there would be no place to
cut. -/
theorem cut_agrees {kw t before after : Text} (steady : isSteady kw = true) (same : agrees kw t = true)
    (split : Text.cut (Text.size kw) t = .ok (before, after)) : Text.lower before = kw := by
  induction kw generalizing t before with
  | nil =>
    rw [Text.size, Text.cut] at split
    cases split
    rfl
  | cons k kw ih =>
    have total := size_of_isSteady steady
    simp only [isSteady, Bool.and_eq_true, beq_iff_eq] at steady
    obtain ⟨⟨single, late⟩, steady⟩ := steady
    rw [total, List.length_cons] at split
    cases t with
    | nil => cases split
    | cons c t =>
      simp only [agrees, List.zip_cons_cons, List.all_cons, Bool.and_eq_true] at same
      obtain ⟨letter, same⟩ := same
      rw [Text.cut] at split
      by_cases lower : c.toLower = k
      · have one : c.utf8Size = 1 := by rw [← utf8Size_toLower, lower, single]
        rw [one, if_pos (by omega), Nat.add_sub_cancel, ← size_of_isSteady steady] at split
        cases inner : Text.cut (Text.size kw) t with
        | error _ =>
          rw [inner] at split
          cases split
        | ok parts =>
          rw [inner] at split
          cases split
          have rest := ih steady same inner
          rw [Text.lower] at rest ⊢
          rw [List.map_cons, rest, lower]
      · -- the Kelvin sign stands for `k`, too close to the end of the keyword for its three bytes
        simp only [isLetterOf, Bool.or_eq_true, beq_iff_eq, lower, false_or, Bool.and_eq_true] at letter
        obtain ⟨rfl, rfl⟩ := letter
        have short : kw.length < 2 := by simpa using late
        rw [if_neg (by rw [show Char.utf8Size '\u212A' = 3 from rfl]; omega)] at split
        cases split

/-- A keyword is spelled in some letter case and ends there. -/
theorem keyword_spelled {kw : String} {t rest : Text} (steady : isSteady kw.toList = true)
    (read : keyword kw t = .ok (some ((), rest))) : ∃ slice, t = slice ++ rest ∧ IsKeyword kw slice rest := by
  unfold keyword at read
  split at read
  · rename_i fits
    rw [Bool.and_eq_true] at fits
    split at read
    · cases read
    · rename_i before after split
      by_cases goesOn : after.head?.any Text.isNameChar = true
      · simp [goesOn] at read
      · simp only [goesOn, Bool.false_eq_true, if_false, Except.ok.injEq, Option.some.injEq, Prod.mk.injEq,
          true_and] at read
        subst read
        exact ⟨before, Text.cut_append split, cut_agrees steady fits.1 split, by simpa using goesOn⟩
  · cases read

/-! ## White space -/

theorem gaps_spelled {t rest : Text} (read : gaps t = .ok (some ((), rest))) :
    ∃ slice, t = slice ++ rest ∧ Gap slice := by
  simp only [gaps, Except.ok.injEq, Option.some.injEq, Prod.mk.injEq, true_and] at read
  subst read
  exact ⟨t.takeWhile Text.isGap, List.takeWhile_append_dropWhile.symm, fun _ mem => List.mem_takeWhile_imp mem⟩

theorem gaps1_spelled {t rest : Text} (read : gaps1 t = .ok (some ((), rest))) :
    ∃ slice, t = slice ++ rest ∧ Gap slice ∧ slice ≠ [] := by
  unfold gaps1 at read
  split at read
  · rename_i starts
    obtain ⟨slice, split, gap⟩ := gaps_spelled (t := t) read
    refine ⟨slice, split, gap, ?_⟩
    rintro rfl
    -- nothing was taken although white space comes first
    simp only [Except.ok.injEq, Option.some.injEq, Prod.mk.injEq, true_and] at read
    match t with
    | [] => cases starts
    | c :: t =>
      have blank : Text.isGap c = true := by simpa using starts
      have shorter := congrArg List.length (read.trans split.symm)
      rw [List.dropWhile_cons_of_pos blank] at shorter
      have bound := (List.dropWhile_sublist Text.isGap (l := t)).length_le
      rw [List.length_cons] at shorter
      omega
  · cases read

/-- A connective is its keyword with the white space around it. -/
theorem connective_spelled {kw : String} {t rest : Text} (steady : isSteady kw.toList = true)
    (read : connective kw t = .ok (some ((), rest))) : ∃ slice, t = slice ++ rest ∧ LinkSpelling kw slice rest := by
  unfold connective at read
  obtain ⟨_, afterGap, gap, read⟩ := bind_ok.1 read
  obtain ⟨_, afterWord, word, gap'⟩ := bind_ok.1 read
  obtain ⟨g, rfl, blank⟩ := gaps_spelled gap
  obtain ⟨w, rfl, keyword⟩ := keyword_spelled steady word
  obtain ⟨g', rfl, blank'⟩ := gaps_spelled gap'
  exact ⟨g ++ w ++ g', by simp, .link blank keyword blank'⟩

/-- A `NOT` in front of a keyword is there with its white space, or not at all. -/
theorem negation_spelled {t rest : Text} {negated : Bool} (read : negation t = .ok (some (negated, rest))) :
    ∃ slice, t = slice ++ rest ∧ NegationSpelling slice negated := by
  unfold negation at read
  obtain ⟨found, mid, tried, value⟩ := bind_ok.1 read
  obtain ⟨rfl, rfl⟩ := pure_ok.1 value
  obtain ⟨rfl, rfl, _⟩ | ⟨_, rfl, present⟩ := opt_ok.1 tried
  · exact ⟨[], rfl, .absent⟩
  · obtain ⟨_, afterWord, word, gap⟩ := bind_ok.1 present
    obtain ⟨w, rfl, keyword⟩ := keyword_spelled (by decide) word
    obtain ⟨g, rfl, blank, apart⟩ := gaps1_spelled gap
    exact ⟨w ++ g, by simp, .present keyword.letters blank apart⟩

/-! ## Names -/

theorem identifier_spelled {t name rest : Text} (found : identifier? t = some (name, rest)) :
    ∃ slice, t = slice ++ rest ∧ NameSpelling slice name := by
  unfold identifier? at found
  split at found
  · rename_i inside
    have parts := List.takeWhile_append_dropWhile (p := Text.isNameChar) (l := inside)
    dsimp only at found
    split at found
    · rename_i d ds after taken dropped
      cases found
      rw [dropped] at parts
      refine ⟨'\x60' :: inside.takeWhile Text.isNameChar ++ ['\x60'], ?_, ?_⟩
      · simp [parts]
      · exact .ticked (by rw [taken]; simp) fun _ mem => List.mem_takeWhile_imp mem
    · cases found
  · rename_i c tail _
    split at found
    · rename_i start
      cases found
      refine ⟨c :: tail.takeWhile Text.isNameChar, ?_, .bare start fun _ mem => List.mem_takeWhile_imp mem⟩
      rw [List.cons_append, List.takeWhile_append_dropWhile]
    · cases found
  · cases found

theorem fieldRef_spelled {t field rest : Text} (found : fieldRef? t = some (field, rest)) :
    ∃ slice, t = slice ++ rest ∧ FieldSpelling slice field := by
  unfold fieldRef? at found
  split at found
  · cases found
  · rename_i head after read
    obtain ⟨slice, rfl, named⟩ := identifier_spelled read
    split at found
    · rename_i column last read'
      cases found
      obtain ⟨slice', rfl, named'⟩ := identifier_spelled read'
      exact ⟨slice ++ '.' :: slice', by simp, .qualified named named'⟩
    · cases found
      exact ⟨slice, rfl, .plain named⟩
  · rename_i head after _ read
    cases found
    obtain ⟨slice, rfl, named⟩ := identifier_spelled read
    exact ⟨slice, rfl, .plain named⟩

/-! ## Literals and operands -/

/-- The rest of a literal is its inside and the closing quote. -/
theorem literalTail_spelled {quote : Char} {t tail rest : Text} (found : literalTail? quote t = some (tail, rest)) :
    t = tail ++ rest ∧ ∃ body, tail = body ++ [quote] ∧ Quoted quote body := by
  fun_induction literalTail? quote t generalizing tail rest with
  | case1 => cases found
  | case2 c closing =>
    cases found
    simp only [Bool.and_eq_true, beq_iff_eq] at closing
    obtain ⟨_, rfl⟩ := closing
    exact ⟨rfl, [], rfl, .nil⟩
  | case3 => cases found
  | case4 c d inner slash ih =>
    obtain ⟨⟨tail', rest'⟩, found', same⟩ := Option.map_eq_some_iff.1 found
    cases same
    obtain ⟨rfl, body, rfl, quoted⟩ := ih found'
    obtain rfl := beq_iff_eq.1 slash
    exact ⟨rfl, '\\' :: d :: body, rfl, .escaped quoted⟩
  | case5 c d inner slash closing doubled ih =>
    obtain ⟨⟨tail', rest'⟩, found', same⟩ := Option.map_eq_some_iff.1 found
    cases same
    obtain ⟨rfl, body, rfl, quoted⟩ := ih found'
    obtain rfl := beq_iff_eq.1 closing
    obtain rfl := beq_iff_eq.1 doubled
    exact ⟨rfl, d :: d :: body, rfl, .doubled quoted⟩
  | case6 c d inner slash closing =>
    cases found
    obtain rfl := beq_iff_eq.1 closing
    exact ⟨rfl, [], rfl, .nil⟩
  | case7 c d inner slash closing ih =>
    obtain ⟨⟨tail', rest'⟩, found', same⟩ := Option.map_eq_some_iff.1 found
    cases same
    obtain ⟨split, body, rfl, quoted⟩ := ih found'
    refine ⟨by rw [split]; rfl, c :: body, rfl, .plain ?_ ?_ quoted⟩
    · simpa using slash
    · simpa using closing

/-- A literal ends at its closing quote. -/
theorem literalTail_append {quote : Char} {body rest : Text} (inside : Quoted quote body) (slash : quote ≠ '\\')
    (ends : rest.head? ≠ some quote) : literalTail? quote (body ++ quote :: rest) = some (body ++ [quote], rest) := by
  have slash' : (quote == '\\') = false := beq_eq_false_iff_ne.2 slash
  induction inside with
  | nil =>
    cases rest with
    | nil => simp [literalTail?, slash]
    | cons d rest =>
      have other : (d == quote) = false := beq_eq_false_iff_ne.2 fun same => ends (congrArg some same)
      rw [List.nil_append, literalTail?, slash', beq_self_eq_true, other]
      rfl
  | @plain c body plain other inside ih =>
    obtain ⟨d, more, tail⟩ : ∃ d more, body ++ quote :: rest = d :: more := by
      cases body <;> exact ⟨_, _, rfl⟩
    rw [List.cons_append, tail, literalTail?, beq_eq_false_iff_ne.2 plain, beq_eq_false_iff_ne.2 other, ← tail, ih]
    rfl
  | escaped inside ih =>
    rw [List.cons_append, List.cons_append, literalTail?, ih]
    rfl
  | doubled inside ih =>
    rw [List.cons_append, List.cons_append, literalTail?, slash', beq_self_eq_true, ih]
    rfl

/-- A quoted literal is taken whole, and its inside is what its quotes hold. -/
theorem stringLiteral_spelled {t literal rest : Text} (found : stringLiteral? t = some (literal, rest)) :
    t = literal ++ rest ∧ LiteralSpelling literal ((Literal.unquote? literal).getD literal) := by
  unfold stringLiteral? at found
  split at found
  · cases found
  · rename_i quote inside
    split at found
    · rename_i opening
      obtain ⟨⟨tail, rest'⟩, found', same⟩ := Option.map_eq_some_iff.1 found
      cases same
      obtain ⟨rfl, body, rfl, quoted⟩ := literalTail_spelled found'
      have unquoted : Literal.unquote? (quote :: (body ++ [quote])) = some (Literal.undouble quote body) := by
        simp [Literal.unquote?, opening]
      rw [unquoted]
      exact ⟨rfl, .quoted opening quoted⟩
    · cases found

/-! ## Operands -/

/-- An operand ends before this text, met at the top level. -/
def endsOperand (t : Text) : Bool :=
  match t with
  | [] => true
  | c :: _ => c == ')' || (Text.isBlank c && startsLogical (Text.trimStart t))

theorem endsOperand_of_isQuote {c : Char} (quote : Text.isQuote c = true) (rest : Text) :
    endsOperand (c :: rest) = false := by
  simp only [Text.isQuote, Bool.or_eq_true, beq_iff_eq] at quote
  rcases quote with rfl | rfl <;> rfl

/-- The characters up to the first place that the walk over the text finds outside every literal and parenthesis and at
which an operand ends. -/
def walkSpan (w : Text.Walk) : Text → Text
  | [] => []
  | c :: rest =>
    if w == {} && endsOperand (c :: rest) then []
    else c :: walkSpan (w.step c rest.head?).2 rest

theorem walkSpan_isPrefix (w : Text.Walk) (t : Text) : walkSpan w t <+: t := by
  induction t generalizing w with
  | nil => exact List.prefix_rfl
  | cons c rest ih =>
    rw [walkSpan]
    split
    · exact List.nil_prefix
    · exact List.cons_prefix_cons.2 ⟨rfl, ih _⟩

theorem walkSpan_cons {w : Text.Walk} {c : Char} {rest : Text} {found : Text.Cell × Text.Walk}
    (goesOn : (w == {} && endsOperand (c :: rest)) = false) (steps : w.Steps c rest.head? found) :
    walkSpan w (c :: rest) = c :: walkSpan found.2 rest := by
  rw [walkSpan, goesOn, steps.eq]
  rfl

/-- **Reading an operand keeps step with the walk over the text.** The reader takes two characters at once where the
walk goes through a state of its own, after a backslash and between two quotes; elsewhere both are in the same literal
and at the same depth. -/
theorem operandSpan_eq_walkSpan (quote : Option Char) (depth : Nat) (t : Text) :
    operandSpan quote depth t = walkSpan ⟨quote.elim .plain .quoted, depth⟩ t := by
  have quoted (q : Char) (depth : Nat) (t : Text) :
      ((⟨.quoted q, depth⟩ : Text.Walk) == {} && endsOperand t) = false := rfl
  fun_induction operandSpan quote depth t with
  | case1 => rfl
  | case2 depth c q slash =>
    obtain rfl := beq_iff_eq.1 slash
    exact (walkSpan_cons (quoted q depth ['\\']) .backslash).symm
  | case3 depth c q slash d rest ih =>
    obtain rfl := beq_iff_eq.1 slash
    rw [ih]
    exact ((walkSpan_cons (quoted ..) .backslash).trans (congrArg _ (walkSpan_cons rfl .escaped))).symm
  | case4 depth c q slash same =>
    obtain rfl := beq_iff_eq.1 same
    exact (walkSpan_cons (quoted c depth [c]) (.closing (by simpa using slash) (by simp))).symm
  | case5 depth c q slash same d rest doubled ih =>
    obtain rfl := beq_iff_eq.1 same
    obtain rfl := beq_iff_eq.1 doubled
    rw [ih]
    exact ((walkSpan_cons (quoted ..) (.doubling (by simpa using slash))).trans
      (congrArg _ (walkSpan_cons rfl .doubled))).symm
  | case6 depth c q slash same d rest single ih =>
    obtain rfl := beq_iff_eq.1 same
    rw [ih]
    exact (walkSpan_cons (quoted ..) (.closing (by simpa using slash) (by simpa using single))).symm
  | case7 depth c rest q slash other ih =>
    rw [ih]
    exact (walkSpan_cons (quoted ..) (.held (by simpa using slash) (by simpa using other))).symm
  | case8 depth c rest opens ih =>
    rw [ih]
    exact (walkSpan_cons (by rw [endsOperand_of_isQuote opens, Bool.and_false]) (.opening opens)).symm
  | case9 depth c rest _ opens ih =>
    obtain rfl := beq_iff_eq.1 opens
    rw [ih]
    exact (walkSpan_cons (Bool.and_false _) .deeper).symm
  | case10 depth c rest _ _ closes top =>
    obtain rfl := beq_iff_eq.1 closes
    obtain rfl := beq_iff_eq.1 top
    rfl
  | case11 depth c rest _ _ closes deep ih =>
    obtain rfl := beq_iff_eq.1 closes
    rw [ih]
    refine (walkSpan_cons ?_ .shallower).symm
    rw [beq_iff_eq] at deep
    simp [deep]
  | case12 depth c rest _ _ _ stops =>
    simp only [Bool.and_eq_true, beq_iff_eq] at stops
    obtain ⟨⟨blank, rfl⟩, connective⟩ := stops
    simp [walkSpan, endsOperand, blank, connective]
  | case13 depth c rest quote opens closes goesOn ih =>
    rw [ih]
    refine (walkSpan_cons ?_ (.plain (by simp [Text.isMark, quote, opens, closes]))).symm
    cases depth with
    | zero => simpa [endsOperand, closes] using goesOn
    | succ depth => rfl

theorem operandSpan_isPrefix (quote : Option Char) (depth : Nat) (t : Text) : operandSpan quote depth t <+: t := by
  rw [operandSpan_eq_walkSpan]
  exact walkSpan_isPrefix _ t

/-- An operand is what the walk over the text passes before it ends, without the white space after it. -/
theorem operand_eq (t : Text) :
    operand? t =
      let found := Text.trimEnd (walkSpan {} t)
      if found.isEmpty then none else some (found, t.drop found.length) := by
  rw [operand?, operandSpan_eq_walkSpan]
  rfl

/-- An operand is a slice of the text that stops where the operand reader stops. -/
theorem operand_spelled {t value rest : Text} (found : operand? t = some (value, rest)) :
    t = value ++ rest ∧ IsOperand value rest := by
  have split : t = value ++ rest := by
    simp only [operand_eq] at found
    split at found
    · cases found
    · cases found
      obtain ⟨trail, _, eq⟩ := Text.exists_trimEnd (walkSpan {} t)
      have start : Text.trimEnd (walkSpan {} t) <+: t :=
        List.IsPrefix.trans ⟨trail, eq.symm⟩ (walkSpan_isPrefix {} t)
      exact (List.prefix_iff_eq_append.1 start).symm
  exact ⟨split, by rw [IsOperand, ← split]; exact found⟩

end Condition
end QueryCode
