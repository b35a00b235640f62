import QueryCode.Proofs.Condition.Sound
import QueryCode.Proofs.Text.Boundary

/-!
# Conditions are read without faults

Only a keyword cuts a text at an offset that need not be a boundary, and only the Kelvin sign makes it one that is not.
So every reader of the grammar is safe on texts without that sign. The bounds on the depth of a condition and on the
number of its parts stop no reading: each nested condition is shorter than the one around it, and each part takes at
least its connective.
-/

namespace QueryCode
set_option autoImplicit false

/-- The text has no Kelvin sign. -/
def Clear (t : Text) : Prop := '\u212A' ∉ t

instance (t : Text) : Decidable (Clear t) := inferInstanceAs (Decidable ('\u212A' ∉ t))

theorem Clear.subset {s t : Text} (clear : Clear t) (subset : s ⊆ t) : Clear s := fun mem => clear (subset mem)

namespace Reader

variable {α β : Type} {p q : Reader α}

/-- The reader has a result for every text without a Kelvin sign, and what it leaves is the end of the text. -/
structure Safe (p : Reader α) : Prop where
  returns : ∀ t, Clear t → Returns (p t)
  trims : ∀ t a rest, p t = .ok (some (a, rest)) → rest <:+ t

theorem safe_pure (a : α) : Safe (pure a : Reader α) where
  returns _ _ := returns_ok _
  trims t _ _ read := (pure_ok.1 read).2 ▸ List.suffix_refl t

theorem safe_fail : Safe (fail : Reader α) where
  returns _ _ := returns_ok _
  trims _ _ _ read := absurd read fail_ok

theorem Safe.bind {f : α → Reader β} (first : Safe p) (rest : ∀ a, Safe (f a)) : Safe (p >>= f) where
  returns t clear := by
    obtain ⟨found, read⟩ := first.returns t clear
    match found with
    | none => exact ⟨none, bind_of_none read⟩
    | some (a, mid) =>
      rw [bind_of_ok read]
      exact (rest a).returns mid (clear.subset (first.trims t a mid read).subset)
  trims t b last read := by
    obtain ⟨a, mid, first', read⟩ := bind_ok.1 read
    exact ((rest a).trims mid b last read).trans (first.trims t a mid first')

theorem Safe.orElse (left : Safe p) (right : Safe q) : Safe (p <|> q) where
  returns t clear := by
    obtain ⟨found, read⟩ := left.returns t clear
    match found with
    | none =>
      rw [orElse_of_none read]
      exact right.returns t clear
    | some found => exact ⟨some found, orElse_of_ok read⟩
  trims t a rest read := by
    rcases orElse_ok.1 read with read | ⟨_, read⟩
    · exact left.trims t a rest read
    · exact right.trims t a rest read

theorem Safe.opt (safe : Safe p) : Safe (opt p) where
  returns t clear := by
    obtain ⟨found, read⟩ := safe.returns t clear
    match found with
    | none => exact ⟨_, opt_of_none read⟩
    | some (a, rest) => exact ⟨_, opt_of_ok read⟩
  trims t found rest read := by
    rcases opt_ok.1 read with ⟨_, rfl, _⟩ | ⟨a, _, read⟩
    · exact List.suffix_refl rest
    · exact safe.trims t a rest read

theorem Safe.before (safe : Safe p) (test : Text → Bool) : Safe (before p test) := by
  refine safe.bind fun a => ⟨fun t _ => ?_, fun t b rest read => ?_⟩
  · split
    · exact returns_ok _
    · exact returns_ok _
  · split at read
    · cases read
      exact List.suffix_refl t
    · cases read

theorem safe_ofOption {f : Text → Option (α × Text)} (trims : ∀ t a rest, f t = some (a, rest) → rest <:+ t) :
    Safe (ofOption f) where
  returns _ _ := returns_ok _
  trims t a rest read := trims t a rest (ofOption_ok.1 read)

theorem safe_ofExcept {e : Except Fault α} (returns : Returns e) : Safe (ofExcept e) where
  returns t _ := by
    obtain ⟨a, rfl⟩ := returns
    exact returns_ok _
  trims t a rest read := (ofExcept_ok.1 read).2 ▸ List.suffix_refl t

theorem Safe.many (safe : Safe p) : Safe (many p) where
  returns t clear := by
    unfold Reader.many
    generalize t.length = n
    induction n generalizing t with
    | zero => exact returns_ok _
    | succ n ih =>
      obtain ⟨found, read⟩ := safe.returns t clear
      cases found with
      | none =>
        rw [many.go, read]
        exact returns_ok _
      | some pair =>
        obtain ⟨a, mid⟩ := pair
        obtain ⟨more, later⟩ := ih mid (clear.subset (safe.trims t a mid read).subset)
        rw [many.go, read]
        dsimp only
        rw [later]
        cases more with
        | none => exact returns_ok _
        | some pair => exact returns_ok _
  trims t as rest read := by
    have reads := many_repeats read
    clear read
    induction reads with
    | nil t => exact List.suffix_refl t
    | cons head tail ih => exact ih.trans (safe.trims _ _ _ head)

end Reader

namespace Condition

open Reader

/-! ## Readers of the grammar -/

/-- Every letter has one byte. -/
def isNarrow (kw : Text) : Bool := kw.all fun k => k.utf8Size == 1

/-- **Without a Kelvin sign a keyword ends at a boundary.** -/
theorem isBoundary_of_agrees {kw t : Text} (narrow : isNarrow kw = true) (same : agrees kw t = true)
    (clear : Clear t) (long : Text.size kw ≤ Text.size t) : Text.IsBoundary (Text.size kw) t := by
  induction kw generalizing t with
  | nil => exact Text.isBoundary_zero t
  | cons k kw ih =>
    simp only [isNarrow, List.all_cons, Bool.and_eq_true, beq_iff_eq] at narrow
    match t with
    | [] => exact absurd long (Nat.not_le.2 (Text.size_pos (List.cons_ne_nil k kw)))
    | c :: t =>
      simp only [agrees, List.zip_cons_cons, List.all_cons, Bool.and_eq_true] at same
      obtain ⟨letter, same⟩ := same
      obtain ⟨other, clear⟩ := not_or.1 (mt List.mem_cons.2 clear)
      have lower : c.toLower = k := by
        simpa [isLetterOf, Ne.symm other] using letter
      have one : c.utf8Size = 1 := by rw [← utf8Size_toLower, lower, narrow.1]
      rw [Text.size, Text.size, narrow.1, one] at long
      obtain ⟨u, v, rfl, size⟩ := ih narrow.2 same clear (by omega)
      exact ⟨c :: u, v, rfl, by rw [Text.size, Text.size, narrow.1, one, size]⟩

theorem safe_keyword {kw : String} (narrow : isNarrow kw.toList = true) : Safe (keyword kw) where
  returns t clear := by
    unfold keyword
    split
    · rename_i fits
      simp only [Bool.and_eq_true, decide_eq_true_eq] at fits
      obtain ⟨_, rest, _, _, cut⟩ := Text.exists_cut (isBoundary_of_agrees narrow fits.1 clear fits.2)
      rw [cut]
      dsimp only
      split
      · exact returns_ok _
      · exact returns_ok _
    · exact returns_ok _
  trims t _ rest read := by
    unfold keyword at read
    split at read
    · split at read
      · cases read
      · rename_i before after cut
        split at read
        · cases read
        · cases read
          exact ⟨before, (Text.cut_append cut).symm⟩
    · cases read

theorem safe_gaps : Safe gaps where
  returns _ _ := returns_ok _
  trims t _ rest read := by
    cases read
    exact List.dropWhile_suffix _

theorem safe_gaps1 : Safe gaps1 where
  returns t _ := by
    unfold gaps1
    split
    · exact returns_ok _
    · exact returns_ok _
  trims t _ rest read := by
    obtain ⟨slice, rfl, _⟩ := gaps1_spelled read
    exact List.suffix_append slice rest

theorem safe_connective {kw : String} (narrow : isNarrow kw.toList = true) : Safe (connective kw) :=
  safe_gaps.bind fun _ => (safe_keyword narrow).bind fun _ => safe_gaps

theorem safe_negation : Safe negation :=
  ((safe_keyword (by decide)).bind fun _ => safe_gaps1).opt.bind fun _ => safe_pure _

theorem safe_operand : Safe (ofOption operand?) := by
  refine safe_ofOption fun t a rest found => ?_
  rw [(operand_spelled found).1]
  exact List.suffix_append a rest

theorem safe_parenBody : Safe (ofOption Text.parenBody?) := by
  refine safe_ofOption fun t body rest found => ?_
  rw [Text.parenBody_append found]
  exact ⟨'(' :: body ++ [')'], by simp⟩

theorem safe_likeTail (field : Text) : Safe (likeTail field) := by
  have word : Safe ((do keyword "ilike"; return true) <|> (do keyword "like"; return false) : Reader Bool) :=
    ((safe_keyword (by decide)).bind fun _ => safe_pure _).orElse ((safe_keyword (by decide)).bind fun _ => safe_pure _)
  have literal : Safe (ofOption stringLiteral?) := by
    refine safe_ofOption fun t a rest found => ?_
    rw [(stringLiteral_spelled found).1]
    exact List.suffix_append a rest
  exact safe_negation.bind fun _ => word.bind fun _ => safe_gaps.bind fun _ => literal.bind fun _ => safe_pure _

theorem safe_inTail (field : Text) : Safe (inTail field) := by
  refine safe_negation.bind fun _ => (safe_keyword (by decide)).bind fun _ => safe_gaps.bind fun _ => ?_
  refine safe_parenBody.bind fun body => ?_
  split
  · exact safe_pure _
  · exact (safe_ofExcept (Text.returns_splitTop (by decide) body)).bind fun _ => safe_pure _

theorem safe_betweenTail (field : Text) : Safe (betweenTail field) := by
  refine safe_negation.bind fun _ => (safe_keyword (by decide)).bind fun _ => safe_gaps1.bind fun _ => ?_
  refine safe_operand.bind fun _ => (safe_connective (by decide)).bind fun _ => ?_
  exact safe_operand.bind fun _ => safe_pure _

theorem safe_nullTail (field : Text) : Safe (nullTail field) := by
  refine (safe_keyword (by decide)).bind fun _ => safe_gaps1.bind fun _ => safe_negation.bind fun _ => ?_
  exact (safe_keyword (by decide)).bind fun _ => safe_pure _

theorem safe_compareTail (field : Text) : Safe (compareTail field) := by
  have comparator : Safe comparator := by
    refine ⟨fun t _ => returns_ok _, fun t op rest read => ?_⟩
    obtain ⟨slice, rfl, _⟩ := comparator_spelled read
    exact List.suffix_append slice rest
  exact comparator.bind fun _ => safe_gaps.bind fun _ => safe_operand.bind fun _ => safe_pure _

theorem safe_predicate : Safe predicate := by
  have field : Safe (ofOption fieldRef?) := by
    refine safe_ofOption fun t a rest found => ?_
    obtain ⟨slice, rfl, _⟩ := fieldRef_spelled found
    exact List.suffix_append slice rest
  refine field.bind fun field => safe_gaps.bind fun _ => ?_
  exact (safe_likeTail field).orElse ((safe_inTail field).orElse ((safe_betweenTail field).orElse
    ((safe_nullTail field).orElse (safe_compareTail field))))

section Unary

variable {u : Reader Condition} (safe : Safe u)
include safe

theorem safe_conjunction : Safe (conjunction u) :=
  safe.bind fun _ => (((safe_connective (by decide)).bind fun _ => safe).many).bind fun _ => safe_pure _

theorem safe_disjunction : Safe (disjunction u) :=
  (safe_conjunction safe).bind fun _ =>
    (((safe_connective (by decide)).bind fun _ => safe_conjunction safe).many).bind fun _ => safe_pure _

theorem returns_wholeBody {body : Text} (clear : Clear body) : Returns (wholeBody u body) := by
  have whole : Safe (do gaps; let c ← disjunction u; gaps; return c : Reader Condition) :=
    safe_gaps.bind fun _ => (safe_disjunction safe).bind fun _ => safe_gaps.bind fun _ => safe_pure _
  obtain ⟨found, read⟩ := whole.returns body clear
  unfold wholeBody
  rw [read]
  split
  · contradiction
  · exact returns_ok _
  · exact returns_ok _

theorem safe_group : Safe (group u) where
  returns t clear := by
    cases found : Text.parenBody? t with
    | none => exact ⟨none, bind_of_none (congrArg Except.ok found)⟩
    | some inside =>
      obtain ⟨body, rest⟩ := inside
      have within : body ⊆ t := by
        rw [Text.parenBody_append found]
        simp
      have read : ofOption Text.parenBody? t = .ok (some (body, rest)) := congrArg Except.ok found
      rw [group, bind_of_ok read]
      split
      · exact returns_ok none
      · obtain ⟨c, whole⟩ := returns_wholeBody safe (clear.subset within)
        have read' : ofExcept (wholeBody u body) rest = .ok (some (c, rest)) := ofExcept_ok.2 ⟨whole, rfl⟩
        rw [bind_of_ok read']
        cases c with
        | none => exact returns_ok none
        | some c => exact returns_ok _
  trims t c rest read := by
    obtain ⟨body, mid, readBody, read⟩ := bind_ok.1 read
    have end' := safe_parenBody.trims t body mid readBody
    split at read
    · exact absurd read fail_ok
    · obtain ⟨whole, mid', readWhole, read⟩ := bind_ok.1 read
      obtain ⟨_, rfl⟩ := ofExcept_ok.1 readWhole
      cases whole with
      | none => exact absurd read fail_ok
      | some c => exact (pure_ok.1 read).2 ▸ end'

theorem safe_primary : Safe (primary u) :=
  ((safe_group safe).before _).orElse
    (((safe_predicate.before _).bind fun _ => safe_pure _).orElse (safe_operand.bind fun _ => safe_pure _))

end Unary

theorem safe_unary (depth : Nat) : Safe (unary depth) := by
  induction depth with
  | zero => exact safe_fail
  | succ depth ih =>
    exact ((safe_keyword (by decide)).bind fun _ => safe_gaps.bind fun _ => ih.bind fun _ => safe_pure _).orElse
      (safe_primary ih)

/-- **A text without a Kelvin sign is read.** -/
theorem returns_parse {t : Text} (clear : Clear t) : Returns (parse t) := by
  have within : Text.trim t ⊆ t := by
    obtain ⟨lead, trail, _, _, split⟩ := Text.exists_trim t
    conv_rhs => rw [split]
    simp
  obtain ⟨found, read⟩ := (safe_disjunction (safe_unary (Text.trim t).length)).returns _ (clear.subset within)
  unfold parse
  dsimp only
  rw [read]
  split
  · exact returns_ok none
  · match found with
    | none => exact returns_ok _
    | some (c, rest) => exact returns_ok _

end Condition

/-! ## Bounds -/

namespace Reader

variable {α β : Type} {p q : Reader α} {n : Nat}

/-- The two readers agree on texts of at most `n` characters. -/
def Agree (n : Nat) (p q : Reader α) : Prop := ∀ t, t.length ≤ n → p t = q t

theorem agree_refl (n : Nat) (p : Reader α) : Agree n p p := fun _ _ => rfl

theorem Agree.bind {f g : α → Reader β} (first : Agree n p q) (safe : Safe p) (rest : ∀ a, Agree n (f a) (g a)) :
    Agree n (p >>= f) (q >>= g) := by
  intro t short
  rw [bind_apply, bind_apply, ← first t short]
  match read : p t with
  | .error _ => rfl
  | .ok none => rfl
  | .ok (some (a, mid)) => exact rest a mid (le_trans (safe.trims t a mid read).length_le short)

/-- Behind a reader that takes something the texts are shorter. -/
theorem Agree.behind {f g : α → Reader β} (rest : ∀ a, Agree n (f a) (g a))
    (takes : ∀ t a mid, p t = .ok (some (a, mid)) → mid.length < t.length) : Agree (n + 1) (p >>= f) (p >>= g) := by
  intro t short
  rw [bind_apply, bind_apply]
  match read : p t with
  | .error _ => rfl
  | .ok none => rfl
  | .ok (some (a, mid)) =>
    have less := takes t a mid read
    exact rest a mid (by omega)

theorem Agree.orElse {p' q' : Reader α} (left : Agree n p q) (right : Agree n p' q') : Agree n (p <|> p') (q <|> q') := by
  intro t short
  rw [orElse_apply, orElse_apply, left t short, right t short]

theorem Agree.before (agree : Agree n p q) (test : Text → Bool) : Agree n (before p test) (before q test) := by
  intro t short
  rw [before_apply, before_apply, agree t short]

theorem Agree.many (agree : Agree n p q) (safe : Safe p) : Agree n (many p) (many q) := by
  have bounded : ∀ k t, t.length ≤ n → many.go p k t = many.go q k t := by
    intro k
    induction k with
    | zero => exact fun _ _ => rfl
    | succ k ih =>
      intro t short
      rw [many.go, many.go, ← agree t short]
      rcases read : p t with _ | _ | ⟨a, mid⟩
      · rfl
      · rfl
      · have same := ih mid (le_trans (safe.trims t a mid read).length_le short)
        dsimp only
        rw [same]
  exact fun t => bounded t.length t

/-- **A repetition of a reader that takes something ends before its bound.** -/
theorem many_go_eq (safe : Safe p) (takes : ∀ t a rest, p t = .ok (some (a, rest)) → rest.length < t.length)
    {t : Text} (enough : t.length ≤ n) : many.go p n t = many p t := by
  have ends : p [] = .ok none := by
    obtain ⟨found, read⟩ := safe.returns [] List.not_mem_nil
    cases found with
    | none => exact read
    | some pair => exact absurd (takes [] pair.1 pair.2 read) (Nat.not_lt_zero _)
  have bounded : ∀ n m t, t.length ≤ n → t.length ≤ m → many.go p n t = many.go p m t := by
    intro n
    induction n with
    | zero =>
      intro m t empty _
      obtain rfl := List.length_eq_zero_iff.1 (Nat.le_zero.1 empty)
      cases m with
      | zero => rfl
      | succ m => rw [many.go, many.go, ends]
    | succ n ih =>
      intro m t short short'
      cases m with
      | zero =>
        obtain rfl := List.length_eq_zero_iff.1 (Nat.le_zero.1 short')
        rw [many.go, many.go, ends]
      | succ m =>
        rw [many.go, many.go]
        rcases read : p t with _ | _ | ⟨a, mid⟩
        · rfl
        · rfl
        · have less := takes t a mid read
          have same := ih m mid (by omega) (by omega)
          dsimp only
          rw [same]
  exact bounded n t.length t enough (le_refl _)

end Reader

namespace Condition

open Reader

theorem takes_keyword {kw : String} (steady : isSteady kw.toList = true) (letters : kw.toList ≠ []) (t : Text)
    (u : Unit) (rest : Text) (read : keyword kw t = .ok (some (u, rest))) : rest.length < t.length := by
  obtain ⟨slice, rfl, spelled⟩ := keyword_spelled steady read
  have taken : slice ≠ [] := by
    rintro rfl
    exact letters spelled.letters.symm
  have := List.length_pos_iff.2 taken
  rw [List.length_append]
  omega

/-- A part behind its connective takes something. -/
theorem takes_part {kw : String} (steady : isSteady kw.toList = true) (letters : kw.toList ≠ []) {u : Reader Condition}
    (safe : Safe u) (t : Text) (c : Condition) (rest : Text)
    (read : (do connective kw; u : Reader Condition) t = .ok (some (c, rest))) : rest.length < t.length := by
  obtain ⟨_, afterLink, readLink, readPart⟩ := bind_ok.1 read
  obtain ⟨_, afterGap, readGap, readLink⟩ := bind_ok.1 readLink
  obtain ⟨_, afterWord, readWord, readGap'⟩ := bind_ok.1 readLink
  have gap := (safe_gaps.trims _ _ _ readGap).length_le
  have word := takes_keyword steady letters _ _ _ readWord
  have gap' := (safe_gaps.trims _ _ _ readGap').length_le
  have part := (safe.trims _ _ _ readPart).length_le
  omega

theorem unary_nil (depth : Nat) : unary depth [] = .ok none := by
  cases depth with
  | zero => rfl
  | succ depth => rfl

section Agree

variable {u v : Reader Condition} {n : Nat} (agree : Agree n u v) (safe : Safe u)
include agree safe

theorem agree_conjunction : Agree n (conjunction u) (conjunction v) := by
  have part : Agree n (do connective "and"; u : Reader Condition) (do connective "and"; v) :=
    (agree_refl n _).bind (safe_connective (by decide)) fun _ => agree
  have safePart : Safe (do connective "and"; u : Reader Condition) := (safe_connective (by decide)).bind fun _ => safe
  refine agree.bind safe fun first => ?_
  exact (part.many safePart).bind safePart.many fun _ => agree_refl n _

theorem agree_disjunction : Agree n (disjunction u) (disjunction v) := by
  have conjuncts := agree_conjunction agree safe
  have part : Agree n (do connective "or"; conjunction u : Reader Condition) (do connective "or"; conjunction v) :=
    (agree_refl n _).bind (safe_connective (by decide)) fun _ => conjuncts
  have safePart : Safe (do connective "or"; conjunction u : Reader Condition) :=
    (safe_connective (by decide)).bind fun _ => safe_conjunction safe
  refine conjuncts.bind (safe_conjunction safe) fun first => ?_
  exact (part.many safePart).bind safePart.many fun _ => agree_refl n _

/-- The inside of parentheses is shorter than the text. -/
theorem agree_group : Agree (n + 1) (group u) (group v) := by
  have whole {body : Text} (short : body.length ≤ n) : wholeBody u body = wholeBody v body := by
    have same : Agree n (do gaps; let c ← disjunction u; gaps; return c : Reader Condition)
        (do gaps; let c ← disjunction v; gaps; return c) :=
      (agree_refl n _).bind safe_gaps fun _ => (agree_disjunction agree safe).bind (safe_disjunction safe) fun _ =>
        agree_refl n _
    rw [wholeBody, wholeBody, same body short]
  intro t short
  rw [group, group, bind_apply, bind_apply]
  match found : ofOption Text.parenBody? t with
  | .error _ => rfl
  | .ok none => rfl
  | .ok (some (body, rest)) =>
    have inner : body.length ≤ n := by
      rw [Text.parenBody_append (ofOption_ok.1 found)] at short
      simp only [List.length_cons, List.length_append, List.cons_append] at short
      omega
    dsimp only
    rw [whole inner]

theorem agree_primary : Agree (n + 1) (primary u) (primary v) :=
  ((agree_group agree safe).before _).orElse (agree_refl _ _)

end Agree

/-- A condition with parentheses and `NOT`s nested `depth` deep around what `base` reads. -/
def unaryAbove (base : Reader Condition) : Nat → Reader Condition
  | 0 => base
  | depth + 1 => (do keyword "not"; gaps; return .not (← unaryAbove base depth)) <|> primary (unaryAbove base depth)

theorem unary_eq_unaryAbove (depth : Nat) : unary depth = unaryAbove fail depth := by
  induction depth with
  | zero => rfl
  | succ depth ih => rw [unary, unaryAbove, ih]

/-- One level up, the inner conditions are read in shorter texts. -/
theorem agree_level {u v : Reader Condition} {n : Nat} (agree : Agree n u v) (safe : Safe u) :
    Agree (n + 1) (unaryAbove u 1) (unaryAbove v 1) := by
  have negated : Agree n (do gaps; return .not (← u) : Reader Condition) (do gaps; return .not (← v)) :=
    (agree_refl n _).bind safe_gaps fun _ => agree.bind safe fun _ => agree_refl n _
  exact (Agree.behind (fun _ => negated) (takes_keyword (by decide) (by decide))).orElse (agree_primary agree safe)

/-- **Every recursive reading is of a strictly shorter text**: what is read depends on the inner reader at such texts
only. -/
theorem unaryAbove_congr {u v : Reader Condition} {t : Text} (safe : Safe u)
    (agree : ∀ s, s.length < t.length → u s = v s) : unaryAbove u 1 t = unaryAbove v 1 t := by
  cases t with
  | nil => rfl
  | cons c t =>
    have shorter : Agree t.length u v := fun s short => agree s (Nat.lt_succ_of_le short)
    exact agree_level shorter safe (c :: t) (le_refl _)

/-- **The bound on the depth stops no reading**: where it is no less than the length of the text, it does not matter. -/
theorem agree_unary (n : Nat) : ∀ {depth depth' : Nat}, n ≤ depth → n ≤ depth' →
    Agree n (unary depth) (unary depth') := by
  induction n with
  | zero =>
    intro depth depth' _ _ t empty
    obtain rfl := List.length_eq_zero_iff.1 (Nat.le_zero.1 empty)
    rw [unary_nil, unary_nil]
  | succ n ih =>
    intro depth depth' enough enough'
    obtain ⟨d, rfl⟩ := Nat.exists_eq_add_of_le' (le_trans (Nat.le_add_left 1 n) enough)
    obtain ⟨d', rfl⟩ := Nat.exists_eq_add_of_le' (le_trans (Nat.le_add_left 1 n) enough')
    exact agree_level (ih (by omega) (by omega)) (safe_unary d)

/-- **The bottom of the recursion is never reached**: with a bound above the length of the text, any reader may stand
there, also one that faults. -/
theorem agree_unaryAbove (base : Reader Condition) (n : Nat) : ∀ {depth : Nat}, n < depth →
    Agree n (unary depth) (unaryAbove base depth) := by
  induction n with
  | zero =>
    intro depth enough t empty
    obtain ⟨d, rfl⟩ := Nat.exists_eq_add_of_le' enough
    obtain rfl := List.length_eq_zero_iff.1 (Nat.le_zero.1 empty)
    rfl
  | succ n ih =>
    intro depth enough
    obtain ⟨d, rfl⟩ := Nat.exists_eq_add_of_le' (le_trans (Nat.le_add_left 1 _) enough)
    exact agree_level (ih (by omega)) (safe_unary d)

/-- What a condition is read as does not depend on the bound on the depth. -/
theorem disjunction_unary {t : Text} {depth : Nat} (enough : t.length ≤ depth) :
    disjunction (unary depth) t = disjunction (unary t.length) t :=
  agree_disjunction (agree_unary t.length enough (le_refl _)) (safe_unary depth) t (le_refl _)

/-- A conjunct behind its connective takes something. -/
theorem takes_conjunct (depth : Nat) (t : Text) (c : Condition) (rest : Text) :
    (do connective "and"; unary depth : Reader Condition) t = .ok (some (c, rest)) → rest.length < t.length :=
  takes_part (by decide) (by decide) (safe_unary depth) t c rest

/-- A disjunct behind its connective takes something. -/
theorem takes_disjunct (depth : Nat) (t : Text) (c : Condition) (rest : Text) :
    (do connective "or"; conjunction (unary depth) : Reader Condition) t = .ok (some (c, rest)) →
      rest.length < t.length :=
  takes_part (by decide) (by decide) (safe_conjunction (safe_unary depth)) t c rest

theorem many_conjuncts {t : Text} {bound : Nat} (depth : Nat) (enough : t.length ≤ bound) :
    many.go (do connective "and"; unary depth) bound t = many (do connective "and"; unary depth) t :=
  many_go_eq ((safe_connective (by decide)).bind fun _ => safe_unary depth) (takes_conjunct depth) enough

theorem many_disjuncts {t : Text} {bound : Nat} (depth : Nat) (enough : t.length ≤ bound) :
    many.go (do connective "or"; conjunction (unary depth)) bound t =
      many (do connective "or"; conjunction (unary depth)) t :=
  many_go_eq ((safe_connective (by decide)).bind fun _ => safe_conjunction (safe_unary depth))
    (takes_disjunct depth) enough

end Condition
end QueryCode
