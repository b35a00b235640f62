import QueryCode.Literal
import QueryCode.Proofs.Text.Word

/-!
# Integer tokens

A token of digits with an optional minus sign is an integer as long as its value fits in 128 bits with a sign, and a
double beyond; no other token is an integer. In the code an integer has its canonical decimal, whatever zeros stood in
front of it: `ofToken_integer`. A token with digits of another script looks like a number too, but is a string:
`ofToken_foreign_iff`.
-/

namespace QueryCode
set_option autoImplicit false

namespace Literal

/-- Digits `0` to `9`, at least one. -/
structure IsDigits (digits : Text) : Prop where
  filled : digits ≠ []
  digit : ∀ c ∈ digits, Text.isAsciiDigit c = true

/-- The token is an optional minus sign and digits, of this value. -/
inductive Spells : Text → Int → Prop where
  | plain {digits : Text} (all : IsDigits digits) : Spells digits (Int.ofNat (Nat.ofDigitChars 10 digits 0))
  | minus {digits : Text} (all : IsDigits digits) : Spells ('-' :: digits) (-Int.ofNat (Nat.ofDigitChars 10 digits 0))

/-- The integer fits in 128 bits with a sign. -/
def Fits (n : Int) : Prop := -Int.ofNat (Nat.pow 2 127) ≤ n ∧ n ≤ Int.ofNat (Nat.pow 2 127) - 1

theorem fits_iff {n : Int} : (decide (minInteger ≤ n) && decide (n ≤ maxInteger)) = true ↔ Fits n := by
  have bound : maxInteger = Int.ofNat (Nat.pow 2 127) - 1 := by decide
  rw [Bool.and_eq_true, decide_eq_true_eq, decide_eq_true_eq, bound]
  rfl

theorem isDigits_iff {digits : Text} : (digits.isEmpty || !digits.all Text.isAsciiDigit) = false ↔ IsDigits digits := by
  rw [Bool.or_eq_false_iff, List.isEmpty_eq_false_iff, Bool.not_eq_false', List.all_eq_true]
  exact ⟨fun ⟨filled, digit⟩ => ⟨filled, digit⟩, fun ⟨filled, digit⟩ => ⟨filled, digit⟩⟩

/-! ## Signs -/

theorem signed_of_head {token : Text} (other : token.head? ≠ some '-') : signed token = (false, token) := by
  unfold signed
  split
  · exact absurd rfl other
  · rfl

/-- A token is a minus sign and what follows it, or it has no sign. -/
theorem signed_cases (token : Text) :
    (∃ rest, token = '-' :: rest ∧ signed token = (true, rest)) ∨ signed token = (false, token) := by
  by_cases minus : token.head? = some '-'
  · obtain ⟨rest, rfl⟩ := List.head?_eq_some_iff.1 minus
    exact .inl ⟨rest, rfl, rfl⟩
  · exact .inr (signed_of_head minus)

theorem mem_signed {token : Text} {c : Char} (other : c ≠ '-') : c ∈ (signed token).2 ↔ c ∈ token := by
  rcases signed_cases token with ⟨rest, rfl, signed⟩ | signed <;> simp [signed, other]

/-- A token spells what its sign makes of its digits. -/
theorem spells_iff {token : Text} {value : Int} :
    Spells token value ↔ IsDigits (signed token).2 ∧
      value = if (signed token).1 then -Int.ofNat (Text.digitsValue (signed token).2)
        else Int.ofNat (Text.digitsValue (signed token).2) := by
  constructor
  · intro spells
    cases spells with
    | plain all =>
      rw [signed_of_head fun head => absurd (all.digit '-' (List.mem_of_mem_head? head)) (by decide)]
      exact ⟨all, rfl⟩
    | minus all => exact ⟨all, rfl⟩
  · rintro ⟨all, rfl⟩
    rcases signed_cases token with ⟨rest, rfl, -⟩ | signed
    · exact .minus all
    · rw [signed] at all ⊢
      exact .plain all

theorem integer_eq_some_iff {token : Text} {value : Int} :
    integer? token = some value ↔ Spells token value ∧ Fits value := by
  rw [spells_iff]
  simp only [integer?]
  by_cases all : IsDigits (signed token).2
  · rw [isDigits_iff.2 all, if_neg Bool.false_ne_true, and_iff_right all, ← fits_iff]
    constructor
    · intro found
      obtain ⟨fits, same⟩ := Option.ite_none_right_eq_some.1 found
      cases same
      exact ⟨rfl, fits⟩
    · rintro ⟨rfl, fits⟩
      exact if_pos fits
  · rw [if_pos (by rwa [← isDigits_iff, Bool.not_eq_false] at all)]
    simp [all]

/-! ## Numerals -/

/-- Digits of a class with at most one point among them, at least one digit. -/
inductive IsUnsigned (isDigit : Char → Bool) : Text → Prop where
  | whole {digits : Text} (filled : digits ≠ []) (digit : ∀ c ∈ digits, isDigit c = true) : IsUnsigned isDigit digits
  | pointed {whole fraction : Text} (filled : whole ++ fraction ≠ [])
      (digit : ∀ c ∈ whole ++ fraction, isDigit c = true) : IsUnsigned isDigit (whole ++ '.' :: fraction)

section Class

variable {isDigit isDigit' : Char → Bool} {t : Text}

theorem IsUnsigned.ne_nil (numeral : IsUnsigned isDigit t) : t ≠ [] := by
  cases numeral with
  | whole filled => exact filled
  | pointed => simp

theorem IsUnsigned.digit_or_point (numeral : IsUnsigned isDigit t) : ∀ c ∈ t, isDigit c = true ∨ c = '.' := by
  intro c mem
  cases numeral with
  | whole _ digit => exact .inl (digit c mem)
  | pointed _ digit =>
    rcases List.mem_append.1 mem with front | back
    · exact .inl (digit c (List.mem_append_left _ front))
    · rcases List.mem_cons.1 back with rfl | back
      · exact .inr rfl
      · exact .inl (digit c (List.mem_append_right _ back))

theorem IsUnsigned.mono (numeral : IsUnsigned isDigit t) (sub : ∀ c ∈ t, isDigit c = true → isDigit' c = true) :
    IsUnsigned isDigit' t := by
  cases numeral with
  | whole filled digit => exact .whole filled fun c mem => sub c mem (digit c mem)
  | pointed filled digit =>
    refine .pointed filled fun c mem => sub c ?_ (digit c mem)
    rw [List.mem_append] at mem ⊢
    exact mem.imp_right (List.mem_cons_of_mem _)

/-- What a numeral is, for a class of digits without the point. -/
theorem isSome_unsigned (point : isDigit '.' = false) (negative : Bool) :
    (unsigned? isDigit negative t).isSome = true ↔ IsUnsigned isDigit t := by
  constructor
  · intro found
    have split : t.takeWhile isDigit ++ t.dropWhile isDigit = t := List.takeWhile_append_dropWhile
    have digit : ∀ c ∈ t.takeWhile isDigit, isDigit c = true := fun c mem => List.mem_takeWhile_imp mem
    unfold unsigned? at found
    generalize t.takeWhile isDigit = whole at *
    generalize t.dropWhile isDigit = rest at *
    subst split
    split at found
    · rw [List.append_nil]
      exact .whole (by simpa using found) digit
    · rename_i fraction
      have shape : (∀ c ∈ fraction, isDigit c = true) ∧ (whole ≠ [] ∨ fraction ≠ []) := by simpa using found
      refine .pointed ?_ fun c mem => (List.mem_append.1 mem).elim (digit c) (shape.1 c)
      rw [ne_eq, List.append_eq_nil_iff, not_and_or]
      exact shape.2
    · cases found
  · intro numeral
    cases numeral with
    | whole filled digit =>
      rw [unsigned?, List.takeWhile_eq_self_iff.2 digit, List.dropWhile_eq_nil_iff.2 digit]
      simpa using filled
    | @pointed whole fraction filled digit =>
      rw [List.forall_mem_append] at digit
      have front : (whole ++ '.' :: fraction).takeWhile isDigit = whole := by
        rw [List.takeWhile_append_of_pos digit.1, List.takeWhile_cons_of_neg (by simp [point]), List.append_nil]
      have back : (whole ++ '.' :: fraction).dropWhile isDigit = '.' :: fraction := by
        rw [List.dropWhile_append_of_pos digit.1, List.dropWhile_cons_of_neg (by simp [point])]
      rw [ne_eq, List.append_eq_nil_iff, not_and_or] at filled
      rw [unsigned?, front, back]
      simpa using ⟨digit.2, filled⟩

theorem isSome_numeral (point : isDigit '.' = false) {token : Text} :
    (numeral? isDigit token).isSome = true ↔ IsUnsigned isDigit (signed token).2 := isSome_unsigned point _

end Class

theorem isNumeric_iff {token : Text} : isNumeric token = true ↔ IsUnsigned Text.isDigit (signed token).2 :=
  isSome_numeral (by decide)

theorem isSome_double {token : Text} :
    (double? token).isSome = true ↔ IsUnsigned Text.isAsciiDigit (signed token).2 := by
  rw [double?, Option.isSome_map, isSome_numeral (by decide)]

theorem isDigit_of_isAsciiDigit {c : Char} (digit : Text.isAsciiDigit c = true) : Text.isDigit c = true :=
  Text.of_isAsciiDigit (by decide) digit

theorem Spells.isUnsigned {token : Text} {value : Int} (spells : Spells token value) :
    IsUnsigned Text.isAsciiDigit (signed token).2 := by
  obtain ⟨all, -⟩ := spells_iff.1 spells
  exact .whole all.filled all.digit

theorem Spells.isNumeric {token : Text} {value : Int} (spells : Spells token value) : isNumeric token = true :=
  isNumeric_iff.2 (spells.isUnsigned.mono fun _ _ => isDigit_of_isAsciiDigit)

/-! ## Values of tokens -/

/-- The character can start a numeral. -/
def isNumeralStart (c : Char) : Bool := Text.isDigit c || c == '.' || c == '-'

theorem head_of_isNumeric {token : Text} (numeric : isNumeric token = true) :
    ∃ c rest, token = c :: rest ∧ isNumeralStart c = true := by
  have numeral := isNumeric_iff.1 numeric
  rcases signed_cases token with ⟨rest, rfl, -⟩ | signed
  · exact ⟨'-', rest, rfl, rfl⟩
  · rw [signed] at numeral
    obtain ⟨c, rest, rfl⟩ := List.exists_cons_of_ne_nil numeral.ne_nil
    refine ⟨c, rest, rfl, ?_⟩
    rcases numeral.digit_or_point c List.mem_cons_self with digit | rfl
    · rw [isNumeralStart, digit, Bool.true_or, Bool.true_or]
    · rfl

/-- No numeral starts like a quoted token or like one of the words. -/
theorem differs_of_isNumeralStart {c : Char} (start : isNumeralStart c = true) :
    Text.isQuote c = false ∧ c.toLower ∉ ['n', 't', 'f'] := by
  let apart (c : Char) : Bool := !isNumeralStart c || (!Text.isQuote c && !(['n', 't', 'f'].contains c.toLower))
  have ascii (small : c.toNat < 128) : Text.isQuote c = false ∧ c.toLower ∉ ['n', 't', 'f'] := by
    have check : apart c = true := Text.forall_ascii (by decide) small
    simpa [apart, start] using check
  constructor
  · by_contra quote
    simp only [Text.isQuote, Bool.not_eq_false, Bool.or_eq_true, beq_iff_eq] at quote
    rcases quote with rfl | rfl <;> exact absurd start (by decide)
  · intro letter
    have small : c.toNat < 128 := by
      rcases Text.toLower_cases c with same | ⟨low, -⟩
      · rw [same] at letter
        simp only [List.mem_cons, List.not_mem_nil, or_false] at letter
        rcases letter with rfl | rfl | rfl <;> decide
      · exact Nat.lt_succ_of_le (UInt32.le_iff_toNat_le.1 low)
    exact (ascii small).2 letter

theorem not_sameWord_of_head {c : Char} {rest word : Text} (other : (Text.lower word).head? ≠ some c.toLower) :
    Text.sameWord (c :: rest) word = false := by
  rw [Text.sameWord, beq_eq_false_iff_ne]
  intro same
  exact other (same ▸ rfl)

theorem ofToken_of_isNumeric {raw : Text} (numeric : isNumeric (Text.trim raw) = true) :
    ofToken raw = ofNumeric (Text.trim raw) := by
  obtain ⟨c, rest, token, start⟩ := head_of_isNumeric numeric
  obtain ⟨quote, letters⟩ := differs_of_isNumeralStart start
  have bare : unquote? (c :: rest) = none := by
    rw [unquote?, quote]
    rfl
  have word {w : Text} {k : Char} (head : (Text.lower w).head? = some k) (listed : k ∈ ['n', 't', 'f']) :
      Text.sameWord (c :: rest) w = false := by
    refine not_sameWord_of_head fun same => letters ?_
    rw [head] at same
    exact Option.some.inj same ▸ listed
  have null : Text.sameWord (c :: rest) "null" = false := word rfl (by decide)
  have yes : Text.sameWord (c :: rest) "true" = false := word rfl (by decide)
  have no : Text.sameWord (c :: rest) "false" = false := word rfl (by decide)
  rw [token] at numeric
  simp only [ofToken, token, bare, null, yes, no, numeric]
  rfl

theorem ofNumeric_eq_integer_iff {token : Text} {value : Int} :
    ofNumeric token = .integer value ↔ integer? token = some value := by
  unfold ofNumeric
  cases integer? token with
  | some found => simp
  | none => cases double? token <;> simp

/-- Only a token that looks like a number is an integer. -/
theorem isNumeric_of_integer {raw : Text} {value : Int} (integer : ofToken raw = .integer value) :
    isNumeric (Text.trim raw) = true := by
  by_contra other
  rw [Bool.not_eq_true] at other
  simp only [ofToken, other] at integer
  split at integer
  · cases integer
  · split at integer
    · cases integer
    · split at integer
      · cases integer
      · split at integer
        · cases integer
        · split at integer <;> cases integer

theorem ofToken_eq_integer_iff {raw : Text} {value : Int} :
    ofToken raw = .integer value ↔ Spells (Text.trim raw) value ∧ Fits value := by
  rw [← integer_eq_some_iff]
  constructor
  · intro integer
    rw [ofToken_of_isNumeric (isNumeric_of_integer integer)] at integer
    exact ofNumeric_eq_integer_iff.1 integer
  · intro found
    rw [ofToken_of_isNumeric (integer_eq_some_iff.1 found).1.isNumeric]
    exact ofNumeric_eq_integer_iff.2 found

/-- A token that spells no exact integer has a double for its value, if it is written in the digits `0` to `9`. -/
theorem ofNumeric_of_none {token : Text} (inexact : integer? token = none) :
    ofNumeric token = (double? token).elim (.string token) .number := by
  unfold ofNumeric
  rw [inexact]
  cases double? token <;> rfl

/-- A token stays a string if it is no numeral in the digits `0` to `9`: every integer is such a numeral. -/
theorem ofNumeric_eq_string_iff {token : Text} :
    ofNumeric token = .string token ↔ ¬ IsUnsigned Text.isAsciiDigit (signed token).2 := by
  rw [← isSome_double, Bool.not_eq_true, Option.isSome_eq_false_iff, Option.isNone_iff_eq_none]
  cases integer : integer? token with
  | none =>
    rw [ofNumeric_of_none integer]
    cases double? token <;> simp
  | some value =>
    have read := isSome_double.2 (integer_eq_some_iff.1 integer).1.isUnsigned
    rw [ofNumeric_eq_integer_iff.2 integer, ← Option.isNone_iff_eq_none, ← Option.not_isSome, read]
    simp

/-- The digits behind a sign are the digits of the token. -/
theorem isDigit_mem_signed {token : Text} {c : Char} (digit : Text.isDigit c = true) :
    c ∈ (signed token).2 ↔ c ∈ token :=
  mem_signed fun same => absurd (same ▸ digit) (by decide)

/-- A token that looks like a number stays a string if and only if one of its digits is of another script. -/
theorem ofToken_foreign_iff {raw : Text} (numeric : isNumeric (Text.trim raw) = true) :
    ofToken raw = .string (Text.trim raw) ↔
      ∃ c ∈ Text.trim raw, Text.isDigit c = true ∧ Text.isAsciiDigit c = false := by
  rw [ofToken_of_isNumeric numeric, ofNumeric_eq_string_iff]
  constructor
  · intro unread
    by_contra native
    refine unread ((isNumeric_iff.1 numeric).mono fun c mem digit => ?_)
    by_contra foreign
    exact native ⟨c, (isDigit_mem_signed digit).1 mem, digit, Bool.not_eq_true _ ▸ foreign⟩
  · rintro ⟨c, mem, digit, foreign⟩ numeral
    rcases numeral.digit_or_point c ((isDigit_mem_signed digit).2 mem) with ascii | rfl
    · rw [foreign] at ascii
      cases ascii
    · exact absurd digit (by decide)

/-! ## Canonical decimals -/

/-- No zero stands in front of another digit, and no sign in front of a zero. -/
def isCanonical : Text → Bool
  | '-' :: digits => digits.head? != some '0'
  | digits => digits.head? != some '0' || digits == ['0']

theorem isCanonical_minus {digits : Text} : isCanonical ('-' :: digits) = true ↔ digits.head? ≠ some '0' := bne_iff_ne

theorem isCanonical_plain {digits : Text} (all : IsDigits digits) :
    isCanonical digits = true ↔ (digits.head? = some '0' → digits = ['0']) := by
  unfold isCanonical
  split
  · exact absurd (all.digit '-' List.mem_cons_self) (by decide)
  · rw [Bool.or_eq_true, bne_iff_ne, beq_iff_eq, imp_iff_not_or]

theorem isDigits_toDigits (n : Nat) : IsDigits (Nat.toDigits 10 n) where
  filled := Nat.toDigits_ne_nil
  digit _ mem := Nat.isDigit_of_mem_toDigits (by decide) (by decide) mem

theorem head_toDigits {n : Nat} (zero : (Nat.toDigits 10 n).head? = some '0') : n = 0 := by
  induction n using Nat.strongRecOn with
  | ind n ih =>
    by_cases small : n < 10
    · rw [Nat.toDigits_of_lt_base small, List.head?_cons, Option.some.injEq] at zero
      exact Nat.digitChar_eq_zero.1 zero
    · rw [Nat.toDigits_of_base_le (by decide) (by omega), List.head?_append_of_ne_nil _ Nat.toDigits_ne_nil] at zero
      have := ih (n / 10) (by omega) zero
      omega

theorem isDigit_value {c : Char} (digit : Text.isAsciiDigit c = true) :
    c.toNat - '0'.toNat < 10 ∧ Nat.digitChar (c.toNat - '0'.toNat) = c := by
  have range : 48 ≤ c.toNat ∧ c.toNat ≤ 57 := Char.isDigit_iff_toNat.1 digit
  have small : c.toNat - '0'.toNat < 10 := show c.toNat - 48 < 10 by omega
  refine ⟨small, Char.toNat_inj.1 ?_⟩
  rw [Nat.toNat_digitChar_of_lt_ten small]
  exact show 48 + (c.toNat - 48) = c.toNat by omega

/-- Digits without a leading zero are the decimal of their value. -/
theorem toDigits_ofDigitChars {digits : Text} (all : IsDigits digits)
    (canonical : digits.head? = some '0' → digits = ['0']) :
    Nat.toDigits 10 (Nat.ofDigitChars 10 digits 0) = digits := by
  induction digits using List.reverseRecOn with
  | nil => exact absurd rfl all.filled
  | append_singleton front c ih =>
    obtain ⟨small, char⟩ := isDigit_value (all.digit c (by simp))
    have last : Nat.toDigits 10 (c.toNat - '0'.toNat) = [c] := by rw [Nat.toDigits_of_lt_base small, char]
    rw [Nat.ofDigitChars_append, Nat.ofDigitChars_cons, Nat.ofDigitChars_nil]
    by_cases empty : front = []
    · subst empty
      rw [Nat.ofDigitChars_nil, Nat.mul_zero, Nat.zero_add, last, List.nil_append]
    · -- What stands before the last digit has no leading zero either, and so its value is not zero.
      have lead : front.head? ≠ some '0' := by
        intro zero
        have alone := canonical (by rw [List.head?_append_of_ne_nil _ empty, zero])
        exact empty (List.append_eq_singleton_iff.1 alone |>.elim (·.1) fun one => by cases one.2)
      have whole := ih ⟨empty, fun d mem => all.digit d (List.mem_append_left _ mem)⟩ fun zero => absurd zero lead
      have positive : 0 < Nat.ofDigitChars 10 front 0 := by
        rw [Nat.pos_iff_ne_zero]
        intro zero
        rw [zero, Nat.toDigits_zero] at whole
        rw [← whole] at lead
        exact lead rfl
      rw [← Nat.toDigits_append_toDigits (by decide) positive small, whole, last]

theorem toDigits_eq_iff {n : Nat} {digits : Text} :
    Nat.toDigits 10 n = digits ↔
      IsDigits digits ∧ Nat.ofDigitChars 10 digits 0 = n ∧ (digits.head? = some '0' → digits = ['0']) := by
  constructor
  · rintro rfl
    refine ⟨isDigits_toDigits n, Nat.ofDigitChars_ten_toDigits, fun zero => ?_⟩
    rw [head_toDigits zero, Nat.toDigits_zero]
  · rintro ⟨all, rfl, canonical⟩
    exact toDigits_ofDigitChars all canonical

/-- The decimal of an integer is the one canonical token that spells it. -/
theorem integerText_eq_iff {n : Int} {t : Text} : integerText n = t ↔ Spells t n ∧ isCanonical t = true := by
  constructor
  · rintro rfl
    cases n with
    | ofNat n =>
      obtain ⟨all, value, canonical⟩ := toDigits_eq_iff.1 (rfl : Nat.toDigits 10 n = _)
      have spells := Spells.plain all
      rw [value] at spells
      exact ⟨spells, (isCanonical_plain all).2 canonical⟩
    | negSucc n =>
      obtain ⟨all, value, -⟩ := toDigits_eq_iff.1 (rfl : Nat.toDigits 10 (n + 1) = _)
      have spells := Spells.minus all
      rw [value] at spells
      exact ⟨spells, isCanonical_minus.2 fun zero => Nat.succ_ne_zero n (head_toDigits zero)⟩
  · rintro ⟨spells, canonical⟩
    cases spells with
    | plain all => exact toDigits_eq_iff.2 ⟨all, rfl, (isCanonical_plain all).1 canonical⟩
    | @minus digits all =>
      have canonical := isCanonical_minus.1 canonical
      have whole : Nat.toDigits 10 (Nat.ofDigitChars 10 digits 0) = digits :=
        toDigits_ofDigitChars all fun zero => absurd zero canonical
      cases value : Nat.ofDigitChars 10 digits 0 with
      | zero =>
        rw [value, Nat.toDigits_zero] at whole
        exact absurd (whole ▸ rfl) canonical
      | succ m =>
        rw [value] at whole
        exact congrArg ('-' :: ·) whole

/-- **Integers are exact as far as 128 bits go.** A token is an integer if and only if it is an optional minus sign and
digits and their value fits in 128 bits with a sign; its code is then the canonical decimal of the value. Such a token
of another value is a double. -/
theorem ofToken_integer (raw : Text) :
    (∀ n, ofToken raw = .integer n ↔ Spells (Text.trim raw) n ∧ Fits n) ∧
    (∀ n, ofToken raw = .integer n → ∀ target t,
      ((ofToken raw).code target).text = t ↔ Spells t n ∧ isCanonical t = true) ∧
    ∀ n, Spells (Text.trim raw) n → ¬ Fits n → ∃ x, ofToken raw = .number x := by
  refine ⟨fun n => ofToken_eq_integer_iff, ?_, ?_⟩
  · intro n integer target t
    rw [integer]
    exact integerText_eq_iff
  · intro n spells wide
    have inexact : integer? (Text.trim raw) = none := by
      refine Option.eq_none_iff_forall_ne_some.2 fun m found => ?_
      obtain ⟨again, fits⟩ := integer_eq_some_iff.1 found
      exact wide ((spells_iff.1 again).2.trans (spells_iff.1 spells).2.symm ▸ fits)
    obtain ⟨x, read⟩ := Option.isSome_iff_exists.1 (isSome_double.2 spells.isUnsigned)
    refine ⟨x, ?_⟩
    rw [ofToken_of_isNumeric spells.isNumeric, ofNumeric_of_none inexact, read]
    rfl

/-- The least integer is exact, also with zeros in front of it; one less is a double. -/
theorem ofToken_integer_least :
    let token : Text := "\u00a0-00170141183460469231731687303715884105728\t"
    Spells (Text.trim token) (-170141183460469231731687303715884105728) ∧
    ofToken token = .integer (-170141183460469231731687303715884105728) ∧
    (∀ target, ((ofToken token).code target).text = "-170141183460469231731687303715884105728".toList) ∧
    ∃ x, ofToken "-170141183460469231731687303715884105729" = .number x := by
  intro token
  obtain ⟨integer, canonical, -⟩ := ofToken_integer token
  have spells : Spells (Text.trim token) (-170141183460469231731687303715884105728) :=
    .minus ⟨by decide, List.all_eq_true.1 (by decide)⟩
  have least := (integer _).2 ⟨spells, by decide, by decide⟩
  refine ⟨spells, least, fun target => (canonical _ least target _).2 ⟨?_, by decide⟩, ?_⟩
  · exact .minus ⟨by decide, List.all_eq_true.1 (by decide)⟩
  · have below : Spells "-170141183460469231731687303715884105729".toList (-170141183460469231731687303715884105729) :=
      .minus ⟨by decide, List.all_eq_true.1 (by decide)⟩
    exact (ofToken_integer _).2.2 _ below fun fits => absurd fits.1 (by decide)

end Literal
end QueryCode
