import QueryCode.Calendar
import QueryCode.Proofs.Text.Word

/-!
# Dates and their texts

A date is written as four, two and two digits with hyphens between them. Of the texts of this shape, also those in the
digits of other scripts, the reader takes exactly the existing dates in the digits `0` to `9`.
-/

namespace QueryCode
set_option autoImplicit false

namespace Calendar

open Text (isDigit isAsciiDigit digitsValue of_isAsciiDigit)

/-! ## Written dates -/

/-- The numbers of a date as they are written. -/
structure Written where
  year : Text
  month : Text
  day : Text

namespace Written

/-- The date as it is written, with hyphens. -/
def text (d : Written) : Text := d.year ++ '-' :: (d.month ++ '-' :: d.day)

/-- Four, two and two characters of a class. -/
structure MadeOf (d : Written) (digit : Char → Bool) : Prop where
  year : d.year.length = 4 ∧ ∀ c ∈ d.year, digit c = true
  month : d.month.length = 2 ∧ ∀ c ∈ d.month, digit c = true
  day : d.day.length = 2 ∧ ∀ c ∈ d.day, digit c = true

variable {d : Written} {digit : Char → Bool}

theorem MadeOf.length (made : d.MadeOf digit) : d.text.length = 10 := by
  rw [text, List.length_append, List.length_cons, List.length_append, List.length_cons, made.year.1, made.month.1, made.day.1]

theorem MadeOf.mem (made : d.MadeOf digit) {c : Char} (mem : c ∈ d.text) : digit c = true ∨ c = '-' := by
  rw [text, List.mem_append, List.mem_cons, List.mem_append, List.mem_cons] at mem
  rcases mem with year | rfl | month | rfl | day
  · exact .inl (made.year.2 c year)
  · exact .inr rfl
  · exact .inl (made.month.2 c month)
  · exact .inr rfl
  · exact .inl (made.day.2 c day)

theorem MadeOf.mono {digit' : Char → Bool} (made : d.MadeOf digit)
    (narrow : ∀ c ∈ d.text, digit c = true → digit' c = true) : d.MadeOf digit' := by
  refine ⟨⟨made.year.1, fun c mem => narrow c ?_ (made.year.2 c mem)⟩,
    ⟨made.month.1, fun c mem => narrow c ?_ (made.month.2 c mem)⟩, made.day.1, fun c mem => narrow c ?_ (made.day.2 c mem)⟩
  all_goals simp [text, mem]

end Written

/-- The text is an existing date. -/
def IsDateText (t : Text) : Prop :=
  ∃ d : Written, d.MadeOf isAsciiDigit ∧ t = d.text ∧
    isDate (digitsValue d.year) (digitsValue d.month) (digitsValue d.day) = true

/-! ## Reading -/

theorem readNumber_digits {n : Nat} {digits : Text} (length : digits.length = n + 1)
    (ascii : ∀ c ∈ digits, isAsciiDigit c = true) (rest : Text) :
    readNumber (n + 1) (digits ++ rest) = some (digitsValue digits, rest) := by
  have filled : digits ≠ [] := by
    rintro rfl
    cases length
  have start : Text.trimStart (digits ++ rest) = digits ++ rest := by
    obtain ⟨c, more, rfl⟩ := List.exists_cons_of_ne_nil filled
    have solid := of_isAsciiDigit (p := fun c => !Text.isBlank c) (by decide) (ascii c List.mem_cons_self)
    rw [Text.trimStart, List.cons_append, List.dropWhile_cons_of_neg (by simpa using solid)]
  have taken : ((digits ++ rest).take (n + 1)).takeWhile isAsciiDigit = digits := by
    rw [← length, List.take_left, List.takeWhile_eq_self_iff.2 ascii]
  unfold readNumber
  dsimp only
  rw [start, taken, if_neg (by simpa using filled), List.drop_left]

theorem readYear_digits {digits : Text} (length : digits.length = 4) (ascii : ∀ c ∈ digits, isAsciiDigit c = true)
    (rest : Text) : readYear (digits ++ rest) = some (Int.ofNat (digitsValue digits), rest) := by
  have read := readNumber_digits length ascii rest
  obtain ⟨c, more, rfl⟩ : ∃ c more, digits = c :: more := List.exists_cons_of_ne_nil (by rintro rfl; cases length)
  have digit := ascii c List.mem_cons_self
  have solid := of_isAsciiDigit (p := fun c => !Text.isBlank c) (by decide) digit
  have unsigned := of_isAsciiDigit (p := fun c => c != '-' && c != '+') (by decide) digit
  rw [Bool.and_eq_true, bne_iff_ne, bne_iff_ne] at unsigned
  have start : Text.trimStart (c :: more ++ rest) = c :: more ++ rest := by
    rw [Text.trimStart, List.cons_append, List.dropWhile_cons_of_neg (by simpa using solid)]
  unfold readYear
  rw [start]
  split
  · rename_i same
    exact absurd (List.cons.inj same).1 unsigned.1
  · rename_i same
    exact absurd (List.cons.inj same).1 unsigned.2
  · rw [read]
    rfl

/-- **A date in the digits `0` to `9` is read as its numbers.** -/
theorem readDate_text {d : Written} (made : d.MadeOf isAsciiDigit) :
    readDate d.text = some (Int.ofNat (digitsValue d.year), digitsValue d.month, digitsValue d.day) := by
  have hyphen (t : Text) : Text.after? "-" ('-' :: t) = some t := rfl
  have day : readNumber 2 d.day = some (digitsValue d.day, []) := by
    have read := readNumber_digits made.day.1 made.day.2 []
    rwa [List.append_nil] at read
  unfold readDate
  rw [Written.text, readYear_digits made.year.1 made.year.2, Option.bind_eq_bind, Option.bind_some]
  dsimp only
  rw [hyphen, Option.bind_eq_bind, Option.bind_some, readNumber_digits made.month.1 made.month.2, Option.bind_eq_bind,
    Option.bind_some]
  dsimp only
  rw [hyphen, Option.bind_some, day]
  rfl

/-- As many bytes as characters are left only for characters of one byte. -/
theorem toNat_lt_of_size {t : Text} (bytes : Text.size t ≤ t.length) : ∀ c ∈ t, c.toNat < 128 := by
  have least (t : Text) : t.length ≤ Text.size t := by
    induction t with
    | nil => exact le_refl 0
    | cons c t ih =>
      have := c.utf8Size_pos
      rw [Text.size, List.length_cons]
      omega
  induction t with
  | nil =>
    intro c mem
    cases mem
  | cons c t ih =>
    have one := c.utf8Size_pos
    have rest := least t
    rw [Text.size, List.length_cons] at bytes
    intro d mem
    rcases List.mem_cons.1 mem with rfl | later
    · have single : d.utf8Size = 1 := by omega
      have code := Char.utf8Size_eq_one_iff.1 single
      exact Nat.lt_succ_of_le code
    · exact ih (by omega) d later

theorem size_of_ascii {t : Text} (ascii : ∀ c ∈ t, c.toNat < 128) : Text.size t = t.length := by
  induction t with
  | nil => rfl
  | cons c t ih =>
    obtain ⟨here, later⟩ := List.forall_mem_cons.1 ascii
    have single : c.utf8Size = 1 := Char.utf8Size_eq_one_iff.2 (Nat.le_of_lt_succ here)
    rw [Text.size, single, ih later, List.length_cons, Nat.add_comm]

/-- **Of the texts in the shape of a date exactly the existing dates are taken.** -/
theorem isIsoDate_iff {d : Written} (made : d.MadeOf isDigit) : isIsoDate d.text = true ↔ IsDateText d.text := by
  constructor
  · intro taken
    rw [isIsoDate, Bool.and_eq_true, beq_iff_eq] at taken
    obtain ⟨bytes, exists'⟩ := taken
    have ascii := toNat_lt_of_size (t := d.text) (by rw [bytes, made.length])
    -- a digit of one byte is one of the digits `0` to `9`
    have narrow : ∀ c ∈ d.text, isDigit c = true → isAsciiDigit c = true := by
      intro c mem digit
      have held : (!isDigit c || isAsciiDigit c) = true :=
        Text.forall_ascii (p := fun c => !isDigit c || isAsciiDigit c) (by decide) (ascii c mem)
      simpa [digit] using held
    have made' := made.mono narrow
    rw [readDate_text made'] at exists'
    exact ⟨d, made', rfl, exists'⟩
  · rintro ⟨d', made', same, exists'⟩
    have ascii : ∀ c ∈ d'.text, c.toNat < 128 := by
      intro c mem
      rcases made'.mem mem with digit | rfl
      · simpa using of_isAsciiDigit (p := fun c => decide (c.toNat < 128)) (by decide) digit
      · decide
    rw [isIsoDate, same, Bool.and_eq_true, beq_iff_eq, size_of_ascii ascii, made'.length, readDate_text made']
    exact ⟨rfl, exists'⟩

end Calendar
end QueryCode
