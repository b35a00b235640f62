import QueryCode.Proofs.Text.Scan
import QueryCode.Statement.Association

/-!
# Key equations as they are written

A key equation is two columns with their tables and an equals sign between them. Each of the four names can have a
backtick at either end, whether or not there is one at the other, and white space of any kind can stand around the
sign. `EquationText` has exactly the texts that are read as key equations.
-/

namespace QueryCode
set_option autoImplicit false

namespace Association

open Text (isWord isBlank Blank)
open Text.Cursor Text.Scan

/-! ## Names -/

/-- A backtick, or nothing. -/
def tickMark (there : Bool) : Text := if there then ['\x60'] else []

theorem tickMark_false : tickMark false = [] := rfl

/-- The text is made of word characters, and of at least one. -/
def isWords (t : Text) : Bool := !t.isEmpty && t.all isWord

theorem isWords_iff {t : Text} : isWords t = true ↔ t ≠ [] ∧ ∀ c ∈ t, isWord c = true := by
  simp [isWords]

/-- A name of word characters with a backtick before it, after it, at both ends or at none. -/
structure NameText where
  opened : Bool
  name : Text
  closed : Bool
  words : isWords name = true

namespace NameText

theorem filled (n : NameText) : n.name ≠ [] := (isWords_iff.1 n.words).1

theorem word (n : NameText) : ∀ c ∈ n.name, isWord c = true := (isWords_iff.1 n.words).2

/-- The name with its backticks. -/
def text (n : NameText) : Text := tickMark n.opened ++ (n.name ++ tickMark n.closed)

theorem text_append (n : NameText) (t : Text) :
    n.text ++ t = tickMark n.opened ++ (n.name ++ (tickMark n.closed ++ t)) := by simp [text]

/-- The name cannot go on in the text after it. -/
def Ends (n : NameText) (after : Text) : Prop :=
  n.closed = false → after.head?.any isWord = false ∧ after.head? ≠ some '\x60'

theorem exists_cons (n : NameText) : ∃ c rest, n.name = c :: rest ∧ isWord c = true := by
  obtain ⟨c, rest, eq⟩ := List.exists_cons_of_ne_nil n.filled
  exact ⟨c, rest, eq, n.word c (by rw [eq]; exact List.mem_cons_self)⟩

theorem ends_blank (n : NameText) {gap : Text} (blank : Blank gap) (t : Text) : n.Ends (gap ++ '=' :: t) := by
  intro _
  cases gap with
  | nil => exact ⟨rfl, by simp⟩
  | cons c gap =>
    have first : isBlank c = true := blank c List.mem_cons_self
    refine ⟨Text.not_isWord_of_isBlank first, ?_⟩
    rintro ⟨⟩
    exact absurd first (by decide)

theorem mem_text {n : NameText} {c : Char} (mem : c ∈ n.text) : isWord c = true ∨ c = '\x60' := by
  have ticks {there : Bool} (mem : c ∈ tickMark there) : c = '\x60' := by
    cases there with
    | false => cases mem
    | true => exact List.mem_singleton.1 mem
  rcases List.mem_append.1 mem with first | mem
  · exact .inr (ticks first)
  · rcases List.mem_append.1 mem with name | last
    · exact .inl (n.word c name)
    · exact .inr (ticks last)

end NameText

section Scans

variable {before rest : Text} {stop : Text.Cursor}

theorem tick_some {u : Unit} :
    tick (between before rest) = some (u, stop) ↔
      ∃ there after, rest = tickMark there ++ after ∧ (there = false → after.head? ≠ some '\x60') ∧
        stop = between (before ++ tickMark there) after := by
  simp only [tick, discard_some, opt_some]
  constructor
  · rintro ⟨found, ⟨rfl, rfl, missed⟩ | ⟨c, rfl, found⟩⟩
    · refine ⟨false, rest, rfl, fun _ head => ?_, by rw [tickMark_false, List.append_nil]⟩
      obtain ⟨after, rfl⟩ := List.head?_eq_some_iff.1 head
      have taken : char '\x60' (between before ('\x60' :: after)) = some _ := one_some.2 ⟨after, rfl, rfl, rfl⟩
      rw [missed] at taken
      cases taken
    · obtain ⟨after, rfl, same, rfl⟩ := one_some.1 found
      obtain rfl := beq_iff_eq.1 same
      exact ⟨true, after, rfl, by simp, rfl⟩
  · rintro ⟨there, after, rfl, ends, rfl⟩
    cases there with
    | true => exact ⟨some '\x60', .inr ⟨'\x60', rfl, one_some.2 ⟨after, rfl, rfl, rfl⟩⟩⟩
    | false =>
      refine ⟨none, .inl ⟨rfl, by rw [tickMark_false, List.append_nil, List.nil_append], ?_⟩⟩
      rw [Option.eq_none_iff_forall_ne_some]
      rintro ⟨c, stop⟩ found
      obtain ⟨more, eq, same, _⟩ := one_some.1 found
      obtain rfl := beq_iff_eq.1 same
      exact ends rfl (by rw [show after = '\x60' :: more from eq, List.head?_cons])

/-- A name in optional backticks is read as far as it goes, and then what follows. -/
theorem name_some {α : Type} {f : Text → Text.Scan α} {a : α} :
    (do tick; let name ← run1 isWord; tick; f name : Text.Scan α) (between before rest) = some (a, stop) ↔
      ∃ (n : NameText) (after : Text), rest = n.text ++ after ∧ n.Ends after ∧
        f n.name (between (before ++ n.text) after) = some (a, stop) := by
  simp only [bind_some]
  constructor
  · rintro ⟨_, _, first, name, _, taken, _, _, last, found⟩
    obtain ⟨opened, rest, rfl, _, rfl⟩ := tick_some.1 first
    obtain ⟨rest, rfl, filled, word, ends, rfl⟩ := run1_some.1 taken
    obtain ⟨closed, rest, rfl, alone, rfl⟩ := tick_some.1 last
    refine ⟨⟨opened, name, closed, isWords_iff.2 ⟨filled, word⟩⟩, rest, by simp [NameText.text], ?_, ?_⟩
    · rintro rfl
      exact ⟨ends, alone rfl⟩
    · simpa [NameText.text] using found
  · rintro ⟨n, after, rfl, ends, found⟩
    obtain ⟨c, more, eq, first⟩ := n.exists_cons
    have alone : (n.name ++ (tickMark n.closed ++ after)).head? ≠ some '\x60' := by
      rw [eq]
      rintro ⟨⟩
      exact absurd first (by decide)
    have edge : (tickMark n.closed ++ after).head?.any isWord = false := by
      cases closed : n.closed with
      | true => exact (by decide : isWord '\x60' = false)
      | false => exact (ends closed).1
    have first : tick (between before (n.text ++ after)) = some ((), _) :=
      tick_some.2 ⟨n.opened, _, n.text_append after, fun _ => alone, rfl⟩
    have taken (u : Text) : run1 isWord (between u (n.name ++ (tickMark n.closed ++ after))) = some (n.name, _) :=
      run1_some.2 ⟨_, rfl, n.filled, n.word, edge, rfl⟩
    have last (u : Text) : tick (between u (tickMark n.closed ++ after)) = some ((), _) :=
      tick_some.2 ⟨n.closed, after, rfl, fun closed => (ends closed).2, rfl⟩
    refine ⟨(), _, first, n.name, _, taken _, (), _, last _, ?_⟩
    simpa [NameText.text] using found

end Scans

/-! ## Keys -/

/-- A table and a column with a point between them. -/
structure KeyText where
  table : NameText
  column : NameText

namespace KeyText

/-- The key with its backticks. -/
def text (k : KeyText) : Text := k.table.text ++ '.' :: k.column.text

/-- The names alone. -/
def key (k : KeyText) : Key := ⟨k.table.name, k.column.name⟩

theorem text_ne_nil (k : KeyText) : k.text ≠ [] := by simp [text]

theorem mem_text {k : KeyText} {c : Char} (mem : c ∈ k.text) : isWord c = true ∨ c = '\x60' ∨ c = '.' := by
  rcases List.mem_append.1 mem with table | mem
  · exact (NameText.mem_text table).imp_right .inl
  · rcases List.mem_cons.1 mem with rfl | column
    · exact .inr (.inr rfl)
    · exact (NameText.mem_text column).imp_right .inl

/-- A character that is none of those of a key. -/
theorem ne_of_mem_text {k : KeyText} {c d : Char} (mem : c ∈ k.text) (other : isWord d = false) (tick : d ≠ '\x60')
    (point : d ≠ '.') : c ≠ d := by
  rintro rfl
  rcases mem_text mem with word | rfl | rfl
  · rw [other] at word
    cases word
  · exact tick rfl
  · exact point rfl

theorem not_isBlank {k : KeyText} {c : Char} (mem : c ∈ k.text) : isBlank c = false := by
  rcases mem_text mem with word | rfl | rfl
  · exact Text.not_isBlank_of_isWord word
  · rfl
  · rfl

theorem isSolid_text (k : KeyText) : Text.IsSolid k.text := Text.isSolid_of_class k.text_ne_nil fun _ mem => not_isBlank mem

end KeyText

/-- A key is read from its text, and what is read is the text of a key. -/
theorem key_some {before rest : Text} {k : Key} {stop : Text.Cursor} :
    key (between before rest) = some (k, stop) ↔
      ∃ (w : KeyText) (after : Text), rest = w.text ++ after ∧ w.column.Ends after ∧ w.key = k ∧
        stop = between (before ++ w.text) after := by
  unfold key
  rw [name_some]
  constructor
  · rintro ⟨table, rest, rfl, _, found⟩
    obtain ⟨_, _, point, found⟩ := bind_some.1 found
    obtain ⟨c, point⟩ := discard_some.1 point
    obtain ⟨rest, rfl, same, rfl⟩ := one_some.1 point
    obtain rfl := beq_iff_eq.1 same
    obtain ⟨column, after, rfl, ends, found⟩ := name_some.1 found
    obtain ⟨rfl, rfl⟩ := pure_some.1 found
    exact ⟨⟨table, column⟩, after, by simp [KeyText.text], ends, rfl, by simp [KeyText.text]⟩
  · rintro ⟨w, after, rfl, ends, rfl, rfl⟩
    refine ⟨w.table, '.' :: (w.column.text ++ after), by simp [KeyText.text], fun _ => ⟨rfl, by simp⟩, ?_⟩
    refine bind_some.2 ⟨(), _, discard_some.2 ⟨'.', one_some.2 ⟨_, rfl, rfl, rfl⟩⟩, ?_⟩
    exact name_some.2 ⟨w.column, after, rfl, ends, by simp [KeyText.text, KeyText.key, pure]⟩

/-! ## Equations -/

/-- Two keys with an equals sign and white space between them. -/
structure EquationText where
  left : KeyText
  before : Text
  after : Text
  right : KeyText
  blank : Blank before
  blank' : Blank after

namespace EquationText

/-- The equation with its white space and backticks. -/
def text (e : EquationText) : Text := e.left.text ++ (e.before ++ '=' :: (e.after ++ e.right.text))

theorem isSolid_text (e : EquationText) : Text.IsSolid e.text := by
  have whole : e.text = e.left.text ++ (e.before ++ '=' :: e.after ++ e.right.text) := by simp [text]
  rw [whole]
  exact e.left.isSolid_text.append e.right.isSolid_text _

end EquationText

/-- **The texts of key equations.** A text is read as an equation of two keys exactly if it is one of their texts. -/
theorem whole_equation {t : Text} {left right : Key} :
    whole? equation t = some (left, right) ↔
      ∃ e : EquationText, e.text = t ∧ e.left.key = left ∧ e.right.key = right := by
  rw [whole_eq_some_iff]
  unfold equation
  simp only [bind_some, discard_some, pure_some]
  constructor
  · rintro ⟨stop, ⟨_, _, first, _, _, gap, _, _, ⟨c, sign⟩, _, _, gap', _, _, second, same, rfl⟩, ends⟩
    obtain ⟨l, rest, rfl, _, rfl, rfl⟩ := key_some.1 first
    obtain ⟨before, rest, rfl, blank, _, rfl⟩ := blanks_some.1 gap
    obtain ⟨rest, rfl, equals, rfl⟩ := one_some.1 sign
    obtain ⟨after, rest, rfl, blank', _, rfl⟩ := blanks_some.1 gap'
    obtain ⟨r, rest, rfl, _, rfl, rfl⟩ := key_some.1 second
    obtain rfl := beq_iff_eq.1 equals
    rw [rest_between] at ends
    subst ends
    cases same
    exact ⟨⟨l, before, after, r, blank, blank'⟩, by simp [EquationText.text], rfl, rfl⟩
  · rintro ⟨e, rfl, rfl, rfl⟩
    have first : key (between [] e.text) = some (e.left.key, _) :=
      key_some.2 ⟨e.left, _, rfl, e.left.column.ends_blank e.blank (e.after ++ e.right.text), rfl, rfl⟩
    have gap (u : Text) : blanks (between u (e.before ++ '=' :: (e.after ++ e.right.text))) = some ((), _) :=
      blanks_some.2 ⟨e.before, _, rfl, e.blank, rfl, rfl⟩
    have sign (u : Text) : char '=' (between u ('=' :: (e.after ++ e.right.text))) = some ('=', _) :=
      one_some.2 ⟨_, rfl, rfl, rfl⟩
    have gap' (u : Text) : blanks (between u (e.after ++ e.right.text)) = some ((), _) :=
      blanks_some.2 ⟨e.after, _, rfl, e.blank', e.right.isSolid_text.first, rfl⟩
    have second (u : Text) : key (between u e.right.text) = some (e.right.key, between _ []) :=
      key_some.2 ⟨e.right, [], (List.append_nil _).symm, fun _ => ⟨rfl, by simp⟩, rfl, rfl⟩
    exact ⟨_, ⟨_, _, first, (), _, gap _, (), _, ⟨'=', sign _⟩, (), _, gap' _, _, _, second _, rfl, rfl⟩, rfl⟩

end Association

namespace Statement

open Association Text.Scan

variable {s : Statement} {join : Join} {condition : Text}

/-- The key with the table that its table name refers to. -/
def resolveKey (s : Statement) (k : Key) : Key := { k with table := s.resolve k.table }

/-- The association of a key equation, whichever of its sides holds the `id`. -/
theorem keyAssociation_of_text {e : EquationText} (written : e.text = Text.trim condition) :
    s.keyAssociation? join condition =
      (ofKeys? s.table join.table (s.resolveKey e.left.key) (s.resolveKey e.right.key)).or
        (ofKeys? s.table join.table (s.resolveKey e.right.key) (s.resolveKey e.left.key)) := by
  rw [keyAssociation?, whole_equation.2 ⟨e, written, rfl, rfl⟩]
  rfl

/-- Only a key equation has an association. -/
theorem exists_text_of_keyAssociation {a : Association} (found : s.keyAssociation? join condition = some a) :
    ∃ e : EquationText, e.text = Text.trim condition := by
  cases read : whole? equation (Text.trim condition) with
  | none =>
    rw [keyAssociation?, read] at found
    cases found
  | some keys =>
    obtain ⟨e, written, _, _⟩ := whole_equation.1 read
    exact ⟨e, written⟩

end Statement
end QueryCode
