import QueryCode.Proofs.Calendar
import QueryCode.Proofs.Text.Replace
import QueryCode.Relation.Rename

/-!
# Dates as values

In kept text the existing dates outside quoted literals become the values of a template. Dates do not overlap and a question
mark makes no new one, so one pass takes them all. With the values put back in place of the question marks the template
gives the text again.
-/

namespace QueryCode
set_option autoImplicit false

namespace Relation

open Text Calendar

/-! ## The shape of a date -/

/-- The text has the shape of a date, in the digits of any script. -/
def Dated (t : Text) : Prop := ∃ d : Written, d.MadeOf isDigit ∧ t = d.text

theorem isWord_of_isDigit {c : Char} (digit : isDigit c = true) : isWord c = true := by
  rw [isWord, digit, Bool.or_true]
  rfl

theorem isDigit_of_head {t : Text} (edge : t.head?.any isWord = false) : t.head?.any isDigit = false := by
  cases t with
  | nil => rfl
  | cons c t =>
    by_contra digit
    have word : isWord c = true := isWord_of_isDigit (by simpa using digit)
    exact absurd edge (by simp [word])

theorem last_of_digits {u : Text} (filled : u ≠ []) (digits : ∀ c ∈ u, isDigit c = true) : u.getLast?.any isWord = true := by
  rw [List.getLast?_eq_some_getLast filled]
  exact isWord_of_isDigit (digits _ (List.getLast_mem filled))

/-- A cut where a word may start is behind the digits and the character after them. -/
theorem exists_behind_digits {u v digits rest : Text} {c : Char} (split : u ++ v = digits ++ c :: rest)
    (all : ∀ c ∈ digits, isDigit c = true) (filled : u ≠ []) (edge : u.getLast?.any isWord = false) :
    ∃ u', u = digits ++ c :: u' ∧ u' ++ v = rest ∧ u'.getLast?.any isWord = false := by
  have long {x : Text} (whole : digits = u ++ x) : False := by
    rw [last_of_digits filled fun c mem => all c (whole ▸ List.mem_append_left x mem)] at edge
    cases edge
  rcases List.append_eq_append_iff.1 split with ⟨x, whole, _⟩ | ⟨x, whole, behind⟩
  · exact (long whole).elim
  · cases x with
    | nil =>
      have same : digits = u ++ [] := by rw [whole, List.append_nil, List.append_nil]
      exact (long same).elim
    | cons d x =>
      obtain ⟨rfl, rfl⟩ := List.cons.inj behind
      refine ⟨x, whole, rfl, ?_⟩
      by_cases empty : x = []
      · subst empty
        rfl
      · rwa [whole, List.append_cons, List.getLast?_append_of_ne_nil _ empty] at edge

/-- Inside a date a word may start behind a hyphen only. -/
theorem cases_of_isJoint {u v : Text} (joint : IsJoint Dated u v) :
    ∃ d : Written, d.MadeOf isDigit ∧ (v = d.month ++ '-' :: d.day ∨ v = d.day) := by
  obtain ⟨⟨d, made, split⟩, left, right, edge⟩ := joint
  refine ⟨d, made, ?_⟩
  obtain ⟨month, -, split, edge⟩ := exists_behind_digits split made.year.2 left edge
  by_cases empty : month = []
  · subst empty
    exact .inl split
  · obtain ⟨day, -, split, edge⟩ := exists_behind_digits split made.month.2 empty edge
    by_cases empty : day = []
    · subst empty
      exact .inr split
    · rw [last_of_digits empty fun c mem => made.day.2 c (split ▸ List.mem_append_left v mem)] at edge
      cases edge

theorem isShape_dated : IsShape Dated where
  head := by
    rintro t ⟨d, made, rfl⟩
    obtain ⟨c, more, year⟩ := List.exists_cons_of_ne_nil (l := d.year) (by rintro empty; simpa [empty] using made.year.1)
    rw [Written.text, year]
    exact isWord_of_isDigit (made.year.2 c (year ▸ List.mem_cons_self))
  clean := by
    rintro t ⟨d, made, rfl⟩ c mem
    rcases made.mem mem with digit | rfl
    · refine ⟨isMark_of_class (by decide) digit, ?_⟩
      rintro rfl
      exact absurd digit (by decide)
    · exact ⟨by decide, by decide⟩
  unique := by
    rintro last t t' after after' ⟨⟨d, made, rfl⟩, -, -⟩ ⟨⟨d', made', rfl⟩, -, -⟩ same
    exact List.append_inj_left same (by rw [made.length, made'.length])
  joint := by
    rintro u v t after after' joint ends ⟨d', made', rfl⟩ same
    have right := joint.right
    obtain ⟨d, made, behind⟩ := cases_of_isJoint joint
    -- four digits cannot start behind a hyphen, where only two follow
    have four {two rest : Text} (length : two.length = 2) (digits : ∀ c ∈ two, isDigit c = true)
        (stop : rest.head?.any isDigit = false) (same : two ++ rest = d'.text ++ after') : False := by
      rw [Written.text, List.append_assoc] at same
      have year := (eq_of_runs same digits stop made'.year.2 (by rfl)).1
      have lengths := made'.year.1
      rw [← year, length] at lengths
      cases lengths
    rcases behind with rfl | rfl
    · rw [List.append_assoc] at same
      exact four made.month.1 made.month.2 (by rfl) same
    · exact four made.day.1 made.day.2 (isDigit_of_head (ends (last_of_digits right made.day.2))) same

/-! ## The pattern -/

theorem stop_cons (offset : Nat) (last : Option Char) (c : Char) (u after : Text) :
    (⟨offset + size [c] + size u, u.getLast?.or (some c), after⟩ : Cursor) =
      ⟨offset + size (c :: u), (c :: u).getLast?.or last, after⟩ := by
  rw [getLast?_cons_or, ← List.singleton_append, size_append, Nat.add_assoc]
  rfl

theorem digits_at {n offset : Nat} {last : Option Char} {rest : Text} {stop : Cursor} :
    bareDate.digits n ⟨offset, last, rest⟩ = some ((), stop) ↔
      ∃ digits after, digits.length = n ∧ (∀ c ∈ digits, isDigit c = true) ∧ rest = digits ++ after ∧
        stop = ⟨offset + size digits, digits.getLast?.or last, after⟩ := by
  induction n generalizing offset last rest with
  | zero =>
    rw [bareDate.digits, Scan.pure_some]
    constructor
    · rintro ⟨-, rfl⟩
      exact ⟨[], rest, rfl, by simp, rfl, rfl⟩
    · rintro ⟨digits, after, empty, -, rfl, rfl⟩
      obtain rfl := List.length_eq_zero_iff.1 empty
      exact ⟨rfl, rfl⟩
  | succ n ih =>
    rw [bareDate.digits, Scan.bind_some]
    constructor
    · rintro ⟨_, mid, first, later⟩
      obtain ⟨c, first⟩ := Scan.discard_some.1 first
      obtain ⟨behind, rfl, digit, rfl⟩ := Scan.one_at.1 first
      obtain ⟨digits, after, length, all, rfl, rfl⟩ := ih.1 later
      exact ⟨c :: digits, after, by rw [List.length_cons, length], List.forall_mem_cons.2 ⟨digit, all⟩, rfl,
        stop_cons offset last c digits after⟩
    · rintro ⟨digits, after, length, all, rfl, rfl⟩
      obtain ⟨c, digits, rfl⟩ := List.exists_cons_of_length_eq_add_one length
      obtain ⟨digit, all⟩ := List.forall_mem_cons.1 all
      exact ⟨(), _, Scan.discard_some.2 ⟨c, Scan.one_at.2 ⟨digits ++ after, rfl, digit, rfl⟩⟩,
        ih.2 ⟨digits, after, Nat.succ.inj length, all, rfl, (stop_cons offset last c digits after).symm⟩⟩

/-- The pattern fits where a date stands on its own. -/
theorem finds_bareDate : Finds bareDate Dated := by
  intro offset last rest after
  unfold bareDate
  simp only [Scan.bind_some, Scan.discard_some, Scan.edge_some, Scan.char]
  constructor
  · rintro ⟨stop, ⟨_, _, ⟨edge, rfl⟩, _, _, year, _, _, ⟨c, hyphen⟩, _, _, month, _, _, ⟨c', hyphen'⟩, _, _, day, edge', rfl⟩, rfl⟩
    obtain ⟨y, _, yearLength, yearDigits, rfl, rfl⟩ := digits_at.1 year
    obtain ⟨_, rfl, is, rfl⟩ := Scan.one_at.1 hyphen
    obtain ⟨m, _, monthLength, monthDigits, rfl, rfl⟩ := digits_at.1 month
    obtain ⟨_, rfl, is', rfl⟩ := Scan.one_at.1 hyphen'
    obtain ⟨d, after, dayLength, dayDigits, rfl, rfl⟩ := digits_at.1 day
    obtain rfl := eq_of_beq is
    obtain rfl := eq_of_beq is'
    have dated : Dated (Written.text ⟨y, m, d⟩) := ⟨⟨y, m, d⟩, ⟨⟨yearLength, yearDigits⟩, ⟨monthLength, monthDigits⟩, dayLength, dayDigits⟩, rfl⟩
    have whole : y ++ '-' :: (m ++ '-' :: (d ++ after)) = Written.text ⟨y, m, d⟩ ++ after := by
      simp [Written.text]
    refine ⟨_, whole, dated, ?_, fun _ => ?_⟩
    · rw [whole, Cursor.atEdge, isShape_dated.head_append dated] at edge
      simpa using edge
    · have filled : d ≠ [] := by
        rintro rfl
        cases dayLength
      have word := last_of_digits filled dayDigits
      rw [List.getLast?_eq_some_getLast filled] at word edge'
      rw [Cursor.atEdge] at edge'
      simpa [show isWord (d.getLast filled) = true from word] using edge'
  · rintro ⟨_, rfl, ⟨⟨d, made, rfl⟩, starts, ends⟩⟩
    have head := isShape_dated.head_append ⟨d, made, rfl⟩ after
    have filled : d.day ≠ [] := by
      intro empty
      have length := made.day.1
      rw [empty] at length
      cases length
    have word := last_of_digits filled made.day.2
    have right : after.head?.any isWord = false := by
      refine ends ?_
      rwa [Written.text, List.append_cons, ← List.append_assoc, List.append_cons, List.getLast?_append_of_ne_nil _ filled]
    refine ⟨_, ⟨(), _, ⟨?_, rfl⟩, (), _, digits_at.2 ⟨d.year, _, made.year.1, made.year.2, ?_, rfl⟩, (), _,
      ⟨'-', Scan.one_at.2 ⟨_, rfl, rfl, rfl⟩⟩, (), _, digits_at.2 ⟨d.month, _, made.month.1, made.month.2, rfl, rfl⟩, (), _,
      ⟨'-', Scan.one_at.2 ⟨_, rfl, rfl, rfl⟩⟩, (), _, digits_at.2 ⟨d.day, after, made.day.1, made.day.2, rfl, rfl⟩, ?_, rfl⟩, rfl⟩
    · rw [Cursor.atEdge, head, starts]
      rfl
    · simp [Written.text]
    · rw [List.getLast?_eq_some_getLast filled] at word ⊢
      rw [Cursor.atEdge, right]
      simpa using word

/-! ## Question marks -/

/-- What stands in place of a date: a question mark if it exists, and the date again otherwise. -/
def asMark (t : Text) : List Part := if isIsoDate t then [.plain '?'] else [.hit t]

theorem source_asMark (t : Text) : source (asMark t) = if isIsoDate t then "?".toList else t := by
  unfold asMark
  split
  · rfl
  · exact List.append_nil t

theorem not_mem_of_dated {t : Text} (dated : Dated t) : '?' ∉ t := by
  obtain ⟨d, made, rfl⟩ := dated
  intro mem
  rcases made.mem mem with digit | same
  · exact absurd digit (by decide)
  · exact absurd same (by decide)

theorem standsFor_asMark {t : Text} (dated : Dated t) : StandsFor Dated t (asMark t) := by
  unfold asMark
  split
  · refine standsFor_text (r := ['?']) (by decide) (by decide) (by decide) ?_ ?_
    · intro u v after rest joint same
      obtain ⟨c, more, rfl⟩ := List.exists_cons_of_ne_nil joint.right
      obtain ⟨rfl, -⟩ := List.cons.inj same
      exact not_mem_of_dated joint.shape (by simp)
    · intro u v found after rest split _ dated right same
      obtain ⟨c, more, rfl⟩ := List.exists_cons_of_ne_nil right
      obtain ⟨d, more', rfl⟩ := List.exists_cons_of_ne_nil (isShape_dated.ne_nil dated)
      obtain ⟨rfl, -⟩ := List.cons.inj same
      have mark : c ∈ ['?'] := split ▸ List.mem_append_right u List.mem_cons_self
      obtain rfl := List.mem_singleton.1 mark
      exact not_mem_of_dated dated List.mem_cons_self
  · exact standsFor_hit isShape_dated dated rfl

/-- The text with the values one by one in place of its question marks. -/
def fillMarks : Text → List Text → Text
  | [], _ => []
  | '?' :: t, value :: values => value ++ fillMarks t values
  | c :: t, values => c :: fillMarks t values

theorem fillMarks_append {u : Text} (free : '?' ∉ u) (t : Text) (values : List Text) :
    fillMarks (u ++ t) values = u ++ fillMarks t values := by
  induction u with
  | nil => rfl
  | cons c u ih =>
    rw [List.mem_cons, not_or] at free
    rw [List.cons_append, fillMarks, ih free.2, List.cons_append]
    intro _ _ _ mark
    exact free.1 mark.symm

/-- The existing dates among the hits. -/
def existing (parts : List Part) : List Text := (hits parts).filter isIsoDate

/-- **Each question mark stands for one date, and with the dates in their places the text is the one before.** -/
theorem fillMarks_replace {parts : List Part} (free : '?' ∉ source parts) :
    (source (replace asMark parts)).count '?' = (existing parts).length ∧
      fillMarks (source (replace asMark parts)) (existing parts) = source parts := by
  induction parts with
  | nil => exact ⟨rfl, rfl⟩
  | cons part parts ih =>
    cases part with
    | plain c =>
      rw [source_plain, List.mem_cons, not_or] at free
      obtain ⟨count, filled⟩ := ih free.2
      have alone : '?' ∉ [c] := by simpa using free.1
      refine ⟨?_, ?_⟩
      · rw [replace, source_plain, List.count_cons_of_ne (Ne.symm free.1), count]
        rfl
      · rw [replace, source_plain, source_plain, ← List.singleton_append, fillMarks_append alone]
        exact congrArg ([c] ++ ·) filled
    | hit t =>
      rw [source_hit, List.mem_append, not_or] at free
      obtain ⟨count, filled⟩ := ih free.2
      rw [replace, source_append, source_asMark, source_hit, existing, hits, List.filterMap_cons, ← hits]
      dsimp only
      cases exists' : isIsoDate t with
      | true =>
        rw [List.filter_cons_of_pos exists', if_pos rfl]
        refine ⟨?_, congrArg (t ++ ·) filled⟩
        rw [List.count_append, count, List.length_cons, Nat.add_comm]
        rfl
      | false =>
        rw [List.filter_cons_of_neg (by simp [exists']), if_neg Bool.false_ne_true]
        refine ⟨?_, ?_⟩
        · rw [List.count_append, List.count_eq_zero_of_not_mem free.1, Nat.zero_add, count]
          rfl
        · rw [fillMarks_append free.1]
          exact congrArg (t ++ ·) filled

/-! ## The template -/

theorem text_dateTemplate (s : Text) : (dateTemplate s).text = source (replace asMark (mark bareDate s)) :=
  mapHits_mark_eq finds_bareDate isShape_dated (fun t _ => source_asMark t) s

/-- **Kept text is taken apart into a template without loss.** The call has the text of the template and one date for each
of its question marks; with the dates in their places it is the text before. Each date exists and stands in the text
outside literals. The literals are the same, and where the mask shows a date by itself, it does not exist. -/
theorem dateTemplate_lossless {s : Text} (free : '?' ∉ s) :
    ∃ text dates, (dateTemplate s).whereCall = call "where" (.quoted text :: dates.map .quoted) ∧
      text.count '?' = dates.length ∧ fillMarks text dates = s ∧
      (∀ date ∈ dates, IsDateText date ∧ ∃ lead row tail, cells s = lead ++ (row ++ tail) ∧ row.map Cell.char = date ∧
        ∀ cell ∈ row, cell.quoted = false) ∧
      quotations text = quotations s ∧
      ∀ lead date tail, mask .quotes text = lead ++ (date ++ tail) →
        bareDate (Cursor.between lead (date ++ tail)) = some ((), Cursor.between (lead ++ date) tail) → ¬ IsDateText date := by
  have marked := marked_mark finds_bareDate isShape_dated s
  have whole := source_mark bareDate s
  have filled := fillMarks_replace (show '?' ∉ source (mark bareDate s) by rwa [whole])
  rw [← text_dateTemplate, whole] at filled
  have same (t : Text) (_ : Dated t) := source_asMark t
  have stands (t : Text) (dated : Dated t) := standsFor_asMark dated
  have marks := mark_mapHits finds_bareDate isShape_dated same stands s
  refine ⟨(dateTemplate s).text, existing (mark bareDate s), rfl, filled.1, filled.2, fun date mem => ?_,
    quotations_mapHits finds_bareDate isShape_dated same stands s, fun lead date tail shown fits exists' => ?_⟩
  · obtain ⟨mem, exists'⟩ := List.mem_filter.1 mem
    obtain ⟨d, made, rfl⟩ := marked.shape_of_mem mem
    have row := marked.exists_row isShape_dated mem
    rw [whole] at row
    exact ⟨(isIsoDate_iff made).1 exists', row⟩
  · obtain ⟨found, split, hit⟩ := (finds_bareDate _ _ _ tail).1 ⟨_, fits, rfl⟩
    obtain rfl : date = found := List.append_cancel_right split
    -- a date that is found again is one that was left as it was
    have mem := mem_hits_of_mask finds_bareDate isShape_dated shown hit
    rw [dateTemplate, marks, hits_replace, List.mem_flatMap] at mem
    obtain ⟨t, _, mem⟩ := mem
    obtain ⟨d, made, rfl⟩ := hit.shape
    rw [← isIsoDate_iff made] at exists'
    unfold asMark at mem
    split at mem
    · cases mem
    · rename_i missing
      rw [List.mem_singleton.1 mem] at exists'
      exact missing exists'

/-- A date, one that does not exist, and one in a literal. -/
theorem dateTemplate_lossless_literal :
    let s := "a>2024-02-29 AND b<2023-02-29 AND c<>'2024-01-01'".toList
    '?' ∉ s ∧ (dateTemplate s).text = "a>? AND b<2023-02-29 AND c<>'2024-01-01'".toList ∧
      ∃ text dates, (dateTemplate s).whereCall = call "where" (.quoted text :: dates.map .quoted) ∧
        text.count '?' = dates.length ∧ fillMarks text dates = s ∧ (∀ date ∈ dates, IsDateText date) ∧
        quotations text = ["'2024-01-01'".toList] := by
  intro s
  have free : '?' ∉ s := by decide
  obtain ⟨text, dates, same, count, filled, each, literals, -⟩ := dateTemplate_lossless free
  exact ⟨free, by decide +kernel, text, dates, same, count, filled, fun date mem => (each date mem).1, literals.trans (by decide +kernel)⟩

end Relation
end QueryCode
