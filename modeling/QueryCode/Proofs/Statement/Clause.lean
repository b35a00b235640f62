import QueryCode.Proofs.Statement.JoinFits
import QueryCode.Proofs.Text.TopLevel

/-!
# Clauses in a statement

A statement is written clause by clause, each with a space and its keywords in front. Where the clauses before it
do not show its keywords, a clause is found at its place, and where its own text does not show what ends it, it ends
where the next clause starts. So every clause is cut out as it was written, and one that is left out is not
found.
-/

namespace QueryCode
set_option autoImplicit false

open Text Text.Scan Text.Cursor Pattern

variable {u x t : Text} {own own' ks : List Key}

namespace Pattern

theorem Key.not_begins_space {k : Key} (lower : k.isLower = true) : ¬ k.Begins [' '] :=
  not_begins_of_edges lower (by decide) (by decide)

theorem Key.silent_space {k : Key} (lower : k.isLower = true) (rest : Text) : k.Silent [' '] rest :=
  silent_of_not_begins lower (not_begins_space lower) (.inl (by decide))

/-- A pattern that starts with a key does not fit at a space. -/
theorem Starts.none_space {α : Type} {p : Scan α} (starts : Starts p ks) (lower : ∀ k ∈ ks, k.isLower = true)
    (before rest : Text) : p (between before (' ' :: rest)) = none := by
  have misses : Misses p before [' '] rest := starts.misses fun k mem => Key.silent_space (lower k mem) rest
  have here := misses [] [' '] rfl (by simp)
  rwa [List.append_nil] at here

end Pattern

namespace Statement

/-! ## Quiet texts -/

/-- What the patterns of clauses start with. -/
def clauseKeys : List Key :=
  [.word "from", .word "into", .word "where", .word "having", .word "limit", .word "offset", .by "group",
    .by "order", .semicolon] ++ joinOpeners.map .word

theorem isLower_clauseKeys : ∀ k ∈ clauseKeys, k.isLower = true := by decide

theorem not_begins_nil {k : Key} (mem : k ∈ clauseKeys) : ¬ k.Begins [] := by
  rw [← Key.begins_iff (isLower_clauseKeys k mem), Bool.not_eq_true]
  revert k mem
  decide

/-- The text ends outside literals and parentheses, and starts no clause but with the keys that it may show. -/
structure IsQuiet (own : List Key) (x : Text) : Prop where
  closed : isClosed x = true
  silent : ∀ k ∈ clauseKeys, k ∉ own → ∀ rest, Follows rest → k.Silent (mask .nested x) rest

/-- The text is empty, or starts with a space and a letter other than that of `BY`. -/
def IsLed (x : Text) : Prop :=
  x = [] ∨ ∃ c more, x = ' ' :: c :: more ∧ isWord c = true ∧ fold c ≠ 'b'

theorem isLed_nil : IsLed [] := .inl rfl

theorem IsLed.apart (led : IsLed x) (u : Text) : Apart u x := by
  rcases led with rfl | ⟨c, more, rfl, _⟩
  · exact apart_nil u
  · exact apart_of_head (by decide)

theorem IsLed.append {y : Text} (led : IsLed x) (led' : IsLed y) : IsLed (x ++ y) := by
  rcases led with rfl | ⟨c, more, rfl, letter⟩
  · exact led'
  · exact .inr ⟨c, more ++ y, rfl, letter⟩

theorem IsLed.spaced (led : IsLed x) : Spaced x := by
  rcases led with rfl | ⟨c, more, rfl, _⟩
  · exact .inl rfl
  · exact .inr ⟨c :: more, rfl⟩

theorem spaced_mask (spaced : Spaced x) : Spaced (mask .nested x) := by
  rcases spaced with rfl | ⟨more, rfl⟩
  · exact .inl rfl
  · have space : Plain [' '] := by decide
    exact .inr ⟨mask .nested more, mask_plain_append _ space⟩

theorem follows_nil : Follows [] := ⟨rfl, rfl⟩

/-- What starts with a space and such a letter is no `BY`, and no word goes on into it. -/
theorem follows_of_led {c : Char} (letter : isWord c = true) (other : fold c ≠ 'b') (more : Text) :
    Follows (' ' :: c :: more) := by
  have trimmed : trimStart (' ' :: c :: more) = c :: more := by
    rw [trimStart, List.dropWhile_cons_of_pos (by decide), List.dropWhile_cons_of_neg (by simp [not_isBlank_of_isWord letter])]
  refine ⟨not_isWord_of_isBlank (by decide), ?_⟩
  rw [trimmed]
  simpa using other

theorem IsLed.follows (led : IsLed x) {rest : Text} (follows : Follows rest) : Follows (mask .nested x ++ rest) := by
  rcases led with rfl | ⟨c, more, rfl, letter, other⟩
  · exact follows
  · have plain : Plain [' ', c] := by
      rw [plain_cons, plain_cons]
      exact ⟨by decide, isMark_of_class (by decide) letter, plain_nil⟩
    have shown : mask .nested (' ' :: c :: more) = ' ' :: c :: mask .nested more := mask_plain_append _ plain
    rw [shown]
    exact follows_of_led letter other _

theorem isQuiet_nil : IsQuiet own [] := ⟨rfl, fun k _ _ rest _ => k.silent_nil rest⟩

theorem IsQuiet.append {y : Text} (quiet : IsQuiet own x) (quiet' : IsQuiet own' y) (led : IsLed y) :
    IsQuiet (own ++ own') (x ++ y) := by
  refine ⟨isClosed_append quiet.closed quiet'.closed (led.apart x), ?_⟩
  intro k mem other rest follows
  rw [List.mem_append, not_or] at other
  rw [mask_append _ quiet.closed (led.apart x)]
  exact (quiet.silent k mem other.1 _ (led.follows follows)).append (quiet'.silent k mem other.2 rest follows)

theorem isQuiet_of_plain (plain : Plain x) (silent : ∀ k ∈ clauseKeys, k ∉ own → ¬ k.Begins x) : IsQuiet own x := by
  refine ⟨plain.isClosed, ?_⟩
  intro k mem other rest follows
  rw [plain.mask]
  exact Key.silent_of_not_begins (isLower_clauseKeys k mem) (silent k mem other) (follows.parted x)

/-- A quiet text that can follow a clause. -/
structure IsPart (own : List Key) (x : Text) : Prop extends IsQuiet own x where
  led : IsLed x

theorem IsQuiet.mono (quiet : IsQuiet own x) (subset : own ⊆ own') : IsQuiet own' x :=
  ⟨quiet.closed, fun k mem other => quiet.silent k mem fun listed => other (subset listed)⟩

theorem IsPart.mono (part : IsPart own x) (subset : own ⊆ own') : IsPart own' x :=
  ⟨part.toIsQuiet.mono subset, part.led⟩

theorem isPart_nil : IsPart own [] := ⟨isQuiet_nil, isLed_nil⟩

theorem IsPart.append {y : Text} (part : IsPart own x) (part' : IsPart own' y) : IsPart (own ++ own') (x ++ y) :=
  ⟨part.toIsQuiet.append part'.toIsQuiet part'.led, part.led.append part'.led⟩

/-- A space in front of a text shows no key. -/
theorem not_occurs_space {k : Key} (lower : k.isLower = true) (absent : ¬ k.Occurs (mask .nested x)) :
    ¬ k.Occurs (mask .nested (' ' :: x)) := by
  have space : Plain [' '] := by decide
  have shown : mask .nested (' ' :: x) = [' '] ++ mask .nested x := mask_plain_append _ space
  rw [shown]
  apply Key.not_occurs_of_silent lower
  exact (Key.silent_space lower _).append (Key.silent_of_not_occurs lower absent follows_nil)

/-! ## Finding a clause -/

section Find

variable {α : Type} {p : Scan α} (starts : Starts p ks) (others : ∀ k ∈ ks, k ∈ clauseKeys ∧ k ∉ own)
include starts others

theorem misses_of_isQuiet (quiet : IsQuiet own u) (before : Text) {rest : Text} (follows : Follows rest) :
    Misses p before (mask .nested u) rest :=
  starts.misses fun k mem => quiet.silent k (others k mem).1 (others k mem).2 rest follows

/-- A search passes over the clauses without its keys. -/
theorem find_append (quiet : IsQuiet own u) (led : IsLed t) :
    (Source.ofText (u ++ t)).find p = Scan.find p (between (mask .nested u) (mask .nested t)) := by
  have misses := misses_of_isQuiet starts others quiet [] (led.follows follows_nil)
  rw [List.append_nil] at misses
  have text : (Source.ofText (u ++ t)).find p = Scan.find p (between [] (mask .nested (u ++ t))) := rfl
  rw [text, mask_append _ quiet.closed (led.apart u), find_of_misses misses, List.nil_append]

/-- A clause that was left out is not found. -/
theorem find_eq_none (quiet : IsQuiet own u) : (Source.ofText u).find p = none := by
  have ends := starts.none_nil (fun k mem => isLower_clauseKeys k (others k mem).1) ([] ++ mask .nested u)
  exact find_none_of_misses (misses_of_isQuiet starts others quiet [] follows_nil) ends

/-- A clause is found where its keywords are. -/
theorem find_keyword (quiet : IsQuiet own u) (led : IsLed (' ' :: t)) {a : α} {stop : Cursor}
    (fits : p (between (mask .nested u ++ [' ']) (mask .nested t)) = some (a, stop)) :
    (Source.ofText (u ++ ' ' :: t)).find p =
      some ⟨between (mask .nested u ++ [' ']) (mask .nested t), a, stop⟩ := by
  have space : Plain [' '] := by decide
  have shown : mask .nested (' ' :: t) = ' ' :: mask .nested t := mask_plain_append _ space
  have missed := starts.none_space (fun k mem => isLower_clauseKeys k (others k mem).1) (mask .nested u) (mask .nested t)
  rw [find_append starts others quiet led, shown, find_cons_of_none missed, find_of_some fits]

end Find

/-! ## The text of a clause -/

/-- What follows a clause that the pattern ends: nothing, or a space and a place where the pattern fits. -/
def Meets (stop : Scan Unit) (t : Text) : Prop :=
  t = [] ∨ ∃ more, t = ' ' :: more ∧
    ∀ before, before.getLast?.any isWord = false → (stop (between before (mask .nested more))).isSome = true

section Slice

variable {b : Text} {stop : Scan Unit} (starts : Starts stop ks) (lower : ∀ k ∈ ks, k.isLower = true)
  (closed : isClosed b = true) (apart : Apart b t) (silent : ∀ k ∈ ks, k.Silent (mask .nested b) (mask .nested t))
  (meets : Meets stop t)
include starts lower closed apart silent meets

/-- What is cut out from a place on ends at most one space after the text of the clause. -/
theorem slice_between (u : Text) :
    ∃ trail, Blank trail ∧
      slice (between (mask .nested u) (mask .nested (b ++ t))).offset
        ((Source.ofText (u ++ (b ++ t))).endFrom stop (between (mask .nested u) (mask .nested (b ++ t))))
        (u ++ (b ++ t)) = .ok (b ++ trail) := by
  have misses : Misses stop (mask .nested u) (mask .nested b) (mask .nested t) := starts.misses silent
  have passed := find_of_misses misses
  have sliced {n : Nat} {c d : Text} (stop : n = size (u ++ c)) (text : b ++ t = c ++ d) :
      slice (size (mask .nested u)) n (u ++ (b ++ t)) = .ok c := by
    rw [stop, size_mask, text, ← List.append_assoc]
    exact slice_append u c d
  unfold Source.endFrom Source.ofText
  rw [mask_append _ closed apart, passed, offset_between]
  rcases meets with rfl | ⟨more, rfl, fits⟩
  · have missing : Scan.find stop (between (mask .nested u ++ mask .nested b) []) = none := by
      rw [find_nil, starts.none_nil lower]
      rfl
    have whole : size (mask .nested (u ++ (b ++ []))) = size (u ++ b) := by
      rw [size_mask, List.append_nil]
    have cut := sliced (d := []) whole rfl
    refine ⟨[], blank_nil, ?_⟩
    rw [show mask .nested ([] : Text) = [] from rfl, missing, List.append_nil b]
    rw [List.append_nil] at cut
    exact cut
  · have space : Plain [' '] := by decide
    have next : mask .nested (' ' :: more) = ' ' :: mask .nested more := mask_plain_append _ space
    have missed := starts.none_space lower (mask .nested u ++ mask .nested b) (mask .nested more)
    obtain ⟨⟨a, after⟩, found⟩ := Option.isSome_iff_exists.1
      (fits (mask .nested u ++ mask .nested b ++ [' ']) (by simpa using not_isWord_of_isBlank (by decide)))
    have place : size (mask .nested u ++ mask .nested b ++ [' ']) = size (u ++ (b ++ [' '])) := by
      simp [size_append, size_mask]
    have cut := sliced (d := more) place (by simp)
    refine ⟨[' '], by decide, ?_⟩
    rw [next, find_cons_of_none missed, find_of_some found]
    exact cut

/-- **A clause is all of the text up to the one that ends it.** -/
theorem body_between (u : Text) :
    (Source.ofText (u ++ (b ++ t))).body (between (mask .nested u) (mask .nested (b ++ t))) stop = .ok (trim b) := by
  obtain ⟨trail, blank, cut⟩ := slice_between starts lower closed apart silent meets u
  have trimmed := trim_append (t := b) blank_nil blank
  rw [Source.body, show (Source.ofText (u ++ (b ++ t))).text = u ++ (b ++ t) from rfl, cut]
  exact congrArg Except.ok trimmed

end Slice

/-- A clause at the end of a statement is all of the text that is left. -/
theorem body_end {stop : Scan Unit} (starts : Starts stop ks) (lower : ∀ k ∈ ks, k.isLower = true)
    (silent : ∀ k ∈ ks, ¬ k.Occurs (mask .nested x)) (u : Text) :
    (Source.ofText (u ++ x)).body (between (mask .nested u) (mask .nested x)) stop = .ok (trim x) := by
  have misses : Misses stop (mask .nested u) (mask .nested x) [] :=
    starts.misses fun k mem => Key.silent_of_not_occurs (lower k mem) (silent k mem) follows_nil
  have missing := find_none_of_misses misses (starts.none_nil lower _)
  have cut := slice_append u x []
  rw [List.append_nil] at cut
  rw [Source.body, Source.endFrom, missing]
  dsimp only [offset_between, Source.ofText]
  rw [size_mask, size_mask, cut]
  rfl

/-- The text of a clause is read after its keywords, which the mask shows, and a space. -/
theorem body_spaced {front body : Text} {stop : Scan Unit} (closed : isClosed u = true) (plain : Plain front)
    (closed' : isClosed body = true) (ends : Starts stop ks)
    (keys : ∀ k ∈ ks, k.isLower = true ∧ ¬ k.Occurs (mask .nested body)) (led : IsLed t) (meets : Meets stop t) :
    (Source.ofText (u ++ (front ++ ' ' :: (body ++ t)))).body
      (between (mask .nested u ++ front) (' ' :: mask .nested (body ++ t))) stop = .ok (trim body) := by
  have space : Plain [' '] := by decide
  have shown (t : Text) : mask .nested (' ' :: t) = ' ' :: mask .nested t := mask_plain_append _ space
  have shownFront : mask .nested (u ++ front) = mask .nested u ++ front := mask_append_plain _ closed plain
  have closedBody : isClosed (' ' :: body) = true := isClosed_append space.isClosed closed' space.apart_left
  have follows : Follows (mask .nested t) := by
    have all := led.follows follows_nil
    rwa [List.append_nil] at all
  have silent : ∀ k ∈ ks, k.Silent (mask .nested (' ' :: body)) (mask .nested t) := by
    intro k mem
    obtain ⟨lower, inside⟩ := keys k mem
    rw [shown]
    exact (Key.silent_space lower _).append (Key.silent_of_not_occurs lower inside follows)
  have cut := body_between ends (fun k mem => (keys k mem).1) closedBody (led.apart _) silent meets (u ++ front)
  have whole : u ++ front ++ (' ' :: body ++ t) = u ++ (front ++ ' ' :: (body ++ t)) := by simp
  have around := trim_append (t := body) (by decide : Blank [' ']) blank_nil
  rw [List.append_nil] at around
  rw [whole, shownFront, List.cons_append, shown, show trim (' ' :: body) = trim body from around] at cut
  exact cut

/-! ## Clauses as they are written -/

/-- The mask shows the keywords of a clause and the space after them. -/
theorem mask_keyword {keyword : Text} (plain : Plain keyword) (t : Text) :
    mask .nested (keyword ++ ' ' :: t) = keyword ++ ' ' :: mask .nested t := by
  have both : Plain (keyword ++ [' ']) := plain_append.2 ⟨plain, by decide⟩
  have masked := mask_plain_append (v := t) .nested both
  simpa using masked

/-- A clause with a space and its keywords in front; nothing at all where it has no text. -/
def clauseText (keyword body : Text) : Text := if body.isEmpty then [] else ' ' :: (keyword ++ ' ' :: body)

section Written

variable {keyword body : Text}

theorem clauseText_nil (keyword : Text) : clauseText keyword [] = [] := rfl

theorem clauseText_of_ne_nil (filled : body ≠ []) : clauseText keyword body = ' ' :: (keyword ++ ' ' :: body) :=
  if_neg (by simpa using filled)

/-- The keyword is made of letters and spaces and starts with a letter other than that of `BY`. -/
def isLeading (keyword : Text) : Bool :=
  keyword.head?.any (fun c => isWord c && fold c != 'b') && keyword.all (fun c => !isMark c)

theorem plain_of_isLeading (leading : isLeading keyword = true) : Plain keyword := by
  rw [isLeading, Bool.and_eq_true, List.all_eq_true] at leading
  intro c mem
  simpa using leading.2 c mem

theorem isLed_of_isLeading (leading : isLeading keyword = true) (rest : Text) : IsLed (' ' :: (keyword ++ rest)) := by
  rw [isLeading, Bool.and_eq_true] at leading
  obtain ⟨first, _⟩ := leading
  cases keyword with
  | nil => cases first
  | cons c keyword =>
    simp only [List.head?_cons, Option.any_some, Bool.and_eq_true, bne_iff_ne] at first
    exact .inr ⟨c, keyword ++ rest, rfl, first.1, first.2⟩

theorem isLed_clauseText (leading : isLeading keyword = true) (body : Text) : IsLed (clauseText keyword body) := by
  by_cases empty : body = []
  · rw [empty, clauseText_nil]
    exact isLed_nil
  · rw [clauseText_of_ne_nil empty]
    exact isLed_of_isLeading leading _

theorem meets_keyword {stop : Scan Unit} (leading : isLeading keyword = true)
    (fits : ∀ before rest, before.getLast?.any isWord = false →
      (stop (between before (keyword ++ ' ' :: rest))).isSome = true) (t : Text) :
    Meets stop (' ' :: (keyword ++ ' ' :: t)) := by
  refine .inr ⟨keyword ++ ' ' :: t, rfl, ?_⟩
  intro before left
  rw [mask_keyword (plain_of_isLeading leading)]
  exact fits before _ left

theorem Meets.clauseText {stop : Scan Unit} (leading : isLeading keyword = true)
    (fits : ∀ before rest, before.getLast?.any isWord = false →
      (stop (between before (keyword ++ ' ' :: rest))).isSome = true)
    (meets : Meets stop t) : Meets stop (clauseText keyword body ++ t) := by
  by_cases empty : body = []
  · rw [empty, clauseText_nil]
    exact meets
  · have text : Statement.clauseText keyword body ++ t = ' ' :: (keyword ++ ' ' :: (body ++ t)) := by
      rw [clauseText_of_ne_nil empty]
      simp
    rw [text]
    exact meets_keyword leading fits _

/-- A clause shows the keys of its keywords and of its text. -/
theorem isPart_clauseText (leading : isLeading keyword = true)
    (front : ∀ k ∈ clauseKeys, k ∉ own → k.begins (' ' :: (keyword ++ [' '])) = false)
    (closed : isClosed body = true)
    (inside : ∀ k ∈ clauseKeys, k ∉ own → ¬ k.Occurs (mask .nested body)) : IsPart own (clauseText keyword body) := by
  refine ⟨?_, isLed_clauseText leading body⟩
  by_cases empty : body = []
  · rw [empty, clauseText_nil]
    exact isQuiet_nil
  · have plain : Plain (' ' :: (keyword ++ [' '])) :=
      plain_cons.2 ⟨by decide, plain_append.2 ⟨plain_of_isLeading leading, by decide⟩⟩
    have text : clauseText keyword body = ' ' :: (keyword ++ [' ']) ++ body := by
      rw [clauseText_of_ne_nil empty]
      simp
    rw [text]
    refine ⟨isClosed_append plain.isClosed closed plain.apart_left, ?_⟩
    intro k mem other rest follows
    have lower := isLower_clauseKeys k mem
    rw [mask_plain_append _ plain]
    refine Key.Silent.append ?_ (Key.silent_of_not_occurs lower (inside k mem other) follows)
    refine Key.silent_of_not_begins lower ?_ (.inl ?_)
    · rw [← Key.begins_iff lower, front k mem other]
      exact Bool.false_ne_true
    · rw [← List.cons_append, List.getLast?_concat]
      exact not_isWord_of_isBlank (by decide)

/-- **A clause is read back as it was written**, and one that was left out is not found. -/
theorem clause_clauseText {start stop : Scan Unit} {ks' : List Key} (starts : Starts start ks)
    (reads : Reads start keyword) (leading : isLeading keyword = true) (others : ∀ k ∈ ks, k ∈ clauseKeys ∧ k ∉ own ++ own')
    (before : IsQuiet own u) (trimmed : trim body = body) (closed : isClosed body = true) (ends : Starts stop ks')
    (keys : ∀ k ∈ ks', k ∈ clauseKeys ∧ ¬ k.Occurs (mask .nested body)) (after : IsPart own' t)
    (meets : body ≠ [] → Meets stop t) :
    (Source.ofText (u ++ (clauseText keyword body ++ t))).clause start stop =
      .ok (if body.isEmpty then none else some body) := by
  unfold Source.clause
  by_cases empty : body = []
  · rw [empty, clauseText_nil, List.nil_append, find_eq_none starts others (before.append after.toIsQuiet after.led)]
    rfl
  · have plain : Plain (' ' :: keyword) := plain_cons.2 ⟨by decide, plain_of_isLeading leading⟩
    have text : u ++ (clauseText keyword body ++ t) = u ++ ' ' :: (keyword ++ ' ' :: (body ++ t)) := by
      rw [clauseText_of_ne_nil empty]
      simp
    have fits := reads (mask .nested u ++ [' ']) (mask .nested (body ++ t))
      (by simpa using not_isWord_of_isBlank (by decide))
    rw [← mask_keyword (plain_of_isLeading leading) (body ++ t)] at fits
    have others' (k : Key) (mem : k ∈ ks) : k ∈ clauseKeys ∧ k ∉ own := by
      obtain ⟨listed, other⟩ := others k mem
      exact ⟨listed, fun mem => other (List.mem_append_left _ mem)⟩
    have found := find_keyword starts others' before (isLed_of_isLeading leading _) fits
    have keys' (k : Key) (mem : k ∈ ks') : k.isLower = true ∧ ¬ k.Occurs (mask .nested body) :=
      ⟨isLower_clauseKeys k (keys k mem).1, (keys k mem).2⟩
    have cut := body_spaced before.closed plain closed ends keys' after.led (meets empty)
    have place : mask .nested u ++ [' '] ++ keyword = mask .nested u ++ ' ' :: keyword := by simp
    rw [List.cons_append, trimmed] at cut
    rw [text, found]
    dsimp only
    rw [place, cut]
    rfl

end Written

/-! ## What follows a table -/

/-- The first word is one that is never an alias. -/
def startsReserved (keyword : Text) : Bool :=
  isTableWord (keyword.takeWhile isWord) && !sameFold "as" (keyword.takeWhile isWord) &&
    isReserved (keyword.takeWhile isWord) && (keyword.dropWhile isWord).head?.all (· == ' ')

section Ends

variable {keyword body t : Text} (leading : isLeading keyword = true) (starts : startsReserved keyword = true)
include leading starts

/-- A table is over where the keyword of a clause follows. -/
theorem endsTable_keyword (t : Text) : EndsTable (mask .nested (' ' :: (keyword ++ ' ' :: t))) := by
  have space : Plain [' '] := by decide
  have shown : mask .nested (' ' :: (keyword ++ ' ' :: t)) = ' ' :: mask .nested (keyword ++ ' ' :: t) :=
    mask_plain_append _ space
  simp only [startsReserved, Bool.and_eq_true, Bool.not_eq_true'] at starts
  obtain ⟨⟨⟨named, other⟩, kept⟩, after⟩ := starts
  rw [shown, mask_keyword (plain_of_isLeading leading)]
  refine .inr ⟨keyword.takeWhile isWord, keyword.dropWhile isWord ++ ' ' :: mask .nested t, ?_, named, other, kept, ?_⟩
  · rw [← List.append_assoc, List.takeWhile_append_dropWhile]
  · cases tail : keyword.dropWhile isWord with
    | nil => exact .inr ⟨_, rfl⟩
    | cons c more =>
      rw [tail] at after
      have same : c = ' ' := by simpa using after
      exact .inr ⟨more ++ ' ' :: mask .nested t, by rw [same]; rfl⟩

theorem endsTable_clauseText (ends : EndsTable (mask .nested t)) :
    EndsTable (mask .nested (clauseText keyword body ++ t)) := by
  by_cases empty : body = []
  · rw [empty, clauseText_nil]
    exact ends
  · have text : clauseText keyword body ++ t = ' ' :: (keyword ++ ' ' :: (body ++ t)) := by
      rw [clauseText_of_ne_nil empty]
      simp
    rw [text]
    exact endsTable_keyword leading starts _

end Ends

/-! ## Whole statements -/

/-- Each part of the statement is what is read for it from the text. -/
structure ReadsAs (t : Text) (s : Statement) : Prop where
  main : (Source.ofText t).main? = s.main
  kind : kindOf t = s.kind
  columns : (Source.ofText t).columns s.kind = .ok (s.columns, s.distinct)
  joins : (Source.ofText t).joins = .ok s.joins
  condition : ∃ found, (Source.ofText t).clause (Scan.word "where") whereEnd = .ok found ∧ found.getD [] = s.condition
  values : (if s.kind == .insert then (Source.ofText t).values else .ok none) = .ok s.values
  assignments : (if s.kind == .update then (Source.ofText t).assignments else .ok none) = .ok s.assignments
  groupBy : (Source.ofText t).groupBy = .ok s.groupBy
  having : (Source.ofText t).clause (Scan.word "having") havingEnd = .ok s.having
  orderBy : (Source.ofText t).orderBy = .ok s.orderBy
  limit : (Source.ofText t).limit? = s.limit

/-- A statement with a table is read part by part. -/
theorem ReadsAs.parse {s : Statement} (reads : ReadsAs t s) {table : Table} (main : s.main = some table)
    (stripped : strip u = t) : Statement.parse u = .ok s := by
  obtain ⟨found, condition, given⟩ := reads.condition
  have text : (Source.ofText t).text = t := rfl
  have values (f : Option (List Text) → Except Fault Statement) :
      (if s.kind == .insert then (Source.ofText t).values >>= f else .ok none >>= f) = f s.values := by
    rw [← apply_ite (· >>= f), reads.values]
    rfl
  have assignments (f : Option (List Assignment) → Except Fault Statement) :
      (if s.kind == .update then (Source.ofText t).assignments >>= f else .ok none >>= f) = f s.assignments := by
    rw [← apply_ite (· >>= f), reads.assignments]
    rfl
  rw [Statement.parse, stripped]
  dsimp only
  rw [reads.main, main]
  dsimp only
  rw [text, reads.kind, reads.columns, reads.joins, condition]
  change (if s.kind == .insert then _ else _) = _
  rw [values, assignments, reads.groupBy, reads.having, reads.orderBy, reads.limit]
  change Except.ok { s with main := some table, condition := found.getD [] } = _
  rw [given, ← main]

/-- The words that start a statement. -/
def statementWords : List Text := ["select", "insert", "update", "delete"]

/-- A statement starts with its keyword. -/
theorem statement_keyword {keyword : Text} (ascii : isAscii keyword = true)
    (settled : statementWords.all (fun w => sameWord w keyword || startsOther w keyword) = true)
    (listed : statementWords.any (sameWord · keyword) = true) (named : isTableWord keyword = true) (rest : Text) :
    Pattern.statement (Cursor.start (keyword ++ ' ' :: rest)) = some (keyword, between keyword (' ' :: rest)) := by
  have gap : blanks (between [] (keyword ++ ' ' :: rest)) = some ((), between [] (keyword ++ ' ' :: rest)) :=
    blanks_some.2 ⟨[], keyword ++ ' ' :: rest, rfl, blank_nil, not_isBlank_of_isTableWord named _, rfl⟩
  have read : Scan.first [letters "select", letters "insert", letters "update", letters "delete"]
      (between [] (keyword ++ ' ' :: rest)) = some (keyword, between keyword (' ' :: rest)) := by
    have found : Scan.first (statementWords.map letters) (between [] (keyword ++ ' ' :: rest)) = _ :=
      first_words statementWords ascii (by decide) settled
    rw [if_pos listed] at found
    exact found
  have after : (between keyword (' ' :: rest)).atEdge = true := by
    have filled := ne_nil_of_isTableWord named
    have letter := chars_of_isTableWord named _ (List.getLast_mem filled)
    have space : isWord ' ' = false := not_isWord_of_isBlank (by decide)
    rw [atEdge_between, List.getLast?_eq_some_getLast filled]
    simp [letter, space]
  have edge : Scan.edge (between keyword (' ' :: rest)) = some ((), between keyword (' ' :: rest)) :=
    edge_some.2 ⟨after, rfl⟩
  exact (bind_of_some gap).trans ((bind_of_some read).trans (bind_of_some edge))

theorem kindOf_select (rest : Text) : kindOf ("SELECT".toList ++ ' ' :: rest) = .select := by
  rw [kindOf, statement_keyword (by decide) (by decide) (by decide) (by decide)]
  rfl

theorem kindOf_insert (rest : Text) : kindOf ("INSERT".toList ++ ' ' :: rest) = .insert := by
  rw [kindOf, statement_keyword (by decide) (by decide) (by decide) (by decide)]
  rfl

theorem kindOf_update (rest : Text) : kindOf ("UPDATE".toList ++ ' ' :: rest) = .update := by
  rw [kindOf, statement_keyword (by decide) (by decide) (by decide) (by decide)]
  rfl

/-- A statement without white space around it and without a semicolon at its end stays as it is. -/
theorem strip_eq_self (trimmed : trim t = t) (open' : t.getLast? ≠ some ';') : strip t = t := by
  have kept : t.reverse.dropWhile (· == ';') = t.reverse := by
    cases turned : t.reverse with
    | nil => rfl
    | cons c more =>
      apply List.dropWhile_cons_of_neg
      rw [beq_iff_eq]
      rintro rfl
      apply open'
      rw [← List.head?_reverse, turned]
      rfl
  have last : trimEnd t = t := by
    rw [← trimmed, trim, trimEnd_trimEnd]
  rw [strip, trimmed, kept, List.reverse_reverse, last]

/-- A quiet statement has no semicolon at its end. -/
theorem IsQuiet.getLast_ne (quiet : IsQuiet own t) (other : .semicolon ∉ own) : t.getLast? ≠ some ';' := by
  intro last
  obtain ⟨lead, tail, split⟩ := List.append_of_mem (last_mem_mask (by decide) last quiet.closed)
  have silent := quiet.silent .semicolon (by decide) other [] follows_nil [] lead (';' :: tail) split (by simp)
  exact silent rfl

end Statement
end QueryCode
