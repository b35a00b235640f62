import QueryCode.Proofs.Text.Scan
import QueryCode.Statement.Parser

/-!
# The keywords of the clause patterns

Each pattern starts with a keyword as a whole word, a join also with the word for its side. So a pattern fits nowhere
in a text without these words, however the text goes on. `GROUP BY` and `ORDER BY` are phrases: the first of the two
words alone starts no clause.
-/

namespace QueryCode
set_option autoImplicit false

namespace Pattern

open Text Text.Scan Text.Cursor

variable {before rest : Text} {stop : Cursor}

/-! ## Patterns with one keyword -/

theorem opens_fromTable : Opens fromTable ["from".toList] :=
  opens_keyword (by decide) (breaks_blanks1.bind _)

theorem opens_intoTable : Opens intoTable ["into".toList] :=
  opens_keyword (by decide) (breaks_blanks1.bind _)

theorem opens_limit : Opens limit ["limit".toList] :=
  opens_keyword (by decide) (breaks_blanks1.bind _)

theorem opens_offset : Opens offset ["offset".toList] :=
  opens_keyword (by decide) (breaks_blanks1.bind _)

theorem opens_insertColumns : Opens insertColumns ["into".toList] :=
  opens_keyword (by decide) (breaks_blanks1.bind _)

theorem opens_values : Opens values ["values".toList] := by
  refine opens_keyword (by decide) ?_
  intro before rest _ found
  obtain ⟨⟨a, stop⟩, found⟩ := Option.isSome_iff_exists.1 found
  obtain ⟨_, mid, blank, found⟩ := bind_some.1 found
  obtain ⟨gap, after, rfl, white, _, rfl⟩ := blanks_some.1 blank
  by_cases empty : gap = []
  · -- the parenthesis follows at once
    subst empty
    obtain ⟨_, _, ⟨⟩, found⟩ := bind_some.1 found
    obtain ⟨_, _, read, _⟩ := bind_some.1 found
    obtain ⟨c, one⟩ := discard_some.1 read
    obtain ⟨tail, rfl, paren, _⟩ := one_some.1 one
    obtain rfl := beq_iff_eq.1 paren
    rfl
  · exact not_isWord_of_blank white empty after

/-! ## Phrases -/

/-- The two words stand at a place between two texts, with white space alone between them. -/
def PhraseAt (v w before rest : Text) : Prop :=
  ∃ first gap second after, rest = first ++ (gap ++ (second ++ after)) ∧ sameFold v first = true ∧ gap ≠ [] ∧ Blank gap ∧
    sameFold w second = true ∧ before.getLast?.any isWord = false ∧ after.head?.any isWord = false

/-- The two words stand somewhere in the text, with white space alone between them. -/
def HasPhrase (v w t : Text) : Prop := ∃ before rest, t = before ++ rest ∧ PhraseAt v w before rest

theorem head_not_isBlank {w found : Text} (lower : isLowerWord w = true) (same : sameFold w found = true) (after : Text) :
    (found ++ after).head?.any isBlank = false := by
  obtain ⟨c, more, rfl⟩ := List.exists_cons_of_ne_nil (ne_nil_of_sameFold lower same)
  exact not_isBlank_of_isWord (isWord_of_sameFold lower same c List.mem_cons_self)

theorem phrase_some {v w : Text} (first : isLowerWord v = true) (second : isLowerWord w = true) {u : Unit} :
    phrase v w (between before rest) = some (u, stop) ↔
      ∃ a gap b after, rest = a ++ (gap ++ (b ++ after)) ∧ sameFold v a = true ∧ gap ≠ [] ∧ Blank gap ∧
        sameFold w b = true ∧ before.getLast?.any isWord = false ∧ after.head?.any isWord = false ∧
        stop = between (before ++ (a ++ (gap ++ b))) after := by
  unfold phrase
  simp only [bind_some, discard_some, edge_some]
  constructor
  · rintro ⟨_, _, ⟨left, rfl⟩, _, mid, ⟨a, readA⟩, _, mid', blank, _, mid'', ⟨b, readB⟩, right, rfl⟩
    obtain ⟨afterA, rfl, sameA, rfl⟩ := letters_some.1 readA
    obtain ⟨gap, afterGap, rfl, solid, white, _, rfl⟩ := blanks1_some.1 blank
    obtain ⟨after, rfl, sameB, rfl⟩ := letters_some.1 readB
    rw [atEdge_between, head_of_sameFold first sameA] at left
    rw [atEdge_between, last_of_sameFold second sameB] at right
    exact ⟨a, gap, b, after, rfl, sameA, solid, white, sameB, by simpa using left, by simpa using right, by simp⟩
  · rintro ⟨a, gap, b, after, rfl, sameA, solid, white, sameB, left, right, rfl⟩
    refine ⟨(), _, ⟨?_, rfl⟩, (), _, ⟨a, letters_some.2 ⟨_, rfl, sameA, rfl⟩⟩, (), _,
      blanks1_some.2 ⟨gap, _, rfl, solid, white, head_not_isBlank second sameB after, rfl⟩, (), _,
      ⟨b, letters_some.2 ⟨after, rfl, sameB, rfl⟩⟩, ?_, by simp⟩
    · rw [atEdge_between, head_of_sameFold first sameA, left]
      rfl
    · rw [atEdge_between, last_of_sameFold second sameB, right]
      rfl

/-- A phrase is found in a text exactly when it stands there. -/
theorem occurs_phrase_iff {v w : Text} (first : isLowerWord v = true) (second : isLowerWord w = true) {t : Text} :
    occurs (phrase v w) t = true ↔ HasPhrase v w t := by
  rw [occurs, start_eq, find_isSome_iff]
  refine exists_congr fun lead => exists_congr fun tail => and_congr_right fun _ => ?_
  rw [List.nil_append, Option.isSome_iff_exists]
  constructor
  · rintro ⟨⟨u, stop⟩, found⟩
    obtain ⟨a, gap, b, after, rfl, sameA, solid, white, sameB, left, right, _⟩ := (phrase_some first second).1 found
    exact ⟨a, gap, b, after, rfl, sameA, solid, white, sameB, left, right⟩
  · rintro ⟨a, gap, b, after, rfl, sameA, solid, white, sameB, left, right⟩
    exact ⟨_, (phrase_some first second (u := ())).2
      ⟨a, gap, b, after, rfl, sameA, solid, white, sameB, left, right, rfl⟩⟩

/-- What follows a clause or an item: no word goes on into it, and its first word is not `BY`. -/
structure Follows (rest : Text) : Prop where
  edge : rest.head?.any isWord = false
  other : (trimStart rest).head?.any (fun c => fold c == 'b') = false

theorem Follows.parted {rest : Text} (follows : Follows rest) (u : Text) : Parted u rest := .inr follows.edge

theorem fold_head_by {found : Text} (same : sameFold "by" found = true) (after : Text) :
    (found ++ after).head?.any (fun c => fold c == 'b') = true := by
  have folded : found.map fold = ['b', 'y'] := (beq_iff_eq.1 same).symm.trans (by decide)
  cases found with
  | nil => cases folded
  | cons c found =>
    rw [List.map_cons, List.cons.injEq] at folded
    simp [folded.1]

/-- A phrase that starts in a text ends there, if no word goes on from the text and no `BY` follows it. -/
theorem PhraseAt.of_append {v lead tail : Text} (phrase : PhraseAt v "by" lead (tail ++ rest))
    (lower : isLowerWord v = true) (solid : tail ≠ []) (follows : Follows rest) : PhraseAt v "by" lead tail := by
  have by' : isLowerWord "by".toList = true := by decide
  obtain ⟨a, gap, b, after, split, sameA, solidGap, white, sameB, left, right⟩ := phrase
  -- what is left over of a word would go on after the text
  have inWord {c : Char} {more : Text} (word : isWord c = true) (eq : rest = c :: more) : False := by
    have edge := follows.edge
    rw [eq, List.head?_cons, Option.any_some, word] at edge
    cases edge
  have inGap {white : Text} (blank : Blank white) (eq : rest = white ++ (b ++ after)) : False := by
    have other := follows.other
    obtain ⟨c, more, start⟩ := List.exists_cons_of_ne_nil (ne_nil_of_sameFold by' sameB)
    have solid := head_not_isBlank by' sameB after
    have trimmed : trimStart (b ++ after) = b ++ after := by
      rw [start, List.cons_append] at solid ⊢
      exact List.dropWhile_cons_of_neg (by simpa using solid)
    rw [eq, trimStart_append blank, trimmed, fold_head_by sameB] at other
    cases other
  have whole : tail ++ rest = (a ++ (gap ++ b)) ++ after := by
    rw [split]
    simp
  rcases List.append_eq_append_iff.1 whole with ⟨spill, span, eq⟩ | ⟨more, rfl, rfl⟩
  · -- the text ends within the second word, the white space or the first word
    rcases List.append_eq_append_iff.1 span with ⟨part, rfl, inner⟩ | ⟨part, start, rfl⟩
    · rcases List.append_eq_append_iff.1 inner with ⟨part', rfl, start⟩ | ⟨part', start, rfl⟩
      · cases spill with
        | nil =>
          rw [List.append_nil] at start
          subst start
          exact ⟨a, gap, b, [], by simp, sameA, solidGap, white, sameB, left, rfl⟩
        | cons c spill =>
          have letter := isWord_of_sameFold by' sameB c (by rw [start]; simp)
          exact (inWord letter eq).elim
      · rw [start, blank_append] at white
        exact (inGap white.2 (by rw [eq]; simp)).elim
    · cases part with
      | nil => exact (inGap white (by rw [eq]; simp)).elim
      | cons c part =>
        have letter := isWord_of_sameFold lower sameA c (by rw [start]; simp)
        exact (inWord letter eq).elim
  · refine ⟨a, gap, b, more, by simp, sameA, solidGap, white, sameB, left, ?_⟩
    cases more with
    | nil => rfl
    | cons c more => exact right

/-! ## Joins -/

/-- The words that can stand in front of `JOIN` and tell its kind. -/
def sideWords : List Text := ["inner".toList, "cross".toList, "left".toList, "right".toList, "full".toList]

/-- The words with which a join can start. -/
def joinOpeners : List Text := "join".toList :: sideWords

theorem isLowerWord_joinOpeners : ∀ w ∈ joinOpeners, isLowerWord w = true := by decide

/-- What stands in front of the word `JOIN`: nothing, or the word for the side with white space after it and in front
of the `JOIN`. -/
inductive IsJoinLead : Text → Prop where
  | bare : IsJoinLead []
  | side {w side tail : Text} (listed : w ∈ sideWords) (same : sameFold w side = true)
      (apart : tail.head?.any isBlank = true) (apart' : tail.getLast?.any isBlank = true) : IsJoinLead (side ++ tail)

theorem head_isBlank {gap : Text} (blank : Blank gap) (solid : gap ≠ []) (rest : Text) :
    (gap ++ rest).head?.any isBlank = true := by
  obtain ⟨c, more, rfl⟩ := List.exists_cons_of_ne_nil solid
  exact blank c List.mem_cons_self

theorem last_isBlank {gap : Text} (blank : Blank gap) (solid : gap ≠ []) (before : Text) :
    (before ++ gap).getLast?.any isBlank = true := by
  rw [List.getLast?_append_of_ne_nil _ solid, List.getLast?_eq_some_getLast solid]
  exact blank _ (List.getLast_mem solid)

/-- The words of a side, each as it is scanned for. -/
theorem side_some (ws : List Text) {side : Text} (listed : ∀ w ∈ ws, w ∈ sideWords)
    (found : first (ws.map letters) (between before rest) = some (side, stop)) :
    ∃ w ∈ sideWords, ∃ after, rest = side ++ after ∧ sameFold w side = true ∧
      stop = between (before ++ side) after := by
  obtain ⟨p, mem, fits⟩ := first_some found
  obtain ⟨w, part, rfl⟩ := List.mem_map.1 mem
  obtain ⟨after, split, same, place⟩ := letters_some.1 fits
  exact ⟨w, listed w part, after, split, same, place⟩

/-- The words of a join end with `JOIN`. -/
theorem joinWords_some {v : JoinKind × Bool} (found : joinWords (between before rest) = some (v, stop)) :
    ∃ lead word after, rest = lead ++ (word ++ after) ∧ IsJoinLead lead ∧ sameFold "join" word = true ∧
      stop = between (before ++ (lead ++ word)) after := by
  rcases orElse_some.1 found with inner | ⟨_, found⟩
  · simp only [bind_some, discard_some] at inner
    obtain ⟨side, _, readSide, _, _, blank, _, _, ⟨word, readWord⟩, value⟩ := inner
    obtain ⟨w, listed, _, rfl, same, rfl⟩ :=
      side_some ["inner".toList, "cross".toList] (by decide) readSide
    obtain ⟨gap, _, rfl, solid, white, _, rfl⟩ := blanks1_some.1 blank
    obtain ⟨after, rfl, same', rfl⟩ := letters_some.1 readWord
    obtain ⟨_, rfl⟩ := pure_some.1 value
    refine ⟨side ++ gap, word, after, by simp, .side listed same ?_ ?_, same', by simp⟩
    · simpa using head_isBlank white solid []
    · simpa using last_isBlank white solid []
  · rcases orElse_some.1 found with sided | ⟨_, bare⟩
    · simp only [bind_some, discard_some] at sided
      obtain ⟨side, _, readSide, outer, _, tried, _, _, blank, _, _, ⟨word, readWord⟩, value⟩ := sided
      obtain ⟨w, listed, _, rfl, same, rfl⟩ :=
        side_some ["left".toList, "right".toList, "full".toList] (by decide) readSide
      rcases opt_some.1 tried with ⟨_, rfl, _⟩ | ⟨_, _, present⟩
      · obtain ⟨gap, _, rfl, solid, white, _, rfl⟩ := blanks1_some.1 blank
        obtain ⟨after, rfl, same', rfl⟩ := letters_some.1 readWord
        obtain ⟨_, rfl⟩ := pure_some.1 value
        refine ⟨side ++ gap, word, after, by simp, .side listed same ?_ ?_, same', by simp⟩
        · simpa using head_isBlank white solid []
        · simpa using last_isBlank white solid []
      · simp only [bind_some, discard_some] at present
        obtain ⟨_, _, blank', outerWord, readOuter⟩ := present
        obtain ⟨gap', _, rfl, solid', white', _, rfl⟩ := blanks1_some.1 blank'
        obtain ⟨_, rfl, _, rfl⟩ := letters_some.1 readOuter
        obtain ⟨gap, _, rfl, solid, white, _, rfl⟩ := blanks1_some.1 blank
        obtain ⟨after, rfl, same', rfl⟩ := letters_some.1 readWord
        obtain ⟨_, rfl⟩ := pure_some.1 value
        refine ⟨side ++ (gap' ++ outerWord ++ gap), word, after, by simp, .side listed same ?_ ?_, same', by simp⟩
        · rw [List.append_assoc]
          exact head_isBlank white' solid' _
        · exact last_isBlank white solid _
    · simp only [bind_some, discard_some] at bare
      obtain ⟨_, _, ⟨word, readWord⟩, value⟩ := bare
      obtain ⟨after, rfl, same', rfl⟩ := letters_some.1 readWord
      obtain ⟨_, rfl⟩ := pure_some.1 value
      exact ⟨[], word, after, rfl, .bare, same', rfl⟩

section JoinLead

variable {lead word after : Text} (leading : IsJoinLead lead) (same : sameFold "join" word = true)
  (ends : after.head?.any isWord = false)
include leading same ends

/-- A join starts with one of its words. -/
theorem IsJoinLead.opens (edge : (between before (lead ++ (word ++ after))).atEdge = true) :
    before.getLast?.any isWord = false ∧ ∃ w ∈ joinOpeners, WordAt w before (lead ++ (word ++ after)) := by
  rw [atEdge_between] at edge
  cases leading with
  | bare =>
    rw [List.nil_append, head_of_sameFold (by decide) same] at edge
    have left : before.getLast?.any isWord = false := by simpa using edge
    exact ⟨left, "join".toList, by decide, word, after, rfl, same, left, ends⟩
  | @side w side tail listed same' apart apart' =>
    rw [List.append_assoc, head_of_sameFold (isLowerWord_joinOpeners w (List.mem_cons_of_mem _ listed)) same'] at edge
    have left : before.getLast?.any isWord = false := by simpa using edge
    refine ⟨left, w, List.mem_cons_of_mem _ listed, side, tail ++ (word ++ after), by simp, same', left, ?_⟩
    cases tail with
    | nil => cases apart
    | cons c tail => exact not_isWord_of_isBlank (by simpa using apart)

/-- A join has the word `JOIN` in it. -/
theorem IsJoinLead.hasWord (left : before.getLast?.any isWord = false) : WordAt "join" (before ++ lead) (word ++ after) := by
  refine ⟨word, after, rfl, same, ?_, ends⟩
  cases leading with
  | bare => rwa [List.append_nil]
  | @side w side tail listed same' apart apart' =>
    have solid : tail ≠ [] := by
      rintro rfl
      cases apart
    rw [List.getLast?_append_of_ne_nil _ (by simp [solid]), List.getLast?_append_of_ne_nil _ solid]
    rw [List.getLast?_eq_some_getLast solid] at apart' ⊢
    exact not_isWord_of_isBlank (by simpa using apart')

end JoinLead

/-- Where a join fits: at the edge of a word, with its words and white space after them. -/
theorem join_some {m : JoinMatch} (found : join (between before rest) = some (m, stop)) :
    ∃ lead word after, rest = lead ++ (word ++ after) ∧ IsJoinLead lead ∧ sameFold "join" word = true ∧
      (between before rest).atEdge = true ∧ after.head?.any isWord = false := by
  unfold join at found
  simp only [bind_some] at found
  obtain ⟨_, _, first, v, _, words, _, _, ⟨⟩, _, _, blank, _⟩ := found
  obtain ⟨edge, rfl⟩ := edge_some.1 first
  obtain ⟨lead, word, after, rfl, leading, same, rfl⟩ := joinWords_some words
  obtain ⟨gap, rest, rfl, solid, white, _⟩ := blanks1_some.1 blank
  exact ⟨lead, word, gap ++ rest, rfl, leading, same, edge, not_isWord_of_blank white solid rest⟩

theorem opens_join : Opens join joinOpeners := by
  intro before rest found
  obtain ⟨⟨m, stop⟩, found⟩ := Option.isSome_iff_exists.1 found
  obtain ⟨lead, word, after, rfl, leading, same, edge, ends⟩ := join_some found
  exact (leading.opens same ends edge).2

/-- There is no join without the word `JOIN`. -/
theorem find_join_eq_none {t : Text} (absent : ¬ HasWord "join" t) : find join (start t) = none := by
  rw [← Option.not_isSome_iff_eq_none, start_eq, find_isSome_iff]
  rintro ⟨before, rest, rfl, fits⟩
  rw [List.nil_append] at fits
  obtain ⟨⟨m, stop⟩, found⟩ := Option.isSome_iff_exists.1 fits
  obtain ⟨lead, word, after, rfl, leading, same, edge, ends⟩ := join_some found
  have left := (leading.opens same ends edge).1
  exact absent ⟨before ++ lead, word ++ after, by simp, leading.hasWord same ends left⟩

theorem opens_nextJoin : Opens nextJoin joinOpeners := by
  intro before rest found
  obtain ⟨⟨_, stop⟩, found⟩ := Option.isSome_iff_exists.1 found
  unfold nextJoin at found
  simp only [bind_some] at found
  obtain ⟨_, _, first, _, _, words, last⟩ := found
  obtain ⟨edge, rfl⟩ := edge_some.1 first
  obtain ⟨right, rfl⟩ := edge_some.1 last
  have ends (lead : Text) {word after : Text} (same : sameFold "join" word = true)
      (right : (between (before ++ (lead ++ word)) after).atEdge = true) : after.head?.any isWord = false := by
    rw [atEdge_between, ← List.append_assoc, last_of_sameFold (by decide) same] at right
    simpa using right
  rcases orElse_some.1 words with sided | ⟨_, bare⟩
  · simp only [bind_some, discard_some] at sided
    obtain ⟨_, _, ⟨side, readSide⟩, _, _, blank, _, _, ⟨outer, tried⟩, word, readWord⟩ := sided
    obtain ⟨w, listed, _, rfl, same, rfl⟩ := side_some sideWords (by decide) readSide
    obtain ⟨gap, _, rfl, solid, white, _, rfl⟩ := blanks1_some.1 blank
    rcases opt_some.1 tried with ⟨_, rfl, _⟩ | ⟨_, _, present⟩
    · obtain ⟨after, rfl, same', rfl⟩ := letters_some.1 readWord
      have leading : IsJoinLead (side ++ gap) := by
        refine .side listed same ?_ ?_
        · simpa using head_isBlank white solid []
        · simpa using last_isBlank white solid []
      have edge' : (between before (side ++ gap ++ (word ++ after))).atEdge = true := by simpa using edge
      have found := leading.opens same' (ends (side ++ gap) same' (by simpa using right)) edge'
      simpa using found.2
    · simp only [bind_some, discard_some] at present
      obtain ⟨_, _, ⟨outerWord, readOuter⟩, blank'⟩ := present
      obtain ⟨_, rfl, _, rfl⟩ := letters_some.1 readOuter
      obtain ⟨gap', _, rfl, solid', white', _, rfl⟩ := blanks1_some.1 blank'
      obtain ⟨after, rfl, same', rfl⟩ := letters_some.1 readWord
      have leading : IsJoinLead (side ++ (gap ++ outerWord ++ gap')) := by
        refine .side listed same ?_ (last_isBlank white' solid' _)
        rw [List.append_assoc]
        exact head_isBlank white solid _
      have edge' : (between before (side ++ (gap ++ outerWord ++ gap') ++ (word ++ after))).atEdge = true := by
        simpa using edge
      have found := leading.opens same' (ends (side ++ (gap ++ outerWord ++ gap')) same' (by simpa using right)) edge'
      simpa using found.2
  · obtain ⟨word, readWord⟩ := discard_some.1 bare
    obtain ⟨after, rfl, same', rfl⟩ := letters_some.1 readWord
    exact (IsJoinLead.bare.opens same' (ends [] same' right) edge).2

/-! ## Texts without keywords -/

/-- What starts or ends a clause: a word, a word with `BY` after it, or a semicolon. -/
inductive Key where
  | word (w : Text)
  | by (v : Text)
  | semicolon
  deriving DecidableEq, Repr

namespace Key

/-- The first word of the key. -/
def first? : Key → Option Text
  | .word w | .by w => some w
  | .semicolon => none

/-- The first word is written in the letters `a` to `z`. -/
def isLower (k : Key) : Bool := k.first?.all isLowerWord

/-- The key stands at a place between two texts. -/
def At : Key → Text → Text → Prop
  | .word w => WordAt w
  | .by v => PhraseAt v "by"
  | .semicolon => fun _ rest => rest.head? = some ';'

/-- The key stands somewhere in the text. -/
def Occurs : Key → Text → Prop
  | .word w => HasWord w
  | .by v => HasPhrase v "by"
  | .semicolon => (';' ∈ ·)

/-- The key or at least its first word stands somewhere in the text. -/
def Begins : Key → Text → Prop
  | .word w | .by w => HasWord w
  | .semicolon => (';' ∈ ·)

/-- The search for the key. -/
def occurs : Key → Text → Bool
  | .word w => Scan.occurs (Scan.word w)
  | .by v => Scan.occurs (phrase v "by")
  | .semicolon => (·.contains ';')

/-- The search for the first word of the key. -/
def begins : Key → Text → Bool
  | .word w | .by w => Scan.occurs (Scan.word w)
  | .semicolon => (·.contains ';')

theorem occurs_iff {k : Key} (lower : k.isLower = true) {t : Text} : k.occurs t = true ↔ k.Occurs t := by
  cases k with
  | word w => exact occurs_word_iff lower
  | «by» v => exact occurs_phrase_iff lower (by decide)
  | semicolon => exact List.contains_iff_mem

theorem begins_iff {k : Key} (lower : k.isLower = true) {t : Text} : k.begins t = true ↔ k.Begins t := by
  cases k with
  | word w => exact occurs_word_iff lower
  | «by» v => exact occurs_word_iff lower
  | semicolon => exact List.contains_iff_mem

/-- Whether the keys begin in a text, or occur in it, is decided by looking for them. -/
theorem not_begins_of_all {ks : List Key} {t : Text} (lower : ∀ k ∈ ks, k.isLower = true)
    (check : ks.all (fun k => !k.begins t) = true) : ∀ k ∈ ks, ¬ k.Begins t := by
  intro k mem
  rw [← begins_iff (lower k mem), Bool.not_eq_true, ← Bool.not_eq_true']
  exact List.all_eq_true.1 check k mem

theorem not_occurs_of_all {ks : List Key} {t : Text} (lower : ∀ k ∈ ks, k.isLower = true)
    (check : ks.all (fun k => !k.occurs t) = true) : ∀ k ∈ ks, ¬ k.Occurs t := by
  intro k mem
  rw [← occurs_iff (lower k mem), Bool.not_eq_true, ← Bool.not_eq_true']
  exact List.all_eq_true.1 check k mem

theorem wordAt_of_phraseAt {v : Text} (stands : PhraseAt v "by" before rest) : WordAt v before rest := by
  obtain ⟨a, gap, b, after, rfl, same, solid, white, _, left, _⟩ := stands
  exact ⟨a, gap ++ (b ++ after), rfl, same, left, not_isWord_of_blank white solid _⟩

theorem Occurs.begins {k : Key} {t : Text} (has : k.Occurs t) : k.Begins t := by
  cases k with
  | word w => exact has
  | semicolon => exact has
  | «by» v =>
    obtain ⟨before, rest, split, stands⟩ := has
    exact ⟨before, rest, split, wordAt_of_phraseAt stands⟩

/-- A key that stands in a text stands there also if more follows, unless a word goes on into it. -/
theorem Occurs.append {k : Key} {t v : Text} (has : k.Occurs t) (edge : v.head?.any isWord = false) : k.Occurs (t ++ v) := by
  have ends {after : Text} (right : after.head?.any isWord = false) : (after ++ v).head?.any isWord = false := by
    cases after with
    | nil => exact edge
    | cons c after => exact right
  cases k with
  | word w =>
    obtain ⟨before, rest, rfl, found, after, rfl, same, left, right⟩ := has
    exact ⟨before, found ++ (after ++ v), by simp, found, after ++ v, rfl, same, left, ends right⟩
  | semicolon => exact List.mem_append_left _ has
  | «by» w =>
    obtain ⟨before, rest, rfl, a, gap, b, after, rfl, same, solid, white, same', left, right⟩ := has
    exact ⟨before, a ++ (gap ++ (b ++ (after ++ v))), by simp, a, gap, b, after ++ v, rfl, same, solid, white, same', left,
      ends right⟩

theorem At.of_before {k : Key} {lead : Text} (stands : k.At (before ++ lead) rest) : k.At lead rest := by
  cases k with
  | word w => exact WordAt.of_before stands
  | semicolon => exact stands
  | «by» v =>
    obtain ⟨a, gap, b, after, split, same, solid, white, same', left, right⟩ := stands
    refine ⟨a, gap, b, after, split, same, solid, white, same', ?_, right⟩
    cases last : lead.getLast? with
    | none => rfl
    | some c =>
      rw [List.getLast?_append, last] at left
      exact left

theorem begins_append {k : Key} (lower : k.isLower = true) {u v : Text} (parted : Parted u v)
    (has : k.Begins (u ++ v)) : k.Begins u ∨ k.Begins v := by
  cases k with
  | word w => exact hasWord_append lower parted has
  | «by» w => exact hasWord_append lower parted has
  | semicolon => exact List.mem_append.1 has

theorem begins_join {k : Key} (lower : k.isLower = true) {vs : List Text} (has : k.Begins (Text.join ", " vs)) :
    ∃ v ∈ vs, k.Begins v := by
  cases k with
  | word w => exact hasWord_join lower has
  | «by» w => exact hasWord_join lower has
  | semicolon =>
    induction vs with
    | nil => cases has
    | cons v vs ih =>
      cases vs with
      | nil =>
        rw [join_singleton] at has
        exact ⟨v, List.mem_cons_self, has⟩
      | cons u vs =>
        rw [join_cons_cons] at has
        rcases List.mem_append.1 has with first | later
        · exact ⟨v, List.mem_cons_self, first⟩
        · rcases List.mem_append.1 later with separator | rest
          · exact absurd separator (by decide)
          · obtain ⟨x, mem, has⟩ := ih rest
            exact ⟨x, List.mem_cons_of_mem v mem, has⟩

/-- A word that is not the first one of the key does not begin it. -/
theorem not_begins_of_word {k : Key} {t : Text} (whole : ∀ c ∈ t, isWord c = true)
    (other : ∀ w ∈ k.first?, sameFold w t = false) : ¬ k.Begins t := by
  cases k with
  | word w =>
    intro has
    have same := HasWord.sameFold has whole
    rw [other w rfl] at same
    cases same
  | «by» w =>
    intro has
    have same := HasWord.sameFold has whole
    rw [other w rfl] at same
    cases same
  | semicolon =>
    intro mem
    exact absurd (whole ';' mem) (by decide)

/-- A text without word characters and semicolons begins no key. -/
theorem not_begins_of_edges {k : Key} (lower : k.isLower = true) {t : Text} (edges : t.all (fun c => !isWord c) = true)
    (other : ';' ∉ t) : ¬ k.Begins t := by
  cases k with
  | word w => exact not_hasWord_of_edges lower edges
  | «by» w => exact not_hasWord_of_edges lower edges
  | semicolon => exact other

/-- The key starts nowhere in the text, whatever stands before it. -/
def Silent (k : Key) (u rest : Text) : Prop :=
  ∀ before lead tail, u = lead ++ tail → tail ≠ [] → ¬ k.At (before ++ lead) (tail ++ rest)

theorem silent_nil (k : Key) (rest : Text) : k.Silent [] rest := by
  intro before lead tail split solid
  exact absurd (List.append_eq_nil_iff.1 split.symm).2 solid

theorem Silent.append {k : Key} {u v : Text} (first : k.Silent u (v ++ rest)) (second : k.Silent v rest) :
    k.Silent (u ++ v) rest := by
  intro before lead tail split solid
  rcases List.append_eq_append_iff.1 split with ⟨lead', rfl, rfl⟩ | ⟨tail', rfl, rfl⟩
  · rw [← List.append_assoc]
    exact second _ lead' tail rfl solid
  · by_cases empty : tail' = []
    · subst empty
      have later := second (before ++ lead) [] v rfl solid
      rwa [List.append_nil] at later
    · rw [List.append_assoc]
      exact first before lead tail' rfl empty

theorem mem_of_head_append {tail : Text} {c : Char} (solid : tail ≠ []) (head : (tail ++ rest).head? = some c) :
    c ∈ tail := by
  obtain ⟨d, more, rfl⟩ := List.exists_cons_of_ne_nil solid
  cases head
  exact List.mem_cons_self

variable {k : Key} (lower : k.isLower = true) {u : Text}
include lower

/-- A text without the first word of the key is silent, if no word goes on from its end. -/
theorem silent_of_not_begins (absent : ¬ k.Begins u) (parted : Parted u rest) : k.Silent u rest := by
  rintro before lead tail rfl solid stands
  have inside {w : Text} (lower : isLowerWord w = true) (word : WordAt w (before ++ lead) (tail ++ rest)) :
      HasWord w (lead ++ tail) :=
    ⟨lead, tail, rfl, (word.of_append lower solid (parted.of_append solid)).of_before⟩
  cases k with
  | word w => exact absent (inside lower stands)
  | «by» v => exact absent (inside lower (wordAt_of_phraseAt stands))
  | semicolon => exact absent (List.mem_append_right _ (mem_of_head_append solid stands))

/-- A text without the key is silent, if no word goes on from its end and no `BY` follows. -/
theorem silent_of_not_occurs (absent : ¬ k.Occurs u) (follows : Follows rest) : k.Silent u rest := by
  rintro before lead tail rfl solid stands
  cases k with
  | word w => exact absent ⟨lead, tail, rfl, (At.of_before stands).of_append lower solid (follows.parted tail)⟩
  | «by» v => exact absent ⟨lead, tail, rfl, PhraseAt.of_append (At.of_before stands) lower solid follows⟩
  | semicolon => exact absent (List.mem_append_right _ (mem_of_head_append solid stands))

/-- A list is silent if its items are: no key stands across a comma. -/
theorem silent_join {items : List Text} (silent : ∀ t ∈ items, ∀ rest, Follows rest → k.Silent t rest)
    (follows : Follows rest) : k.Silent (Text.join ", " items) rest := by
  have comma (t : Text) : Follows (", ".toList ++ t) := ⟨rfl, rfl⟩
  have between : ¬ k.Begins ", ".toList := not_begins_of_edges lower (by decide) (by decide)
  induction items with
  | nil => exact k.silent_nil rest
  | cons t items ih =>
    rw [List.forall_mem_cons] at silent
    cases items with
    | nil =>
      rw [join_singleton]
      exact silent.1 rest follows
    | cons u items =>
      rw [join_cons_cons]
      refine Silent.append ?_ ((silent_of_not_begins lower between (.inl (by decide))).append (ih silent.2))
      rw [List.append_assoc]
      exact silent.1 _ (comma _)

/-- A key does not stand in a text that is silent about it. -/
theorem not_occurs_of_silent (silent : k.Silent u []) : ¬ k.Occurs u := by
  have absent {before rest : Text} (split : u = before ++ rest) (solid : rest ≠ []) : ¬ k.At before rest := by
    have here := silent [] before rest split solid
    rwa [List.nil_append, List.append_nil] at here
  cases k with
  | word w =>
    rintro ⟨before, rest, split, found, after, rfl, same, sides⟩
    exact absent split (by simp [ne_nil_of_sameFold lower same]) ⟨found, after, rfl, same, sides⟩
  | «by» v =>
    rintro ⟨before, rest, split, a, gap, b, after, rfl, same, sides⟩
    exact absent split (by simp [ne_nil_of_sameFold lower same]) ⟨a, gap, b, after, rfl, same, sides⟩
  | semicolon =>
    intro mem
    obtain ⟨before, rest, split⟩ := List.append_of_mem mem
    exact absent split (by simp) rfl

end Key

/-- Wherever the scan fits, one of the keys stands. -/
def Starts {α : Type} (p : Scan α) (ks : List Key) : Prop :=
  ∀ before rest, (p (between before rest)).isSome = true → ∃ k ∈ ks, k.At before rest

theorem starts_of_opens {α : Type} {p : Scan α} {ws : List Text} (opens : Opens p ws) : Starts p (ws.map .word) := by
  intro before rest fits
  obtain ⟨w, mem, word⟩ := opens before rest fits
  exact ⟨.word w, List.mem_map_of_mem mem, word⟩

theorem starts_phrase {v : Text} (lower : isLowerWord v = true) : Starts (phrase v "by") [.by v] := by
  intro before rest fits
  obtain ⟨⟨u, stop⟩, found⟩ := Option.isSome_iff_exists.1 fits
  obtain ⟨a, gap, b, after, rfl, same, solid, white, same', left, right, _⟩ :=
    (phrase_some lower (by decide)).1 found
  exact ⟨.by v, List.mem_singleton_self _, a, gap, b, after, rfl, same, solid, white, same', left, right⟩

theorem starts_semicolon : Starts semicolon [.semicolon] := by
  intro before rest fits
  obtain ⟨⟨u, stop⟩, found⟩ := Option.isSome_iff_exists.1 fits
  obtain ⟨c, read⟩ := discard_some.1 found
  obtain ⟨after, rfl, same, _⟩ := one_some.1 read
  exact ⟨.semicolon, List.mem_singleton_self _, congrArg some (beq_iff_eq.1 same)⟩

theorem Starts.mono {α : Type} {p : Scan α} {ks ks' : List Key} (starts : Starts p ks) (subset : ks ⊆ ks') :
    Starts p ks' := by
  intro before rest fits
  obtain ⟨k, mem, stands⟩ := starts before rest fits
  exact ⟨k, subset mem, stands⟩

theorem starts_nil {α : Type} (ks : List Key) : Starts (Scan.first ([] : List (Scan α))) ks := by
  intro before rest fits
  cases fits

theorem starts_cons {α : Type} {p : Scan α} {ps : List (Scan α)} {ks : List Key} (here : Starts p ks)
    (others : Starts (Scan.first ps) ks) : Starts (Scan.first (p :: ps)) ks := by
  intro before rest fits
  rw [Scan.first, orElse_apply] at fits
  cases found : p (between before rest) with
  | some hit => exact here before rest (by rw [found]; rfl)
  | none =>
    rw [found] at fits
    exact others before rest fits

/-- **A pattern passes over a text that is silent about its keys.** -/
theorem Starts.misses {α : Type} {p : Scan α} {ks : List Key} (starts : Starts p ks) {u : Text}
    (silent : ∀ k ∈ ks, k.Silent u rest) : Misses p before u rest := by
  rintro lead tail rfl solid
  by_contra fits
  rw [← ne_eq, Option.ne_none_iff_isSome] at fits
  obtain ⟨k, mem, stands⟩ := starts _ _ fits
  exact silent k mem before lead tail rfl solid stands

/-- A pattern that starts with a key does not fit at the end. -/
theorem Starts.none_nil {α : Type} {p : Scan α} {ks : List Key} (starts : Starts p ks)
    (lower : ∀ k ∈ ks, k.isLower = true) (before : Text) : p (between before []) = none := by
  by_contra fits
  rw [← ne_eq, Option.ne_none_iff_isSome] at fits
  obtain ⟨k, mem, stands⟩ := starts _ _ fits
  have word {w : Text} (lower : isLowerWord w = true) (word : WordAt w before []) : False := by
    obtain ⟨found, after, split, same, _⟩ := word
    exact ne_nil_of_sameFold lower same (List.append_eq_nil_iff.1 split.symm).1
  cases k with
  | word w => exact word (lower _ mem) stands
  | «by» v => exact word (lower _ mem) (Key.wordAt_of_phraseAt stands)
  | semicolon => cases stands

/-! ## What ends a clause -/

theorem starts_word {w : Text} (lower : isLowerWord w = true) : Starts (Scan.word w) [.word w] :=
  starts_of_opens (opens_word lower)

/-- What ends the sort terms. -/
theorem starts_orderEnd : Starts orderEnd [.word "limit", .word "offset", .semicolon] := by
  refine starts_cons ((starts_word (by decide)).mono (by decide)) ?_
  refine starts_cons ((starts_word (by decide)).mono (by decide)) ?_
  exact starts_cons (starts_semicolon.mono (by decide)) (starts_nil _)

/-- What ends a condition on groups. -/
theorem starts_havingEnd : Starts havingEnd [.by "order", .word "limit", .semicolon] := by
  refine starts_cons ((starts_phrase (by decide)).mono (by decide)) ?_
  refine starts_cons ((starts_word (by decide)).mono (by decide)) ?_
  exact starts_cons (starts_semicolon.mono (by decide)) (starts_nil _)

/-- What ends the grouping terms. -/
theorem starts_groupEnd : Starts groupEnd [.word "having", .by "order", .word "limit", .semicolon] := by
  refine starts_cons ((starts_word (by decide)).mono (by decide)) ?_
  exact starts_havingEnd.mono (by decide)

/-- What ends a condition. -/
theorem starts_whereEnd : Starts whereEnd [.by "group", .by "order", .word "having", .word "limit", .semicolon] := by
  refine starts_cons ((starts_phrase (by decide)).mono (by decide)) ?_
  refine starts_cons ((starts_phrase (by decide)).mono (by decide)) ?_
  refine starts_cons ((starts_word (by decide)).mono (by decide)) ?_
  refine starts_cons ((starts_word (by decide)).mono (by decide)) ?_
  exact starts_cons (starts_semicolon.mono (by decide)) (starts_nil _)

/-- What ends a join condition. -/
def joinEndKeys : List Key :=
  joinOpeners.map .word ++ [.word "where", .by "group", .by "order", .word "having", .word "limit", .semicolon]

theorem starts_joinEnd : Starts joinEnd joinEndKeys := by
  refine starts_cons ((starts_of_opens opens_nextJoin).mono (by decide)) ?_
  refine starts_cons ((starts_word (by decide)).mono (by decide)) ?_
  exact starts_whereEnd.mono (by decide)

/-- What ends the assignments. -/
theorem starts_setEnd : Starts setEnd [.word "where", .semicolon] := by
  refine starts_cons ((starts_word (by decide)).mono (by decide)) ?_
  exact starts_cons (starts_semicolon.mono (by decide)) (starts_nil _)

end Pattern
end QueryCode
