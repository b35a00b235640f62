import QueryCode.Proofs.Text.Word
import QueryCode.Text.Scan

/-!
# Scans between two texts

A cursor stands between the text before it and the text after it. Each way of putting scans together comes with one
equivalence that says what it finds there and where it stops. A search passes over a text in which the scan
fits nowhere; a scan that starts with a keyword fits nowhere in a text without that word.
-/

namespace QueryCode
set_option autoImplicit false

namespace Text

/-- The place between two texts. -/
def Cursor.between (before rest : Text) : Cursor := ⟨size before, before.getLast?, rest⟩

namespace Cursor

theorem start_eq (t : Text) : start t = between [] t := rfl

@[simp] theorem offset_between (before rest : Text) : (between before rest).offset = size before := rfl

@[simp] theorem rest_between (before rest : Text) : (between before rest).rest = rest := rfl

theorem skip_between (before u rest : Text) :
    (between before (u ++ rest)).skip u.length = between (before ++ u) rest := by
  simp [skip, between, size_append, List.getLast?_append]

theorem atEdge_between (before rest : Text) :
    (between before rest).atEdge = (before.getLast?.any isWord != rest.head?.any isWord) := rfl

end Cursor

namespace Scan

open Cursor

variable {α β : Type} {p q : Scan α} {cur stop : Cursor} {before rest : Text}

/-! ## What a scan finds -/

@[simp] theorem pure_some {a b : α} : (pure a : Scan α) cur = some (b, stop) ↔ a = b ∧ cur = stop := by
  simp [pure]

theorem bind_apply (p : Scan α) (f : α → Scan β) (cur : Cursor) :
    (p >>= f) cur = (match p cur with
      | some (a, cur) => f a cur
      | none => none : Option (β × Cursor)) := rfl

@[simp] theorem bind_some {f : α → Scan β} {b : β} :
    (p >>= f) cur = some (b, stop) ↔ ∃ a mid, p cur = some (a, mid) ∧ f a mid = some (b, stop) := by
  rw [bind_apply]
  match p cur with
  | none => simp
  | some (a, mid) =>
    constructor
    · intro found
      exact ⟨a, mid, rfl, found⟩
    · rintro ⟨_, _, same, found⟩
      cases same
      exact found

theorem bind_of_some {f : α → Scan β} {a : α} {mid : Cursor} (found : p cur = some (a, mid)) :
    (p >>= f) cur = f a mid := by
  rw [bind_apply, found]

theorem bind_of_none {f : α → Scan β} (missed : p cur = none) : (p >>= f) cur = none := by
  rw [bind_apply, missed]

/-- Of three scans in a row, the first two can be taken together. -/
theorem bind_bind {γ : Type} (p : Scan α) (f : α → Scan β) (g : β → Scan γ) :
    (p >>= f) >>= g = p >>= fun a => f a >>= g := by
  funext cur
  rw [bind_apply, bind_apply, bind_apply]
  match p cur with
  | none => rfl
  | some hit => rfl

theorem discard_eq (p : Scan α) : (discard p : Scan Unit) = (p >>= fun _ => pure ()) := rfl

@[simp] theorem discard_some {u : Unit} : (discard p : Scan Unit) cur = some (u, stop) ↔ ∃ a, p cur = some (a, stop) := by
  simp [discard_eq]

theorem discard_of_some {a : α} (found : p cur = some (a, stop)) : (discard p : Scan Unit) cur = some ((), stop) :=
  discard_some.2 ⟨a, found⟩

theorem discard_none (missed : p cur = none) : (discard p : Scan Unit) cur = none := bind_of_none missed

theorem orElse_apply (p q : Scan α) (cur : Cursor) :
    (p <|> q) cur = (match p cur with
      | some hit => some hit
      | none => q cur : Option (α × Cursor)) := rfl

theorem orElse_some {a : α} :
    (p <|> q) cur = some (a, stop) ↔
      p cur = some (a, stop) ∨ (p cur = none ∧ q cur = some (a, stop)) := by
  rw [orElse_apply]
  match p cur with
  | none => simp
  | some hit => simp

theorem opt_some {found : Option α} :
    opt p cur = some (found, stop) ↔
      (found = none ∧ stop = cur ∧ p cur = none) ∨ ∃ a, found = some a ∧ p cur = some (a, stop) := by
  unfold opt
  match p cur with
  | none => simp [eq_comm]
  | some (a, mid) =>
    constructor
    · intro same
      cases same
      exact .inr ⟨a, rfl, rfl⟩
    · rintro (⟨_, _, missing⟩ | ⟨b, rfl, same⟩)
      · cases missing
      · cases same
        rfl

theorem one_some {member : Char → Bool} {c : Char} :
    one member (between before rest) = some (c, stop) ↔
      ∃ after, rest = c :: after ∧ member c = true ∧ stop = between (before ++ [c]) after := by
  unfold one
  cases rest with
  | nil => simp
  | cons d rest =>
    have skipped := skip_between before [d] rest
    simp only [List.cons_append, List.nil_append, List.length_singleton] at skipped
    simp only [rest_between]
    split
    · rename_i is
      simp only [skipped, Option.some.injEq, Prod.mk.injEq, List.cons.injEq]
      constructor
      · rintro ⟨rfl, rfl⟩
        exact ⟨rest, ⟨rfl, rfl⟩, is, rfl⟩
      · rintro ⟨after, ⟨rfl, rfl⟩, _, rfl⟩
        exact ⟨rfl, rfl⟩
    · rename_i other
      simp only [reduceCtorEq, List.cons.injEq, false_iff, not_exists, not_and]
      rintro after ⟨rfl, rfl⟩ is
      exact absurd is other

theorem run_some {member : Char → Bool} {taken : Text} :
    run member (between before rest) = some (taken, stop) ↔
      ∃ after, rest = taken ++ after ∧ (∀ c ∈ taken, member c = true) ∧ after.head?.any member = false ∧
        stop = between (before ++ taken) after := by
  have parts := List.takeWhile_append_dropWhile (p := member) (l := rest)
  have value : run member (between before rest) =
      some (rest.takeWhile member, between (before ++ rest.takeWhile member) (rest.dropWhile member)) := by
    have skipped := skip_between before (rest.takeWhile member) (rest.dropWhile member)
    rw [parts] at skipped
    simp only [run, rest_between, skipped]
  rw [value]
  constructor
  · intro same
    cases same
    refine ⟨rest.dropWhile member, parts.symm, fun c mem => List.mem_takeWhile_imp mem, ?_, rfl⟩
    have stopped := List.head?_dropWhile_not member rest
    revert stopped
    cases (rest.dropWhile member).head? <;> simp
  · rintro ⟨after, rfl, all, ends, rfl⟩
    rw [takeWhile_run all ends, dropWhile_run all ends]

theorem run1_some {member : Char → Bool} {taken : Text} :
    run1 member (between before rest) = some (taken, stop) ↔
      ∃ after, rest = taken ++ after ∧ taken ≠ [] ∧ (∀ c ∈ taken, member c = true) ∧
        after.head?.any member = false ∧ stop = between (before ++ taken) after := by
  unfold run1
  rw [bind_some]
  constructor
  · rintro ⟨found, mid, read, value⟩
    obtain ⟨after, rfl, all, ends, rfl⟩ := run_some.1 read
    split at value
    · cases value
    · rename_i filled
      obtain ⟨rfl, rfl⟩ := pure_some.1 value
      exact ⟨after, rfl, by simpa using filled, all, ends, rfl⟩
  · rintro ⟨after, rfl, filled, all, ends, rfl⟩
    refine ⟨taken, _, run_some.2 ⟨after, rfl, all, ends, rfl⟩, ?_⟩
    rw [if_neg (by simpa using filled)]
    rfl

theorem blanks_some {u : Unit} :
    blanks (between before rest) = some (u, stop) ↔
      ∃ gap after, rest = gap ++ after ∧ Blank gap ∧ after.head?.any isBlank = false ∧
        stop = between (before ++ gap) after := by
  simp only [blanks, discard_some, run_some, Blank]

theorem blanks1_some {u : Unit} :
    blanks1 (between before rest) = some (u, stop) ↔
      ∃ gap after, rest = gap ++ after ∧ gap ≠ [] ∧ Blank gap ∧ after.head?.any isBlank = false ∧
        stop = between (before ++ gap) after := by
  simp only [blanks1, discard_some, run1_some, Blank]

theorem letters_some {w found : Text} :
    letters w (between before rest) = some (found, stop) ↔
      ∃ after, rest = found ++ after ∧ sameFold w found = true ∧ stop = between (before ++ found) after := by
  have value : letters w (between before rest) =
      if sameFold w (rest.take w.length) then some (rest.take w.length, (between before rest).skip w.length) else none :=
    rfl
  rw [value]
  constructor
  · intro read
    split at read
    · rename_i same
      cases read
      have skipped := skip_between before (rest.take w.length) (rest.drop w.length)
      rw [List.take_append_drop, length_of_sameFold same] at skipped
      exact ⟨rest.drop w.length, (List.take_append_drop _ _).symm, same, skipped⟩
    · cases read
  · rintro ⟨after, rfl, same, rfl⟩
    rw [← length_of_sameFold same, List.take_left, if_pos same, skip_between]

theorem edge_some {u : Unit} : edge cur = some (u, stop) ↔ cur.atEdge = true ∧ cur = stop := by
  unfold edge
  split
  · rename_i at'
    simp [at']
  · rename_i at'
    simp [at']

/-- **A whole word fits exactly where it stands.** -/
theorem word_some {w : Text} (lower : isLowerWord w = true) {u : Unit} :
    word w (between before rest) = some (u, stop) ↔
      ∃ found after, rest = found ++ after ∧ sameFold w found = true ∧ before.getLast?.any isWord = false ∧
        after.head?.any isWord = false ∧ stop = between (before ++ found) after := by
  unfold word
  simp only [bind_some, discard_some, edge_some]
  constructor
  · rintro ⟨_, _, ⟨edge, rfl⟩, _, mid, ⟨found, read⟩, edge', rfl⟩
    obtain ⟨after, rfl, same, rfl⟩ := letters_some.1 read
    rw [atEdge_between, head_of_sameFold lower same] at edge
    rw [atEdge_between, last_of_sameFold lower same] at edge'
    exact ⟨found, after, rfl, same, by simpa using edge, by simpa using edge', rfl⟩
  · rintro ⟨found, after, rfl, same, left, right, rfl⟩
    refine ⟨(), _, ⟨?_, rfl⟩, (), _, ⟨found, letters_some.2 ⟨after, rfl, same, rfl⟩⟩, ?_, rfl⟩
    · rw [atEdge_between, left, head_of_sameFold lower same]
      rfl
    · rw [atEdge_between, last_of_sameFold lower same, right]
      rfl

/-! ## Searching -/

theorem find_nil (p : Scan α) (before : Text) :
    find p (between before []) = (p (between before [])).map fun (value, stop) => ⟨between before [], value, stop⟩ := by
  unfold find
  rw [find.go.eq_def]
  change (match p (between before []) with
    | some (value, stop) => some _
    | none => none) = _
  cases p (between before []) <;> rfl

theorem find_cons_of_none {c : Char} (missed : p (between before (c :: rest)) = none) :
    find p (between before (c :: rest)) = find p (between (before ++ [c]) rest) := by
  have step : find.go p (size before) before.getLast? (c :: rest) =
      find.go p (size before + c.utf8Size) (some c) rest := by
    rw [find.go]
    change (match p (between before (c :: rest)) with
      | some (value, stop) => _
      | none => _) = _
    rw [missed]
  have place : find p (between (before ++ [c]) rest) = find.go p (size before + c.utf8Size) (some c) rest := by
    simp [find, between, size_append, size]
  rw [place]
  exact step

/-- The search ends where the scan fits. -/
theorem find_of_some {a : α} (found : p (between before rest) = some (a, stop)) :
    find p (between before rest) = some ⟨between before rest, a, stop⟩ := by
  unfold find
  rw [find.go.eq_def]
  change (match p (between before rest) with
    | some (value, stop) => some _
    | none => _) = _
  rw [found]

/-- The scan fits at no place in a text that has others before and after it. -/
def Misses (p : Scan α) (before u rest : Text) : Prop :=
  ∀ lead tail, u = lead ++ tail → tail ≠ [] → p (between (before ++ lead) (tail ++ rest)) = none

/-- **A search passes over a text in which the scan fits nowhere.** -/
theorem find_of_misses {u : Text} (misses : Misses p before u rest) :
    find p (between before (u ++ rest)) = find p (between (before ++ u) rest) := by
  induction u generalizing before with
  | nil => rw [List.nil_append, List.append_nil]
  | cons c u ih =>
    have missed : p (between before (c :: (u ++ rest))) = none := by
      have here := misses [] (c :: u) rfl (by simp)
      rwa [List.append_nil] at here
    have later : Misses p (before ++ [c]) u rest := by
      intro lead tail split filled
      have there := misses (c :: lead) tail (by rw [split]; rfl) filled
      rw [List.append_assoc]
      exact there
    rw [List.cons_append, find_cons_of_none missed, ih later, List.append_assoc]
    rfl

/-- A search finds nothing in a text in which the scan fits nowhere. -/
theorem find_none_of_misses {u : Text} (misses : Misses p before u []) (ends : p (between (before ++ u) []) = none) :
    find p (between before u) = none := by
  have passed := find_of_misses misses
  rw [List.append_nil] at passed
  rw [passed, find_nil, ends]
  rfl

theorem find_isSome_iff :
    (find p (between before rest)).isSome = true ↔
      ∃ lead tail, rest = lead ++ tail ∧ (p (between (before ++ lead) tail)).isSome = true := by
  induction rest generalizing before with
  | nil =>
    rw [find_nil, Option.isSome_map]
    constructor
    · intro found
      exact ⟨[], [], rfl, by rwa [List.append_nil]⟩
    · rintro ⟨lead, tail, split, found⟩
      obtain ⟨rfl, rfl⟩ := List.append_eq_nil_iff.1 split.symm
      rwa [List.append_nil] at found
  | cons c rest ih =>
    cases here : p (between before (c :: rest)) with
    | none =>
      rw [find_cons_of_none here, ih]
      constructor
      · rintro ⟨lead, tail, rfl, found⟩
        exact ⟨c :: lead, tail, rfl, by rwa [List.append_assoc] at found⟩
      · rintro ⟨lead, tail, split, found⟩
        cases lead with
        | nil =>
          rw [List.append_nil, ← List.nil_append tail, ← split, here] at found
          cases found
        | cons d lead =>
          cases split
          exact ⟨lead, tail, rfl, by rwa [List.append_assoc]⟩
    | some hit =>
      rw [find_of_some here]
      refine iff_of_true rfl ⟨[], c :: rest, rfl, ?_⟩
      rw [List.append_nil, here]
      rfl

/-- **A whole word is found in a text exactly when it stands there.** -/
theorem occurs_word_iff {w : Text} (lower : isLowerWord w = true) {t : Text} :
    occurs (word w) t = true ↔ HasWord w t := by
  rw [occurs, start_eq, find_isSome_iff]
  refine exists_congr fun lead => exists_congr fun tail => and_congr_right fun _ => ?_
  rw [List.nil_append, Option.isSome_iff_exists]
  constructor
  · rintro ⟨⟨u, stop⟩, found⟩
    obtain ⟨letters, after, rfl, same, left, right, _⟩ := (word_some lower).1 found
    exact ⟨letters, after, rfl, same, left, right⟩
  · rintro ⟨letters, after, rfl, same, left, right⟩
    exact ⟨_, (word_some lower (u := ())).2 ⟨letters, after, rfl, same, left, right, rfl⟩⟩

/-! ## Scans that start with a word -/

/-- Wherever the scan fits, one of the words stands. -/
def Opens (p : Scan α) (ws : List Text) : Prop :=
  ∀ before rest, (p (between before rest)).isSome = true → ∃ w ∈ ws, WordAt w before rest

/-- After a word the scan fits only where the word is over. -/
def Breaks (p : Scan α) : Prop :=
  ∀ before rest, before.getLast?.any isWord = true → (p (between before rest)).isSome = true →
    rest.head?.any isWord = false

theorem Breaks.bind (breaks : Breaks p) (f : α → Scan β) : Breaks (p >>= f) := by
  intro before rest word found
  obtain ⟨⟨b, stop⟩, found⟩ := Option.isSome_iff_exists.1 found
  obtain ⟨a, mid, first, _⟩ := bind_some.1 found
  exact breaks before rest word (by rw [first]; rfl)

theorem breaks_edge : Breaks edge := by
  intro before rest word found
  obtain ⟨⟨u, stop⟩, found⟩ := Option.isSome_iff_exists.1 found
  have edge := (edge_some.1 found).1
  rw [atEdge_between, word] at edge
  simpa using edge

theorem not_isWord_of_blank {gap : Text} (blank : Blank gap) (solid : gap ≠ []) (rest : Text) :
    (gap ++ rest).head?.any isWord = false := by
  obtain ⟨c, more, rfl⟩ := List.exists_cons_of_ne_nil solid
  exact not_isWord_of_isBlank (blank c List.mem_cons_self)

theorem breaks_blanks1 : Breaks blanks1 := by
  intro before rest _ found
  obtain ⟨⟨u, stop⟩, found⟩ := Option.isSome_iff_exists.1 found
  obtain ⟨gap, after, rfl, solid, blank, _⟩ := blanks1_some.1 found
  exact not_isWord_of_blank blank solid after

/-- A scan that starts with the letters of a word at its edge, and breaks after them, starts with the word. -/
theorem opens_keyword {w : Text} (lower : isLowerWord w = true) {p : Scan α} (breaks : Breaks p) :
    Opens (do edge; discard (letters w); p) [w] := by
  intro before rest found
  obtain ⟨⟨a, stop⟩, found⟩ := Option.isSome_iff_exists.1 found
  simp only [bind_some, discard_some] at found
  obtain ⟨_, _, left, _, _, ⟨word, read⟩, right⟩ := found
  obtain ⟨edge, rfl⟩ := edge_some.1 left
  obtain ⟨after, rfl, same, rfl⟩ := letters_some.1 read
  rw [atEdge_between, head_of_sameFold lower same] at edge
  refine ⟨w, List.mem_singleton_self w, word, after, rfl, same, by simpa using edge, ?_⟩
  exact breaks _ after (last_of_sameFold lower same before) (by rw [right]; rfl)

theorem opens_word {w : Text} (lower : isLowerWord w = true) : Opens (word w) [w] := opens_keyword lower breaks_edge

theorem first_isSome {ps : List (Scan α)} (mem : p ∈ ps) (fits : (p cur).isSome = true) :
    (first ps cur).isSome = true := by
  induction ps with
  | nil => cases mem
  | cons q ps ih =>
    rw [first, orElse_apply]
    cases found : q cur with
    | some hit => rfl
    | none =>
      rcases List.mem_cons.1 mem with rfl | later
      · rw [found] at fits
        cases fits
      · exact ih later

theorem first_some {ps : List (Scan α)} {a : α} (found : first ps cur = some (a, stop)) :
    ∃ p ∈ ps, p cur = some (a, stop) := by
  induction ps with
  | nil => cases found
  | cons q ps ih =>
    rcases orElse_some.1 found with here | ⟨_, later⟩
    · exact ⟨q, List.mem_cons_self, here⟩
    · obtain ⟨p, mem, fits⟩ := ih later
      exact ⟨p, List.mem_cons_of_mem q mem, fits⟩

/-! ## Scans of a whole text -/

theorem whole_some {t : Text} {a : α} (found : p (between [] t) = some (a, between t [])) : whole? p t = some a := by
  have read : (do let a ← p; finish; pure a : Scan α) (start t) = some (a, between t []) := bind_of_some found
  rw [whole?, read]

theorem whole_none {t : Text} (missed : p (between [] t) = none) : whole? p t = none := by
  have read : (do let a ← p; finish; pure a : Scan α) (start t) = none := bind_of_none missed
  rw [whole?, read]

/-- The scan fits the whole text where it leaves nothing over. -/
theorem whole_eq_some_iff {t : Text} {a : α} :
    whole? p t = some a ↔ ∃ stop, p (between [] t) = some (a, stop) ∧ stop.rest = [] := by
  rw [whole?, start_eq, bind_apply]
  match p (between [] t) with
  | none => simp
  | some (b, stop) =>
    dsimp only
    rw [bind_apply, finish]
    by_cases ends : stop.rest = []
    · simp [ends, pure]
    · simp [ends]

/-- The scan does not fit the whole text where something is left over. -/
theorem whole_none_of_rest {t : Text} {a : α} (found : p (between [] t) = some (a, stop)) (left : stop.rest ≠ []) :
    whole? p t = none := by
  have spill : finish stop = none := by
    rw [finish, if_neg (by simpa using left)]
  have read : (do let a ← p; finish; pure a : Scan α) (start t) = none := (bind_of_some found).trans (bind_of_none spill)
  rw [whole?, read]

theorem shortest_go {q rest head : Text} {a : α} (missed : ∀ c ∈ q, ∀ tail, whole? p (c :: tail) = none)
    (found : whole? p rest = some a) : shortest?.go p head (q ++ rest) = some (head.reverse ++ q, a) := by
  induction q generalizing head with
  | nil =>
    rw [List.nil_append, shortest?.go.eq_def, found, List.append_nil]
  | cons c q ih =>
    rw [List.forall_mem_cons] at missed
    rw [List.cons_append, shortest?.go, missed.1]
    dsimp only
    rw [ih missed.2, List.reverse_cons, List.append_assoc]
    rfl

/-- **The shortest beginning ends where the scan first fits all the rest.** -/
theorem shortest_append {q rest : Text} {a : α} (solid : q ≠ []) (missed : ∀ c ∈ q, ∀ tail, whole? p (c :: tail) = none)
    (found : whole? p rest = some a) : shortest? p (q ++ rest) = some (q, a) := by
  obtain ⟨c, more, rfl⟩ := List.exists_cons_of_ne_nil solid
  rw [List.forall_mem_cons] at missed
  rw [List.cons_append, shortest?, shortest_go missed.2 found]
  rfl

theorem shortest_eq_none {q : Text} (missed : ∀ c ∈ q, ∀ tail, whole? p (c :: tail) = none)
    (ends : whole? p [] = none) : shortest? p q = none := by
  have go (head rest : Text) (missed : ∀ c ∈ rest, ∀ tail, whole? p (c :: tail) = none) :
      shortest?.go p head rest = none := by
    induction rest generalizing head with
    | nil => rw [shortest?.go, ends]
    | cons c rest ih =>
      rw [List.forall_mem_cons] at missed
      rw [shortest?.go, missed.1]
      exact ih (c :: head) missed.2
  cases q with
  | nil => rfl
  | cons c q =>
    rw [List.forall_mem_cons] at missed
    exact go [c] q missed.2

end Scan
end Text
end QueryCode
