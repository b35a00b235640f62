import QueryCode.Proofs.Statement.Fits

/-!
# Joins where they were written

The words of a join tell its kind. They are read back from the way they are written, with the table that follows them,
and wherever they stand they are seen as those of the next join.
-/

namespace QueryCode
set_option autoImplicit false

namespace Pattern

open Text Text.Scan Text.Cursor

variable {before rest : Text}

/-! ## The words of a join -/

theorem letters_between' {w word : Text} (same : sameFold w word = true) :
    letters w (between before (word ++ rest)) = some (word, between (before ++ word) rest) :=
  letters_some.2 ⟨rest, rfl, same, rfl⟩

/-- A word with another first letter does not fit. -/
theorem letters_of_head {w word : Text} {k c : Char} (differs : (fold k == fold c) = false) :
    letters (k :: w) (between before (c :: word ++ rest)) = none := by
  have other : sameFold (k :: w) ((c :: word ++ rest).take (k :: w).length) = false := by
    rw [List.length_cons, List.cons_append, List.take_succ_cons, sameFold, List.map_cons, List.map_cons,
      List.cons_beq_cons, differs]
    rfl
  unfold letters
  simp only [rest_between, other]
  rfl

/-- The first letters of the two words are different. -/
def startsOther (v w : Text) : Bool :=
  match v, w with
  | k :: _, c :: _ => k.toLower != c.toLower
  | _, _ => false

/-- **One of several words is found where it stands**, and none where a word with another first letter stands. -/
theorem first_words (ws : List Text) {word : Text} (ascii : isAscii word = true) (ascii' : ws.all isAscii = true)
    (settled : ws.all (fun w => sameWord w word || startsOther w word) = true) :
    first (ws.map letters) (between before (word ++ rest)) =
      if ws.any (sameWord · word) then some (word, between (before ++ word) rest) else none := by
  induction ws with
  | nil => rfl
  | cons w ws ih =>
    rw [List.all_cons, Bool.and_eq_true] at settled ascii'
    obtain ⟨here, later⟩ := settled
    have folded : sameFold w word = sameWord w word := sameFold_ascii ascii'.1 ascii
    rw [List.map_cons, first, orElse_apply, List.any_cons]
    cases same : sameWord w word with
    | true =>
      rw [letters_between' (folded.trans same)]
      rfl
    | false =>
      rw [same, Bool.false_or] at here
      cases w with
      | nil => cases here
      | cons k w =>
        cases word with
        | nil => cases here
        | cons c word =>
          have differs : (fold k == fold c) = false := by
            simp only [isAscii, List.all_cons, Bool.and_eq_true, decide_eq_true_eq] at ascii ascii'
            rw [fold_of_ascii ascii.1, fold_of_ascii ascii'.1.1]
            rw [startsOther, bne_iff_ne] at here
            exact beq_eq_false_iff_ne.2 here
          rw [letters_of_head differs, Bool.false_or]
          exact ih ascii'.2 later

/-- The word in front of `JOIN`. -/
def sideText : JoinKind → Text
  | .plain => []
  | .inner => "INNER"
  | .cross => "CROSS"
  | .left => "LEFT"
  | .right => "RIGHT"
  | .full => "FULL"

/-- The word `OUTER` after the one for the side. -/
def outerText (outer : Bool) : Text := if outer then " OUTER" else []

/-- The words of a join. -/
def joinText (kind : JoinKind) (outer : Bool) : Text :=
  if kind = .plain then "JOIN" else sideText kind ++ (outerText outer ++ " JOIN")

theorem readJoin : (discard (letters "join") : Scan Unit) (between before ("JOIN".toList ++ rest)) =
    some ((), between (before ++ "JOIN".toList) rest) :=
  letters_between (by decide : sameFold "join".toList "JOIN".toList = true)

theorem gapJoin : blanks1 (between before (" JOIN".toList ++ rest)) =
    some ((), between (before ++ [' ']) ("JOIN".toList ++ rest)) := blanks1_space (by rfl)

theorem joinWords_plain :
    joinWords (between before ("JOIN".toList ++ rest)) = some ((.plain, false), between (before ++ "JOIN".toList) rest) := by
  have inner : first [letters "inner", letters "cross"] (between before ("JOIN".toList ++ rest)) = none :=
    (first_words ["inner".toList, "cross".toList] (by decide) (by decide) (by decide)).trans (if_neg (by decide))
  have sided : first [letters "left", letters "right", letters "full"] (between before ("JOIN".toList ++ rest)) = none :=
    (first_words ["left".toList, "right".toList, "full".toList] (by decide) (by decide) (by decide)).trans (if_neg (by decide))
  rw [joinWords, orElse_apply, bind_of_none inner]
  dsimp only
  rw [orElse_apply, bind_of_none sided]
  exact bind_of_some readJoin

theorem joinWords_inner {kind : JoinKind} (listed : kind = .inner ∨ kind = .cross) :
    joinWords (between before (sideText kind ++ (" JOIN".toList ++ rest))) =
      some ((kind, false), between (before ++ (sideText kind ++ " JOIN".toList)) rest) := by
  have side : first [letters "inner", letters "cross"] (between before (sideText kind ++ (" JOIN".toList ++ rest))) =
      some (sideText kind, between (before ++ sideText kind) (" JOIN".toList ++ rest)) := by
    rcases listed with rfl | rfl <;>
      exact (first_words ["inner".toList, "cross".toList] (by decide) (by decide) (by decide)).trans (if_pos (by decide))
  have value : joinKind (sideText kind) false = kind := by
    rcases listed with rfl | rfl <;> decide
  have found : (do
      let side ← first [letters "inner", letters "cross"]
      blanks1
      discard (letters "join")
      return (joinKind side false, false) : Scan (JoinKind × Bool))
        (between before (sideText kind ++ (" JOIN".toList ++ rest))) =
          some ((joinKind (sideText kind) false, false), between (before ++ sideText kind ++ [' '] ++ "JOIN".toList) rest) :=
    (bind_of_some side).trans ((bind_of_some gapJoin).trans (bind_of_some readJoin))
  have place : before ++ sideText kind ++ [' '] ++ "JOIN".toList = before ++ (sideText kind ++ " JOIN".toList) := by simp
  rw [joinWords, orElse_apply, found, place, value]

theorem letters_outer_join : letters "outer" (between before ("JOIN".toList ++ rest)) = none :=
  letters_of_head (by decide : (fold 'o' == fold 'J') = false)

/-- The optional `OUTER` in front of `JOIN`. -/
theorem opt_outer (outer : Bool) :
    opt (do blanks1; discard (letters "outer") : Scan Unit) (between before (outerText outer ++ (" JOIN".toList ++ rest))) =
      some (if outer then some () else none, between (before ++ outerText outer) (" JOIN".toList ++ rest)) := by
  cases outer with
  | true =>
    have gap : blanks1 (between before (" OUTER".toList ++ (" JOIN".toList ++ rest))) =
        some ((), between (before ++ [' ']) ("OUTER".toList ++ (" JOIN".toList ++ rest))) := blanks1_space (by rfl)
    have word : (discard (letters "outer") : Scan Unit)
        (between (before ++ [' ']) ("OUTER".toList ++ (" JOIN".toList ++ rest))) =
          some ((), between (before ++ [' '] ++ "OUTER".toList) (" JOIN".toList ++ rest)) :=
      letters_between (by decide : sameFold "outer".toList "OUTER".toList = true)
    rw [List.append_assoc] at word
    exact opt_some.2 (.inr ⟨(), rfl, (bind_of_some gap).trans word⟩)
  | false =>
    have missed : (do blanks1; discard (letters "outer") : Scan Unit) (between before (" JOIN".toList ++ rest)) = none :=
      (bind_of_some gapJoin).trans (discard_none letters_outer_join)
    refine opt_some.2 (.inl ⟨rfl, ?_, missed⟩)
    rw [outerText, if_neg (by simp), List.append_nil]
    rfl

theorem joinWords_sided {kind : JoinKind} (outer : Bool) (listed : kind = .left ∨ kind = .right ∨ kind = .full) :
    joinWords (between before (sideText kind ++ (outerText outer ++ (" JOIN".toList ++ rest)))) =
      some ((kind, outer), between (before ++ (sideText kind ++ (outerText outer ++ " JOIN".toList))) rest) := by
  have inner : first [letters "inner", letters "cross"]
      (between before (sideText kind ++ (outerText outer ++ (" JOIN".toList ++ rest)))) = none := by
    rcases listed with rfl | rfl | rfl <;>
      exact (first_words ["inner".toList, "cross".toList] (by decide) (by decide) (by decide)).trans (if_neg (by decide))
  have side : first [letters "left", letters "right", letters "full"]
      (between before (sideText kind ++ (outerText outer ++ (" JOIN".toList ++ rest)))) =
        some (sideText kind, between (before ++ sideText kind) (outerText outer ++ (" JOIN".toList ++ rest))) := by
    rcases listed with rfl | rfl | rfl <;>
      exact (first_words ["left".toList, "right".toList, "full".toList] (by decide) (by decide) (by decide)).trans
        (if_pos (by decide))
  have value : joinKind (sideText kind) true = kind := by
    rcases listed with rfl | rfl | rfl <;> decide
  have found : (do
      let side ← first [letters "left", letters "right", letters "full"]
      let outer ← opt (do blanks1; discard (letters "outer"))
      blanks1
      discard (letters "join")
      return (joinKind side true, outer.isSome) : Scan (JoinKind × Bool))
        (between before (sideText kind ++ (outerText outer ++ (" JOIN".toList ++ rest)))) =
          some ((joinKind (sideText kind) true, (if outer then some () else none).isSome),
            between (before ++ sideText kind ++ outerText outer ++ [' '] ++ "JOIN".toList) rest) :=
    (bind_of_some side).trans
      ((bind_of_some (opt_outer outer)).trans ((bind_of_some gapJoin).trans (bind_of_some readJoin)))
  have place : before ++ sideText kind ++ outerText outer ++ [' '] ++ "JOIN".toList =
      before ++ (sideText kind ++ (outerText outer ++ " JOIN".toList)) := by simp
  have flag : (if outer then some () else none).isSome = outer := by cases outer <;> rfl
  rw [joinWords, orElse_apply, bind_of_none inner]
  dsimp only
  rw [orElse_apply, found, place, flag, value]

/-- Only a join that keeps the rows of one side can be called outer. -/
def canBe (kind : JoinKind) (outer : Bool) : Bool := !outer || kind == .left || kind == .right || kind == .full

/-- **The words of a join are read back.** -/
theorem joinWords_between {kind : JoinKind} {outer : Bool} (sides : canBe kind outer = true) :
    joinWords (between before (joinText kind outer ++ rest)) =
      some ((kind, outer), between (before ++ joinText kind outer) rest) := by
  have inner (listed : kind = .inner ∨ kind = .cross) :
      joinWords (between before (joinText kind outer ++ rest)) =
        some ((kind, outer), between (before ++ joinText kind outer) rest) := by
    have bare : outer = false := by
      rcases listed with rfl | rfl <;> simpa [canBe] using sides
    have text : joinText kind outer = sideText kind ++ " JOIN".toList := by
      rw [bare]
      rcases listed with rfl | rfl <;> rfl
    rw [text, List.append_assoc, joinWords_inner listed, bare]
  have sided (listed : kind = .left ∨ kind = .right ∨ kind = .full) :
      joinWords (between before (joinText kind outer ++ rest)) =
        some ((kind, outer), between (before ++ joinText kind outer) rest) := by
    have text : joinText kind outer = sideText kind ++ (outerText outer ++ " JOIN".toList) := by
      rcases listed with rfl | rfl | rfl <;> rfl
    rw [text, List.append_assoc, List.append_assoc, joinWords_sided outer listed]
  cases kind with
  | plain =>
    have bare : outer = false := by simpa [canBe] using sides
    rw [bare]
    exact joinWords_plain
  | inner => exact inner (.inl rfl)
  | cross => exact inner (.inr rfl)
  | left => exact sided (.inl rfl)
  | right => exact sided (.inr (.inl rfl))
  | full => exact sided (.inr (.inr rfl))

theorem head_joinText (kind : JoinKind) (outer : Bool) (rest : Text) :
    (joinText kind outer ++ rest).head?.any isWord = true := by
  cases kind <;> exact chars_of_isTableWord (t := ['J', 'I', 'C', 'L', 'R', 'F']) (by decide) _ (by decide)

/-- **A join is read back with its table.** -/
theorem join_between {kind : JoinKind} {outer : Bool} {t : Text} {alias? : Option Text} (ticked : Bool)
    (sides : canBe kind outer = true) (named : isTableWord t = true) (aliased : ∀ given ∈ alias?, isAlias given = true)
    (ends : EndsTable rest) (left : before.getLast?.any isWord = false) :
    ∃ m spill after,
      join (between before (joinText kind outer ++ ' ' :: (tickText ticked t ++ (aliasText alias? ++ rest)))) =
        some (m, between (before ++ (joinText kind outer ++ ' ' :: (tickText ticked t ++ aliasText alias?)) ++ spill) after) ∧
      m.kind = kind ∧ m.outer = outer ∧ m.wordsEnd.offset = size (before ++ joinText kind outer) ∧
      m.table.table = ⟨t, alias?⟩ ∧
      Finishes ticked alias? (before ++ (joinText kind outer ++ ' ' :: (tickText ticked t ++ aliasText alias?))) rest
        m.table.finish ∧
      rest = spill ++ after ∧ Spill alias? spill after := by
  have words : joinWords (between before (joinText kind outer ++ ' ' :: (tickText ticked t ++ (aliasText alias? ++ rest)))) = _ :=
    joinWords_between sides
  have gap : blanks1 (between (before ++ joinText kind outer) (' ' :: (tickText ticked t ++ (aliasText alias? ++ rest)))) = _ :=
    blanks1_space (not_isBlank_tickText ticked named _)
  obtain ⟨m, spill, after, found, table, finish, split, kept⟩ :=
    @tableMatch_between (before ++ joinText kind outer ++ [' ']) rest t alias? ticked named aliased ends
  have place : before ++ joinText kind outer ++ [' '] ++ (tickText ticked t ++ aliasText alias?) =
      before ++ (joinText kind outer ++ ' ' :: (tickText ticked t ++ aliasText alias?)) := by simp
  rw [place] at found finish
  refine ⟨⟨kind, outer, between (before ++ joinText kind outer) (' ' :: (tickText ticked t ++ (aliasText alias? ++ rest))), m⟩,
    spill, after, ?_, rfl, rfl, rfl, table, finish, split, kept⟩
  refine (bind_of_some (edge_between left (head_joinText kind outer _))).trans ((bind_of_some words).trans ?_)
  exact (bind_of_some (p := here) rfl).trans ((bind_of_some gap).trans (bind_of_some found))

/-- The optional `OUTER` with the space after it. -/
theorem opt_outer_space (outer : Bool) :
    opt (do discard (letters "outer"); blanks1 : Scan Unit)
        (between before ((if outer then "OUTER ".toList else []) ++ ("JOIN".toList ++ rest))) =
      some (if outer then some () else none,
        between (before ++ (if outer then "OUTER ".toList else [])) ("JOIN".toList ++ rest)) := by
  cases outer with
  | true =>
    have word : (discard (letters "outer") : Scan Unit) (between before ("OUTER".toList ++ (" JOIN".toList ++ rest))) =
        some ((), between (before ++ "OUTER".toList) (" JOIN".toList ++ rest)) :=
      letters_between (by decide : sameFold "outer".toList "OUTER".toList = true)
    have gap : blanks1 (between (before ++ "OUTER".toList) (" JOIN".toList ++ rest)) =
        some ((), between (before ++ "OUTER".toList ++ [' ']) ("JOIN".toList ++ rest)) := gapJoin
    rw [List.append_assoc] at gap
    exact opt_some.2 (.inr ⟨(), rfl, (bind_of_some word).trans gap⟩)
  | false =>
    have missed : (do discard (letters "outer"); blanks1 : Scan Unit) (between before ("JOIN".toList ++ rest)) = none :=
      bind_of_none (discard_none letters_outer_join)
    refine opt_some.2 (.inl ⟨rfl, ?_, missed⟩)
    rw [if_neg (by simp), List.append_nil]
    rfl

/-- The words of a join with a side, as they are read where the next join is looked for. -/
theorem nextWords_between {kind : JoinKind} (outer : Bool) (sided : kind ≠ .plain) :
    (do
      discard (first [letters "inner", letters "cross", letters "left", letters "right", letters "full"])
      blanks1
      discard (opt (do discard (letters "outer"); blanks1))
      discard (letters "join") : Scan Unit) (between before (joinText kind outer ++ rest)) =
        some ((), between (before ++ joinText kind outer) rest) := by
  have text (rest : Text) : joinText kind outer ++ rest =
      sideText kind ++ ' ' :: ((if outer then "OUTER ".toList else []) ++ ("JOIN".toList ++ rest)) := by
    rw [joinText, if_neg sided]
    cases outer <;> simp [outerText]
  have side : first [letters "inner", letters "cross", letters "left", letters "right", letters "full"]
      (between before (joinText kind outer ++ rest)) = some (sideText kind, between (before ++ sideText kind)
        (' ' :: ((if outer then "OUTER ".toList else []) ++ ("JOIN".toList ++ rest)))) := by
    rw [text]
    cases kind with
    | plain => exact absurd rfl sided
    | _ => exact (first_words sideWords (by decide) (by decide) (by decide)).trans (if_pos (by decide))
  have gap : blanks1 (between (before ++ sideText kind)
      (' ' :: ((if outer then "OUTER ".toList else []) ++ ("JOIN".toList ++ rest)))) = some ((), between
        (before ++ sideText kind ++ [' ']) ((if outer then "OUTER ".toList else []) ++ ("JOIN".toList ++ rest))) := by
    apply blanks1_space
    cases outer <;> rfl
  have place : before ++ sideText kind ++ [' '] ++ (if outer then "OUTER ".toList else []) ++ "JOIN".toList =
      before ++ joinText kind outer := by
    have whole := text []
    rw [List.append_nil, List.append_nil] at whole
    rw [whole]
    simp only [List.append_assoc, List.cons_append, List.nil_append]
  rw [← place]
  exact (bind_of_some (discard_of_some side)).trans
    ((bind_of_some gap).trans ((bind_of_some (discard_of_some (opt_outer_space outer))).trans readJoin))

theorem joinText_eq (kind : JoinKind) (outer : Bool) : ∃ lead, joinText kind outer = lead ++ "JOIN".toList := by
  by_cases bare : kind = .plain
  · exact ⟨[], if_pos bare⟩
  · refine ⟨sideText kind ++ (outerText outer ++ [' ']), ?_⟩
    rw [joinText, if_neg bare]
    simp

/-- The words of a join start the next join. -/
theorem reads_nextJoin (kind : JoinKind) (outer : Bool) : Reads nextJoin (joinText kind outer) := by
  intro before rest left
  have words : ((do
      discard (first [letters "inner", letters "cross", letters "left", letters "right", letters "full"])
      blanks1
      discard (opt (do discard (letters "outer"); blanks1))
      discard (letters "join")) <|> discard (letters "join") : Scan Unit)
        (between before (joinText kind outer ++ ' ' :: rest)) =
          some ((), between (before ++ joinText kind outer) (' ' :: rest)) := by
    by_cases bare : kind = .plain
    · have empty : first [letters "inner", letters "cross", letters "left", letters "right", letters "full"]
          (between before ("JOIN".toList ++ ' ' :: rest)) = none :=
        (first_words sideWords (by decide) (by decide) (by decide)).trans (if_neg (by decide))
      rw [joinText, if_pos bare, orElse_apply, bind_of_none (discard_none empty)]
      exact readJoin
    · rw [orElse_apply, nextWords_between outer bare]
  have ends : edge (between (before ++ joinText kind outer) (' ' :: rest)) =
      some ((), between (before ++ joinText kind outer) (' ' :: rest)) := by
    obtain ⟨lead, text⟩ := joinText_eq kind outer
    have same : sameFold "join".toList "JOIN".toList = true := by decide
    refine edge_some.2 ⟨?_, rfl⟩
    rw [atEdge_between, text, ← List.append_assoc, last_of_sameFold (by decide) same]
    rfl
  exact (bind_of_some (edge_between left (head_joinText kind outer _))).trans ((bind_of_some words).trans ends)

/-! ## The word that starts a join condition -/

theorem on_between (ends : rest.head?.any isWord = false) :
    on (between before (" ON".toList ++ rest)) = some ((), between (before ++ " ON".toList) rest) := by
  have gap : blanks1 (between before (" ON".toList ++ rest)) =
      some ((), between (before ++ [' ']) ("ON".toList ++ rest)) := blanks1_space (by rfl)
  have same : sameFold "on".toList "ON".toList = true := by decide
  have word : (discard (letters "on") : Scan Unit) (between (before ++ [' ']) ("ON".toList ++ rest)) =
      some ((), between (before ++ [' '] ++ "ON".toList) rest) := letters_between same
  have edge : edge (between (before ++ [' '] ++ "ON".toList) rest) =
      some ((), between (before ++ [' '] ++ "ON".toList) rest) := by
    refine edge_some.2 ⟨?_, rfl⟩
    rw [atEdge_between, last_of_sameFold (by decide) same, ends]
    rfl
  rw [List.append_assoc] at edge word
  exact (bind_of_some gap).trans ((bind_of_some word).trans edge)

end Pattern
end QueryCode
