import QueryCode.Proofs.Statement.RoundTrip
import QueryCode.Proofs.Statement.Values

/-!
# Names in backticks

Every pattern for a table takes the backticks around its name away, so a quoted name is read like a bare one. The match
of a table without an alias ends right after the letters of its name, though. For a joined table this is the place from
which its condition is looked for, and in front of the closing backtick there is none. So quoting changes nothing but
the conditions of joins without an alias, which are lost: `parse_spelling`.
-/

namespace QueryCode
set_option autoImplicit false

open Text Text.Scan Text.Cursor Pattern

namespace Statement

/-! ## Selections -/

/-- The selection with the names of its tables as they are spelled: that of the main table, and those of the joined tables
by their numbers. -/
def spelled (main : Bool) (joined : Nat → Bool) (s : Statement) : Statement :=
  { s with
    main := s.main.map (spelledTable main)
    joins := s.joins.mapIdx fun i j => spelledJoin (joined i) j }

/-- The selection without the conditions of the joins with these numbers. Joins with an alias keep theirs. -/
def loosened (joined : Nat → Bool) (s : Statement) : Statement :=
  { s with joins := s.joins.mapIdx fun i j => if joined i && j.alias?.isNone then { j with on := [] } else j }

theorem map_mapIdx {α β γ : Type} (f : Nat → α → β) (g : β → γ) (l : List α) :
    (l.mapIdx f).map g = l.mapIdx fun i a => g (f i a) := by
  refine List.ext_getElem? fun i => ?_
  rw [List.getElem?_map, List.getElem?_mapIdx, List.getElem?_mapIdx, Option.map_map]
  rfl

/-- A join that is written is read back, unless it is quoted and has no alias. -/
theorem read_spelled {j : Join} (written : IsJoin j) (ticked : Bool) :
    (Piece.ofJoin ticked j).read = if ticked && j.alias?.isNone then { j with on := [] } else j := by
  have condition : readCondition j.on = j.on := by
    rw [readCondition_of_not_mem written.on.closed (written.on.silent .semicolon (by decide)), written.on.solid.trim]
  rw [Piece.read, Piece.ofJoin]
  dsimp only
  rw [condition]
  cases ticked && j.alias?.isNone <;> rfl

section Select

variable {s : Statement} (select : IsSelect s) (main : Bool) (joined : Nat → Bool)
include select

theorem isJoin_spelled : ∀ p ∈ s.joins.mapIdx fun i j => Piece.ofJoin (joined i) j, p.IsJoin textKeys := by
  intro p mem
  obtain ⟨i, bound, rfl⟩ := List.mem_mapIdx.1 mem
  exact isJoin_ofJoin (joined i) (select.joins _ (List.getElem_mem bound))

theorem selectText_spelled : selectText (spelled main joined s) =
    sectionsText s main (s.joins.mapIdx fun i j => Piece.ofJoin (joined i) j) (s.clauses (limitClause s.limit)) := by
  have pieces := isJoin_spelled select joined
  have text := joinsText_spelled (fun p mem => (pieces p mem).keyword) (fun p mem => (pieces p mem).tail)
  rw [map_mapIdx] at text
  rw [sectionsText, ← text, selectText, spelled]
  dsimp only
  rw [Option.elim_map]
  rfl

/-- **A quoted selection is read back**, but for the conditions of quoted joins without an alias. -/
theorem parse_spelled_select : parse (selectText (spelled main joined s)) = .ok (loosened joined s) := by
  have read : (s.joins.mapIdx fun i j => Piece.ofJoin (joined i) j).map Piece.read = (loosened joined s).joins := by
    rw [map_mapIdx]
    refine List.mapIdx_eq_mapIdx_iff.2 fun i bound => ?_
    exact read_spelled (select.joins _ (List.getElem_mem bound)) (joined i)
  rw [selectText_spelled select, parse_spelled main select (isJoin_spelled select joined), read]
  rfl

/-- Nothing is lost exactly if every quoted join has an alias. -/
theorem loosened_eq_self_iff :
    loosened joined s = s ↔ ∀ i j, s.joins[i]? = some j → joined i = true → j.alias? ≠ none := by
  have same : loosened joined s = s ↔ (loosened joined s).joins = s.joins :=
    ⟨congrArg Statement.joins, fun joins => congrArg (fun js => { s with joins := js }) joins⟩
  rw [same, loosened]
  dsimp only
  rw [List.mapIdx_eq_iff]
  constructor
  · intro kept i j found quoted bare
    have here := kept i
    rw [found, Option.map_some, if_pos (by simp [quoted, bare])] at here
    have lost : j.on = [] := congrArg Join.on (Option.some.inj here)
    exact (select.joins j (List.mem_of_getElem? found)).on.solid.filled lost
  · intro aliased i
    cases found : s.joins[i]? with
    | none => rfl
    | some j =>
      have kept : ¬ (joined i && j.alias?.isNone) = true := by simpa using aliased i j found
      rw [Option.map_some, if_neg kept]

end Select

/-! ## All statements -/

/-- **Backticks around the names of tables.** The same insertions and updates are read with and without them, and so are
selections exactly if no join without an alias is quoted; from such a join the condition is lost. -/
theorem parse_spelling {s : Statement} (select : IsSelect s) (main : Bool) (joined : Nat → Bool) {t : Text}
    (free : isFreeName t = true) (ticked : Bool) :
    (parse (selectText (spelled main joined s)) = .ok (loosened joined s) ∧
      (parse (selectText (spelled main joined s)) = parse (selectText s) ↔
        ∀ i j, s.joins[i]? = some j → joined i = true → j.alias? ≠ none)) ∧
    (∀ cs vs : List Text, (∀ c ∈ cs, isFreeName c = true) → (∀ v ∈ vs, IsItem v ∧ isBalanced v = true) →
      parse (insertText (tickText ticked t) cs vs) = .ok (insertion t cs vs)) ∧
    ∀ (as : List Assignment) (w : Text), as ≠ [] →
      (∀ a ∈ as, IsAssignment a ∧ ¬ HasWord "join" (mask .nested a.value)) →
      (∀ k ∈ .word "join" :: updateKeys, ¬ k.Occurs (mask .nested w)) →
      parse (updateText (tickText ticked t) as w) = .ok (updated t as w) := by
  have quoted := parse_spelled_select select main joined
  have bare : parse (selectText s) = .ok s := by
    rw [selectText_sections select, parse_spelled false select (isJoin_joins select), map_read_joins select]
  refine ⟨⟨quoted, ?_⟩, ?_, ?_⟩
  · rw [quoted, bare, ← loosened_eq_self_iff select joined]
    exact ⟨Except.ok.inj, congrArg Except.ok⟩
  · intro cs vs columns values
    exact parse_insertion ⟨free, ticked, rfl⟩ columns values
  · intro as w filled written silent
    rw [List.forall_mem_cons] at silent
    exact parse_updated ⟨free, ticked, rfl⟩ filled (fun a mem => (written a mem).1) silent.2
      (fun a mem => (written a mem).2) silent.1

/-- The condition behind a quoted table is lost, but not the one behind its alias. -/
theorem parse_spelling_join :
    let s : Statement :=
      { kind := .select
        main := some ⟨"users".toList, none⟩
        columns := [⟨⟨"*".toList, none⟩, none⟩]
        joins := [⟨.plain, false, "JOIN".toList, "posts".toList, none, "posts.user_id = users.id".toList⟩,
          ⟨.left, false, "LEFT JOIN".toList, "tags".toList, some "t".toList, "t.id = 1".toList⟩] }
    let lost : Join := ⟨.plain, false, "JOIN".toList, "posts".toList, none, []⟩
    let as : List Assignment := [⟨"name".toList, "'join'".toList⟩]
    (IsSelect s ∧
      parse "SELECT * FROM `users` JOIN `posts` ON posts.user_id = users.id LEFT JOIN `tags` t ON t.id = 1" =
        .ok { s with joins := lost :: s.joins.tail } ∧
      parse "SELECT * FROM `users` JOIN posts ON posts.user_id = users.id LEFT JOIN `tags` t ON t.id = 1" = .ok s) ∧
    (isFreeName "users" = true ∧ isFreeName "name" = true ∧ (IsItem "'a'" ∧ isBalanced "'a'" = true) ∧
      parse "INSERT INTO `users` (name) VALUES ('a')" = .ok (insertion "users" ["name"] ["'a'"])) ∧
    (as ≠ [] ∧ (∀ a ∈ as, IsAssignment a ∧ ¬ HasWord "join" (mask .nested a.value)) ∧
      (∀ k ∈ .word "join" :: updateKeys, ¬ k.Occurs (mask .nested "id = 1")) ∧
      parse "UPDATE `users` SET name = 'join' WHERE id = 1" = .ok (updated "users" as "id = 1")) := by
  intro s lost as
  have lower : ∀ k ∈ textKeys, k.isLower = true := by decide
  have text {t : Text} := isClauseText_iff lower (t := t)
  have select : IsSelect s := by
    have posts : IsClauseText textKeys "posts.user_id = users.id".toList := text.2 (by decide)
    have tags : IsClauseText textKeys "t.id = 1".toList := text.2 (by decide)
    constructor
    · rfl
    · exact ⟨_, rfl, by decide, by decide⟩
    · exact ⟨by decide, by decide⟩
    · rw [List.forall_mem_cons, List.forall_mem_singleton]
      exact ⟨⟨by decide, by decide, ⟨by decide, by decide⟩, posts⟩, ⟨by decide, by decide, ⟨by decide, by decide⟩, tags⟩⟩
    · exact fun filtered => absurd rfl filtered
    · rfl
    · rfl
    · decide
    · simp [s]
    · decide
    · simp [s]
  have value : IsItem "'a'" ∧ isBalanced "'a'" = true := ⟨⟨by decide, by decide, by decide, by decide⟩, by decide⟩
  have lower' : ∀ k ∈ Key.word "join" :: updateKeys, k.isLower = true := by decide
  have written : ∀ a ∈ as, IsAssignment a ∧ ¬ HasWord "join" (mask .nested a.value) := by
    have silent := Key.not_occurs_of_all (t := mask .nested "'join'") lower' (by decide +kernel)
    rw [List.forall_mem_cons] at silent
    rw [List.forall_mem_singleton]
    exact ⟨⟨by decide, ⟨by decide, by decide, by decide, by decide⟩, silent.2⟩, silent.1⟩
  have silent := Key.not_occurs_of_all (t := mask .nested "id = 1") lower' (by decide +kernel)
  have free : isFreeName "users" = true := by decide
  obtain ⟨⟨all, _⟩, inserts, updates⟩ := parse_spelling select true (fun _ => true) free true
  obtain ⟨⟨second, _⟩, _⟩ := parse_spelling select true (fun i => i == 1) free true
  have allText : selectText (spelled true (fun _ => true) s) =
      "SELECT * FROM `users` JOIN `posts` ON posts.user_id = users.id LEFT JOIN `tags` t ON t.id = 1".toList := by
    decide +kernel
  have secondText : selectText (spelled true (fun i => i == 1) s) =
      "SELECT * FROM `users` JOIN posts ON posts.user_id = users.id LEFT JOIN `tags` t ON t.id = 1".toList := by
    decide +kernel
  rw [allText] at all
  rw [secondText] at second
  refine ⟨⟨select, all, second⟩, ⟨free, by decide, value, ?_⟩, ⟨by decide, written, silent, ?_⟩⟩
  · exact inserts ["name"] ["'a'"] (by decide) (List.forall_mem_singleton.2 value)
  · exact updates as "id = 1" (by decide) written silent

end Statement
end QueryCode
