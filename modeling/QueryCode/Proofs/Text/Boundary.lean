import QueryCode.Proofs.Ensures
import QueryCode.Proofs.Text.Scan
import QueryCode.Proofs.Text.TopLevel

/-!
# Character boundaries

Clauses are found in the mask of a statement and cut out of the statement. A hidden character of several bytes shows
as that many spaces, so an offset between two spaces of the mask may lie inside a character. Every other place of the
mask is a boundary: `isBoundary_of_mask`. Where a scan stops is traced along its steps by the rules for `Leads`.
-/

namespace QueryCode
set_option autoImplicit false

namespace Text

/-! ## Cutting at boundaries -/

/-- The byte offset lies between two characters of the text or at one of its ends. -/
def IsBoundary (n : Nat) (t : Text) : Prop := ∃ u v, t = u ++ v ∧ size u = n

theorem size_pos {t : Text} (filled : t ≠ []) : 0 < size t := by
  obtain ⟨c, rest, rfl⟩ := List.exists_cons_of_ne_nil filled
  rw [size]
  have := c.utf8Size_pos
  omega

theorem size_eq_zero {t : Text} : size t = 0 ↔ t = [] := by
  constructor
  · intro empty
    by_contra filled
    have := size_pos filled
    omega
  · rintro rfl
    rfl

theorem isBoundary_zero (t : Text) : IsBoundary 0 t := ⟨[], t, rfl, rfl⟩

/-- Of two beginnings of a text the shorter begins the longer. -/
theorem append_of_size_le {u v u' v' : Text} (same : u ++ v = u' ++ v') (le : size u ≤ size u') :
    ∃ x, u' = u ++ x ∧ v = x ++ v' := by
  rcases List.append_eq_append_iff.1 same with ⟨x, longer, rest⟩ | ⟨x, shorter, rest⟩
  · exact ⟨x, longer, rest⟩
  · have empty : x = [] := by
      rw [shorter, size_append] at le
      exact size_eq_zero.1 (by omega)
    subst empty
    rw [List.append_nil] at shorter
    exact ⟨[], by rw [List.append_nil, shorter], rest.symm⟩

/-- Beginnings of the same length are the same. -/
theorem append_inj_of_size {u v u' v' : Text} (same : u ++ v = u' ++ v') (size_eq : size u = size u') : u = u' ∧ v = v' := by
  obtain ⟨x, rfl, rfl⟩ := append_of_size_le same (le_of_eq size_eq)
  rw [size_append] at size_eq
  obtain rfl : x = [] := size_eq_zero.1 (by omega)
  exact ⟨(List.append_nil u).symm, rfl⟩

/-- A text is cut between two boundaries. -/
theorem exists_slice {a b : Nat} {t : Text} (start : IsBoundary a t) (stop : IsBoundary b t) (le : a ≤ b) :
    ∃ u x v, t = u ++ x ++ v ∧ size u = a ∧ size (u ++ x) = b ∧ slice a b t = .ok x := by
  obtain ⟨u, v, rfl, rfl⟩ := start
  obtain ⟨u', v', same, rfl⟩ := stop
  obtain ⟨x, rfl, rfl⟩ := append_of_size_le same le
  rw [← List.append_assoc]
  exact ⟨u, x, v', rfl, rfl, rfl, slice_append u x v'⟩

theorem exists_cut {n : Nat} {t : Text} (boundary : IsBoundary n t) :
    ∃ u v, t = u ++ v ∧ size u = n ∧ cut n t = .ok (u, v) := by
  obtain ⟨u, v, rfl, rfl⟩ := boundary
  exact ⟨u, v, rfl, rfl, cut_size u v⟩

theorem size_of_cut {n : Nat} {t before after : Text} (split : cut n t = .ok (before, after)) : size before = n := by
  fun_induction cut n t generalizing before after with
  | case1 t =>
    cases split
    rfl
  | case2 => cases split
  | case3 n c t fits before' after' inner ih =>
    cases split
    rw [size, ih inner]
    omega
  | case4 => cases split
  | case5 => cases split

/-! ## Boundaries in the mask -/

/-- A place in the middle of what a cell shows has a space on either side. -/
theorem Cell.shown_split {cover : Cover} {cell : Cell} {b r : Text} (split : cell.shown cover = b ++ r) (before : b ≠ [])
    (after : r ≠ []) : b.getLast? = some ' ' ∧ r.head? = some ' ' := by
  unfold shown at split
  split at split
  · have spaces : ∀ c ∈ b ++ r, c = ' ' := by
      rw [← split]
      exact fun c mem => List.eq_of_mem_replicate mem
    rw [List.forall_mem_append] at spaces
    refine ⟨?_, ?_⟩
    · rw [List.getLast?_eq_getLast_of_ne_nil before, spaces.1 _ (List.getLast_mem before)]
    · obtain ⟨c, rest, rfl⟩ := List.exists_cons_of_ne_nil after
      rw [List.head?_cons, spaces.2 c List.mem_cons_self]
  · obtain ⟨c, rest, rfl⟩ := List.exists_cons_of_ne_nil before
    simp [after] at split

/-- A place of shown cells that has no space on one side lies between two cells. -/
theorem flatMap_shown_split {cover : Cover} {cells : List Cell} {b r : Text} (split : cells.flatMap (Cell.shown cover) = b ++ r)
    (firm : b.getLast? ≠ some ' ' ∨ r.head? ≠ some ' ') :
    ∃ cs ds, cells = cs ++ ds ∧ cs.flatMap (Cell.shown cover) = b ∧ ds.flatMap (Cell.shown cover) = r := by
  induction cells generalizing b with
  | nil =>
    obtain ⟨rfl, rfl⟩ := List.append_eq_nil_iff.1 split.symm
    exact ⟨[], [], rfl, rfl, rfl⟩
  | cons cell cells ih =>
    rw [List.flatMap_cons] at split
    rcases List.append_eq_append_iff.1 split with ⟨x, rfl, rest⟩ | ⟨x, middle, rfl⟩
    · -- the place is behind the first cell
      have firm' : x.getLast? ≠ some ' ' ∨ r.head? ≠ some ' ' := by
        refine firm.imp_left fun last => ?_
        cases x with
        | nil => simp
        | cons c x => rwa [List.getLast?_append_of_ne_nil _ (List.cons_ne_nil c x)] at last
      obtain ⟨cs, ds, rfl, shown, rfl⟩ := ih rest firm'
      exact ⟨cell :: cs, ds, rfl, by rw [List.flatMap_cons, shown], rfl⟩
    · -- the place is in the first cell, so at one of its ends
      by_cases before : b = []
      · subst before
        exact ⟨[], cell :: cells, rfl, rfl, by rw [List.flatMap_cons, middle, List.nil_append]⟩
      · by_cases after : x = []
        · subst after
          rw [List.append_nil] at middle
          exact ⟨[cell], cells, rfl, by rw [List.flatMap_singleton, middle], rfl⟩
        · obtain ⟨left, right⟩ := Cell.shown_split middle before after
          rw [List.head?_append, right] at firm
          exact absurd firm (by simp [left])

/-- **A place of the mask that has no space on one side is a character boundary of the text.** -/
theorem isBoundary_of_mask {cover : Cover} {t b r : Text} (split : mask cover t = b ++ r)
    (firm : b.getLast? ≠ some ' ' ∨ r.head? ≠ some ' ') : IsBoundary (size b) t := by
  obtain ⟨cs, ds, cells, rfl, -⟩ := flatMap_shown_split split firm
  refine ⟨cs.map Cell.char, ds.map Cell.char, ?_, (size_flatMap_shown cover cs).symm⟩
  rw [← List.map_append, ← cells, Text.cells, Walk.map_char_cells]

/-! ## Splitting -/

/-- A separator other than the space never shows inside a character. -/
theorem returns_splitTop {sep : Char} (solid : sep ≠ ' ') (t : Text) : Returns (splitTop sep t) :=
  ⟨_, splitTop_eq solid t⟩

theorem offsetOf_some {c : Char} {t : Text} {n : Nat} (found : offsetOf? c t = some n) :
    ∃ u v, t = u ++ c :: v ∧ n = size u := by
  induction t generalizing n with
  | nil => cases found
  | cons d t ih =>
    rw [offsetOf?] at found
    split at found
    · rename_i same
      cases found
      exact ⟨[], t, by rw [eq_of_beq same]; rfl, rfl⟩
    · obtain ⟨k, later, rfl⟩ := Option.map_eq_some_iff.1 found
      obtain ⟨u, v, rfl, rfl⟩ := ih later
      exact ⟨d :: u, v, rfl, by rw [size, Nat.add_comm]⟩

theorem offsetOf_append {c : Char} {u : Text} (first : c ∉ u) (v : Text) : offsetOf? c (u ++ c :: v) = some (size u) := by
  induction u with
  | nil => simp [offsetOf?, size]
  | cons d u ih =>
    rw [List.mem_cons, not_or] at first
    have other : (d == c) = false := beq_eq_false_iff_ne.2 fun same => first.1 same.symm
    rw [List.cons_append, offsetOf?, other, ih first.2, size, Nat.add_comm]
    rfl

theorem offsetOf_none {c : Char} {t : Text} : offsetOf? c t = none ↔ c ∉ t := by
  induction t with
  | nil => simp [offsetOf?]
  | cons d t ih =>
    rw [offsetOf?, List.mem_cons]
    by_cases same : d = c
    · simp [same]
    · have other : ¬ c = d := fun eq => same eq.symm
      simp [same, other, ih]

/-! ## Places -/

namespace Cursor

/-- A place of the text that is no earlier than the byte offset `n`. -/
structure Ahead (m : Text) (n : Nat) (cur : Cursor) : Prop where
  within : ∃ before rest, m = before ++ rest ∧ cur = between before rest
  late : n ≤ cur.offset

theorem Ahead.mono {m : Text} {k n : Nat} {cur : Cursor} (ahead : Ahead m n cur) (le : k ≤ n) : Ahead m k cur :=
  ⟨ahead.within, le_trans le ahead.late⟩

theorem ahead_start (m : Text) : Ahead m 0 (start m) := ⟨⟨[], m, rfl, rfl⟩, le_refl 0⟩

theorem ahead_between {before u rest : Text} {n : Nat} (late : n ≤ size before) :
    Ahead (before ++ (u ++ rest)) n (between (before ++ u) rest) := by
  refine ⟨⟨before ++ u, rest, (List.append_assoc ..).symm, rfl⟩, ?_⟩
  rw [offset_between, size_append]
  omega

end Cursor

/-! ## Where scans stop -/

namespace Scan

open Cursor

variable {α β : Type} {P : Cursor → Prop} {p q : Scan α} {Q : α → Cursor → Prop}

/-- From a place with the first property, whatever the scan finds and the place where it stops have the second. -/
def Leads (P : Cursor → Prop) (p : Scan α) (Q : α → Cursor → Prop) : Prop :=
  ∀ cur a stop, P cur → p cur = some (a, stop) → Q a stop

theorem leads_pure {a : α} (here : ∀ cur, P cur → Q a cur) : Leads P (pure a) Q := by
  rintro cur _ _ place ⟨⟩
  exact here cur place

theorem Leads.bind {f : α → Scan β} {R : β → Cursor → Prop} (first : Leads P p Q) (rest : ∀ a, Leads (Q a) (f a) R) :
    Leads P (p >>= f) R := by
  intro cur b stop place found
  obtain ⟨a, mid, taken, found⟩ := bind_some.1 found
  exact rest a mid b stop (first cur a mid place taken) found

theorem Leads.mono {R : α → Cursor → Prop} (leads : Leads P p Q) (weaker : ∀ a cur, Q a cur → R a cur) : Leads P p R :=
  fun cur a stop place found => weaker a stop (leads cur a stop place found)

theorem Leads.of {P' : Cursor → Prop} (leads : Leads P p Q) (stronger : ∀ cur, P' cur → P cur) : Leads P' p Q :=
  fun cur a stop place => leads cur a stop (stronger cur place)

/-- What is known before stays known. -/
theorem Leads.frame (leads : Leads P p Q) (known : Prop) :
    Leads (fun cur => known ∧ P cur) p fun a cur => known ∧ Q a cur :=
  fun cur a stop place found => ⟨place.1, leads cur a stop place.2 found⟩

theorem Leads.orElse (left : Leads P p Q) (right : Leads P q Q) : Leads P (p <|> q) Q := by
  intro cur a stop place found
  rcases orElse_some.1 found with found | ⟨_, found⟩
  · exact left cur a stop place found
  · exact right cur a stop place found

theorem Leads.opt {R : Option α → Cursor → Prop} (leads : Leads P p fun a => R (some a))
    (absent : ∀ cur, P cur → R none cur) : Leads P (opt p) R := by
  intro cur a stop place found
  rcases opt_some.1 found with ⟨rfl, rfl, _⟩ | ⟨a, rfl, taken⟩
  · exact absent stop place
  · exact leads cur a stop place taken

theorem Leads.discard {R : Cursor → Prop} (leads : Leads P p fun _ => R) : Leads P (discard p) fun _ => R := by
  intro cur _ stop place found
  obtain ⟨a, found⟩ := discard_some.1 found
  exact leads cur a stop place found

theorem leads_first {ps : List (Scan α)} (each : ∀ p ∈ ps, Leads P p Q) : Leads P (first ps) Q := by
  intro cur a stop place found
  obtain ⟨p, mem, found⟩ := first_some found
  exact each p mem cur a stop place found

theorem leads_edge : Leads P edge fun _ => P := by
  intro cur _ stop place found
  obtain ⟨_, rfl⟩ := edge_some.1 found
  exact place

section Places

variable {m : Text} {n : Nat}

/-- What is found first from a place on fits at a place further on. -/
theorem exists_of_find {before rest : Text} {hit : Hit α} (found : find p (between before rest) = some hit) :
    ∃ lead tail, rest = lead ++ tail ∧ hit.start = between (before ++ lead) tail ∧
      p hit.start = some (hit.value, hit.stop) := by
  induction rest generalizing before with
  | nil =>
    rw [find_nil] at found
    obtain ⟨⟨value, stop⟩, fits, rfl⟩ := Option.map_eq_some_iff.1 found
    exact ⟨[], [], rfl, by rw [List.append_nil], fits⟩
  | cons c rest ih =>
    cases fits : p (between before (c :: rest)) with
    | some here =>
      rw [find_of_some fits] at found
      cases found
      exact ⟨[], c :: rest, rfl, by rw [List.append_nil], fits⟩
    | none =>
      rw [find_cons_of_none fits] at found
      obtain ⟨lead, tail, rfl, start, fits⟩ := ih found
      exact ⟨c :: lead, tail, rfl, by rw [start, List.append_assoc]; rfl, fits⟩

theorem find_ahead {cur : Cursor} {hit : Hit α} (ahead : Ahead m n cur) (found : find p cur = some hit) :
    Ahead m n hit.start ∧ p hit.start = some (hit.value, hit.stop) := by
  obtain ⟨⟨before, rest, rfl, rfl⟩, late⟩ := ahead
  obtain ⟨lead, tail, rfl, start, fits⟩ := exists_of_find found
  exact ⟨start ▸ ahead_between late, fits⟩

/-- Every match of a search for all of them fits at a place of the text, if the scan goes forward. -/
theorem findAll_ahead {p : Scan α} (forward : Leads (Ahead m 0) p fun _ => Ahead m 0) :
    ∀ hit ∈ findAll p (start m), Ahead m 0 hit.start ∧ p hit.start = some (hit.value, hit.stop) := by
  have bounded : ∀ n cur, Ahead m 0 cur →
      ∀ hit ∈ findAll.go p n cur, Ahead m 0 hit.start ∧ p hit.start = some (hit.value, hit.stop) := by
    intro n
    induction n with
    | zero =>
      intro cur _ hit mem
      cases mem
    | succ n ih =>
      intro cur ahead
      rw [findAll.go]
      split
      · rename_i hit found
        obtain ⟨place, fits⟩ := find_ahead ahead found
        exact List.forall_mem_cons.2 ⟨⟨place, fits⟩, ih hit.stop (forward _ _ _ place fits)⟩
      · simp
  exact bounded _ _ (ahead_start m)

/-- A place behind another leaves less of the text. -/
theorem length_rest_lt {cur stop : Cursor} (ahead : Ahead m n cur) (past : Ahead m (cur.offset + 1) stop) :
    stop.rest.length < cur.rest.length := by
  obtain ⟨⟨before, rest, rfl, rfl⟩, -⟩ := ahead
  obtain ⟨⟨before', rest', same, rfl⟩, late⟩ := past
  rw [offset_between, offset_between] at late
  obtain ⟨taken, rfl, rfl⟩ := append_of_size_le same (by omega)
  have filled : taken ≠ [] := by
    rintro rfl
    rw [List.append_nil] at late
    omega
  have := List.length_pos_iff.2 filled
  show rest'.length < (taken ++ rest').length
  rw [List.length_append]
  omega

/-- **A search for all matches of a scan that takes something ends before its bound.** -/
theorem findAll_go_eq {p : Scan α} (past : ∀ n, Leads (Ahead m n) p fun _ => Ahead m (n + 1)) {bound : Nat}
    (enough : m.length ≤ bound) : findAll.go p bound (start m) = findAll p (start m) := by
  have shrinks {cur : Cursor} {hit : Hit α} (ahead : Ahead m 0 cur) (found : find p cur = some hit) :
      Ahead m 0 hit.stop ∧ hit.stop.rest.length < cur.rest.length := by
    obtain ⟨place, fits⟩ := find_ahead ⟨ahead.within, le_refl cur.offset⟩ found
    have behind := past _ _ _ _ place fits
    exact ⟨behind.mono (Nat.zero_le _), length_rest_lt ahead behind⟩
  have more : ∀ k cur, Ahead m 0 cur → cur.rest.length ≤ k → findAll.go p (k + 1) cur = findAll.go p k cur := by
    intro k
    induction k with
    | zero =>
      intro cur ahead empty
      rw [findAll.go, findAll.go]
      split
      · rename_i hit found
        have := (shrinks ahead found).2
        omega
      · rfl
    | succ k ih =>
      intro cur ahead short
      rw [findAll.go, findAll.go]
      split
      · rename_i hit found
        obtain ⟨behind, less⟩ := shrinks ahead found
        rw [ih hit.stop behind (by omega)]
      · rfl
  induction bound, enough using Nat.le_induction with
  | base => rfl
  | succ k enough ih => rw [more k _ (ahead_start m) enough, ih]

end Places

end Scan
end Text
end QueryCode
