import Mathlib.Data.List.DropRight
import QueryCode.Text.Basic

/-!
# Texts and their parts

A text is its trimmed inside between two runs of white space, and trimming finds nothing more to take away
from that inside. Reading and planning both trim their input, so they agree on what is left. The other ways to
take a text apart lose no character, and lower case changes the letters `A` to `Z` alone.
-/

namespace QueryCode
set_option autoImplicit false

namespace Text

/-! ## White space -/

/-- The text is white space alone. -/
def Blank (t : Text) : Prop := ∀ c ∈ t, isBlank c = true

instance (t : Text) : Decidable (Blank t) := List.decidableBAll (fun c => isBlank c = true) t

@[simp] theorem blank_nil : Blank [] := by
  intro c mem
  cases mem

@[simp] theorem blank_append {s t : Text} : Blank (s ++ t) ↔ Blank s ∧ Blank t := by
  simp only [Blank, List.mem_append, or_imp, forall_and]

theorem Blank.not_mem {t : Text} {c : Char} (blank : Blank t) (solid : isBlank c = false) : c ∉ t := by
  intro mem
  rw [blank c mem] at solid
  cases solid

theorem trimEnd_eq_rdropWhile (t : Text) : trimEnd t = t.rdropWhile isBlank := rfl

theorem trimStart_eq_nil {t : Text} : trimStart t = [] ↔ Blank t := List.dropWhile_eq_nil_iff

theorem trimEnd_eq_nil {t : Text} : trimEnd t = [] ↔ Blank t := by
  rw [trimEnd_eq_rdropWhile, List.rdropWhile_eq_nil_iff]
  rfl

/-- What trimming takes from the start. -/
theorem exists_trimStart (t : Text) : ∃ lead, Blank lead ∧ t = lead ++ trimStart t :=
  ⟨t.takeWhile isBlank, fun _ mem => List.mem_takeWhile_imp mem, List.takeWhile_append_dropWhile.symm⟩

/-- What trimming takes from the end. -/
theorem exists_trimEnd (t : Text) : ∃ trail, Blank trail ∧ t = trimEnd t ++ trail := by
  obtain ⟨lead, blank, eq⟩ := exists_trimStart t.reverse
  refine ⟨lead.reverse, ?_, ?_⟩
  · intro c mem
    exact blank c (List.mem_reverse.1 mem)
  · have turned := congrArg List.reverse eq
    rwa [List.reverse_reverse, List.reverse_append] at turned

/-- **A text is its trimmed inside between white space.** -/
theorem exists_trim (t : Text) : ∃ lead trail, Blank lead ∧ Blank trail ∧ t = lead ++ trim t ++ trail := by
  obtain ⟨lead, blankLead, eqLead⟩ := exists_trimStart t
  obtain ⟨trail, blankTrail, eqTrail⟩ := exists_trimEnd (trimStart t)
  refine ⟨lead, trail, blankLead, blankTrail, ?_⟩
  rw [List.append_assoc]
  exact eqLead.trans (congrArg (lead ++ ·) eqTrail)

theorem trim_eq_nil {t : Text} : trim t = [] ↔ Blank t := by
  rw [trim, trimEnd_eq_nil]
  constructor
  · intro blank
    obtain ⟨lead, blankLead, eq⟩ := exists_trimStart t
    rw [eq]
    exact blank_append.2 ⟨blankLead, blank⟩
  · intro blank
    rw [trimStart_eq_nil.2 blank]
    exact blank_nil

/-- Nothing blank starts a text whose leading white space is gone. -/
theorem head_trimStart {t rest : Text} {c : Char} (eq : trimStart t = c :: rest) : isBlank c = false := by
  have kept := List.dropWhile_get_zero_not isBlank t (by rw [show t.dropWhile isBlank = c :: rest from eq]; simp)
  simpa [show t.dropWhile isBlank = c :: rest from eq] using kept

/-- Nothing blank starts a trimmed text. -/
theorem head_trim {t rest : Text} {c : Char} (eq : trim t = c :: rest) : isBlank c = false := by
  obtain ⟨trail, _, split⟩ := exists_trimEnd (trimStart t)
  have start : trimStart t = c :: (rest ++ trail) := by
    rw [split, show trimEnd (trimStart t) = c :: rest from eq]
    rfl
  exact head_trimStart start

theorem trimStart_trim (t : Text) : trimStart (trim t) = trim t := by
  match h : trim t with
  | [] => rfl
  | c :: rest => rw [trimStart, List.dropWhile_cons_of_neg (by rw [head_trim h]; simp)]

@[simp] theorem trimEnd_trimEnd (t : Text) : trimEnd (trimEnd t) = trimEnd t := List.rdropWhile_idempotent isBlank t

@[simp] theorem trim_trim (t : Text) : trim (trim t) = trim t := by
  rw [trim, trimStart_trim, trim, trimEnd_trimEnd]

theorem trimStart_append {lead t : Text} (blank : Blank lead) : trimStart (lead ++ t) = trimStart t :=
  List.dropWhile_append_of_pos blank

theorem trimEnd_append {t trail : Text} (blank : Blank trail) : trimEnd (t ++ trail) = trimEnd t := by
  have turned : ∀ c ∈ trail.reverse, isBlank c = true := fun c mem => blank c (List.mem_reverse.1 mem)
  rw [trimEnd, trimEnd, List.reverse_append, List.dropWhile_append_of_pos turned]

/-- White space around a text is trimmed away. -/
theorem trim_append {lead t trail : Text} (before : Blank lead) (after : Blank trail) :
    trim (lead ++ t ++ trail) = trim t := by
  rw [trim, List.append_assoc, trimStart_append before]
  by_cases blank : Blank t
  · rw [trimStart_eq_nil.2 (blank_append.2 ⟨blank, after⟩), trim, trimStart_eq_nil.2 blank]
  · have kept : trimStart (t ++ trail) = trimStart t ++ trail := by
      have solid : (t.dropWhile isBlank).isEmpty = false := by
        rw [List.isEmpty_eq_false_iff]
        exact mt trimStart_eq_nil.1 blank
      simp [trimStart, List.dropWhile_append, solid]
    rw [kept, trimEnd_append after, trim]

/-- A text with no white space at its ends is trimmed. -/
theorem trim_eq_self {t : Text} (first : t.head?.any isBlank = false) (last : t.getLast?.any isBlank = false) :
    trim t = t := by
  have start : trimStart t = t := by
    cases t with
    | nil => rfl
    | cons c t =>
      rw [trimStart, List.dropWhile_cons_of_neg]
      simpa using first
  rw [trim, start, trimEnd_eq_rdropWhile, List.rdropWhile_eq_self_iff]
  intro filled blank
  rw [List.getLast?_eq_some_getLast filled] at last
  simp [blank] at last

theorem head_of_trim {t : Text} (trimmed : trim t = t) : t.head?.any isBlank = false := by
  cases t with
  | nil => rfl
  | cons c t => simpa using head_trim trimmed

theorem trimEnd_eq_self_iff {t : Text} : trimEnd t = t ↔ t.getLast?.any isBlank = false := by
  by_cases empty : t = []
  · rw [empty]
    exact ⟨fun _ => rfl, fun _ => rfl⟩
  · rw [trimEnd_eq_rdropWhile, List.rdropWhile_eq_self_iff, List.getLast?_eq_some_getLast empty]
    simp [empty]

theorem last_of_trim {t : Text} (trimmed : trim t = t) : t.getLast?.any isBlank = false :=
  trimEnd_eq_self_iff.1 (by rw [← trimmed, trim, trimEnd_trimEnd])

/-- The text is not empty and has no white space at its ends. -/
structure IsSolid (t : Text) : Prop where
  filled : t ≠ []
  first : t.head?.any isBlank = false
  last : t.getLast?.any isBlank = false

theorem IsSolid.trim {t : Text} (solid : IsSolid t) : trim t = t := trim_eq_self solid.first solid.last

theorem isSolid_of_trim {t : Text} (filled : t ≠ []) (trimmed : trim t = t) : IsSolid t :=
  ⟨filled, head_of_trim trimmed, last_of_trim trimmed⟩

theorem isSolid_of_class {t : Text} (filled : t ≠ []) (absent : ∀ c ∈ t, isBlank c = false) : IsSolid t := by
  refine ⟨filled, ?_, ?_⟩
  · obtain ⟨c, more, rfl⟩ := List.exists_cons_of_ne_nil filled
    exact absent c List.mem_cons_self
  · rw [List.getLast?_eq_some_getLast filled]
    exact absent _ (List.getLast_mem filled)

theorem IsSolid.append {u w : Text} (first : IsSolid u) (last : IsSolid w) (v : Text) : IsSolid (u ++ (v ++ w)) := by
  obtain ⟨c, more, rfl⟩ := List.exists_cons_of_ne_nil first.filled
  refine ⟨by simp, first.first, ?_⟩
  rw [← List.append_assoc, List.getLast?_append_of_ne_nil _ last.filled]
  exact last.last

/-- No white space ends two texts in a row if none ends either of them. -/
theorem last_append {u v : Text} (first : u.getLast?.any isBlank = false) (second : v.getLast?.any isBlank = false) :
    (u ++ v).getLast?.any isBlank = false := by
  by_cases empty : v = []
  · rw [empty, List.append_nil]
    exact first
  · rw [List.getLast?_append_of_ne_nil _ empty]
    exact second

theorem IsSolid.append_last {u v : Text} (solid : IsSolid u) (last : v.getLast?.any isBlank = false) : IsSolid (u ++ v) := by
  obtain ⟨c, more, rfl⟩ := List.exists_cons_of_ne_nil solid.filled
  exact ⟨by simp, solid.first, last_append solid.last last⟩

/-! ## Parts -/

/-- A run of a class of characters ends where the next one is not of the class. -/
theorem takeWhile_run {p : Char → Bool} {u v : Text} (all : ∀ c ∈ u, p c = true) (ends : v.head?.any p = false) :
    (u ++ v).takeWhile p = u := by
  rw [List.takeWhile_append_of_pos all]
  cases v with
  | nil => simp
  | cons c v => simp_all

theorem dropWhile_run {p : Char → Bool} {u v : Text} (all : ∀ c ∈ u, p c = true) (ends : v.head?.any p = false) :
    (u ++ v).dropWhile p = v := by
  rw [List.dropWhile_append_of_pos all]
  cases v with
  | nil => rfl
  | cons c v => simp_all

/-- The longest run of a class at the start of a text is one. -/
theorem eq_of_runs {p : Char → Bool} {u v u' v' : Text} (split : u ++ v = u' ++ v') (all : ∀ c ∈ u, p c = true)
    (ends : v.head?.any p = false) (all' : ∀ c ∈ u', p c = true) (ends' : v'.head?.any p = false) :
    u = u' ∧ v = v' := by
  constructor
  · rw [← takeWhile_run all ends, split, takeWhile_run all' ends']
  · rw [← dropWhile_run all ends, split, dropWhile_run all' ends']


theorem size_append (s t : Text) : size (s ++ t) = size s + size t := by
  induction s with
  | nil => simp [size]
  | cons c s ih => rw [List.cons_append, size, size, ih, Nat.add_assoc]

/-- A text can be cut after any of its parts. -/
theorem cut_size (u v : Text) : cut (size u) (u ++ v) = .ok (u, v) := by
  induction u with
  | nil => rw [size, List.nil_append, cut]
  | cons c u ih =>
    have filled : 0 < c.utf8Size := c.utf8Size_pos
    obtain ⟨n, total⟩ : ∃ n, size (c :: u) = n + 1 := ⟨size (c :: u) - 1, by rw [size]; omega⟩
    have left : n + 1 - c.utf8Size = size u := by
      rw [← total, size]
      omega
    rw [List.cons_append, total, cut, if_pos (by rw [← total, size]; omega), left, ih]

/-- Any part of a text can be sliced out of it. -/
theorem slice_append (u v w : Text) : slice (size u) (size (u ++ v)) (u ++ v ++ w) = .ok v := by
  rw [slice, cut_size]
  dsimp only
  rw [cut_size]

theorem join_cons_cons (sep v w : Text) (vs : List Text) :
    join sep (v :: w :: vs) = v ++ (sep ++ join sep (w :: vs)) := by
  simp [join, List.intercalate_cons_cons]

theorem join_singleton (sep v : Text) : join sep [v] = v := by
  simp [join]

theorem isSolid_join {vs : List Text} (filled : vs ≠ []) (solid : ∀ v ∈ vs, IsSolid v) (sep : Text) :
    IsSolid (join sep vs) := by
  induction vs with
  | nil => exact absurd rfl filled
  | cons v vs ih =>
    rw [List.forall_mem_cons] at solid
    cases vs with
    | nil =>
      rw [join_singleton]
      exact solid.1
    | cons w vs =>
      rw [join_cons_cons]
      exact solid.1.append (ih (by simp) solid.2) sep

/-- The two sides of a cut make up the text. -/
theorem cut_append {n : Nat} {t before after : Text} (split : cut n t = .ok (before, after)) :
    t = before ++ after := by
  fun_induction cut n t generalizing before after with
  | case1 t =>
    cases split
    rfl
  | case2 => cases split
  | case3 n c t fits before' after' inner ih =>
    cases split
    rw [List.cons_append, ← ih inner]
  | case4 => cases split
  | case5 => cases split

theorem after_append {head t rest : Text} (found : after? head t = some rest) : t = head ++ rest := by
  fun_induction after? head t with
  | case1 =>
    cases found
    rfl
  | case2 => cases found
  | case3 h head c t same ih =>
    rw [ih found, eq_of_beq same]
    rfl
  | case4 => cases found

/-- The pieces of a text are made of its characters. -/
theorem subset_of_mem_pieces {sep : Char} {t piece : Text} (mem : piece ∈ pieces sep t) : piece ⊆ t := by
  induction t generalizing piece with
  | nil =>
    obtain rfl := List.mem_singleton.1 mem
    exact List.Subset.refl []
  | cons c rest ih =>
    rw [pieces] at mem
    split at mem
    · rcases List.mem_cons.1 mem with rfl | later
      · exact List.nil_subset _
      · exact List.Subset.trans (ih later) (List.subset_cons_self c rest)
    · split at mem
      · rename_i empty
        obtain rfl := List.mem_singleton.1 mem
        exact List.cons_subset_cons c (List.nil_subset rest)
      · rename_i first more split
        rcases List.mem_cons.1 mem with rfl | later
        · exact List.cons_subset_cons c (ih (by rw [split]; exact List.mem_cons_self))
        · have inner := ih (by rw [split]; exact List.mem_cons_of_mem _ later)
          exact List.Subset.trans inner (List.subset_cons_self c rest)

/-! ## Classes of characters -/

/-- A property of the characters below 128 is checked for each of them. -/
theorem forall_ascii {p : Char → Bool} (check : (List.range 128).all (fun n => p (Char.ofNat n)) = true) {c : Char}
    (ascii : c.toNat < 128) : p c = true := by
  have held := List.all_eq_true.1 check c.toNat (List.mem_range.2 ascii)
  rwa [Char.ofNat_toNat] at held

/-- What is looked up in a table has a property that is checked for all entries. -/
theorem forall_lookup {α β : Type} [BEq α] [LawfulBEq α] {table : List (α × β)} {p : α × β → Bool} {a : α} {b : β}
    (check : table.all p = true) (found : table.lookup a = some b) : p (a, b) = true := by
  obtain ⟨before, after, rfl, -⟩ := List.lookup_eq_some_iff.1 found
  exact List.all_eq_true.1 check _ (List.mem_append_right before List.mem_cons_self)

/-- The white space characters one by one. -/
def blankCodes : List Nat := blankRanges.flatMap fun (low, high) => List.range' low (high + 1 - low)

theorem mem_codes_of_inRanges {ranges : List (Nat × Nat)} {n : Nat} (member : inRanges ranges n = true) :
    n ∈ ranges.flatMap fun (low, high) => List.range' low (high + 1 - low) := by
  induction ranges with
  | nil => cases member
  | cons range ranges ih =>
    obtain ⟨low, high⟩ := range
    rw [inRanges] at member
    rw [List.flatMap_cons, List.mem_append]
    split at member
    · cases member
    · rw [Bool.or_eq_true, decide_eq_true_eq] at member
      rcases member with within | later
      · left
        rw [List.mem_range'_1]
        omega
      · exact .inr (ih later)

/-- A property of the white space characters is checked for each of them. -/
theorem forall_isBlank {p : Char → Bool} (check : blankCodes.all (fun n => p (Char.ofNat n)) = true) {c : Char}
    (blank : isBlank c = true) : p c = true := by
  have held := List.all_eq_true.1 check c.toNat (mem_codes_of_inRanges blank)
  rwa [Char.ofNat_toNat] at held

/-! ## Letter case -/

/-- Lower case is the character itself, or one of the letters `a` to `z`. -/
theorem toLower_cases (c : Char) :
    c.toLower = c ∨ c.val ≤ 127 ∧ 97 ≤ c.toLower.toNat ∧ c.toLower.toNat ≤ 122 := by
  unfold Char.toLower
  split
  · rename_i upper
    have low : 65 ≤ c.val.toNat := UInt32.le_iff_toNat_le.1 upper.1
    have high : c.val.toNat ≤ 90 := UInt32.le_iff_toNat_le.1 upper.2
    have moved : (c.val + ('a'.val - 'A'.val)).toNat = c.val.toNat + 32 := by
      rw [UInt32.toNat_add, show ('a'.val - 'A'.val).toNat = 32 from rfl]
      omega
    have small : c.val ≤ 127 := UInt32.le_iff_toNat_le.2 (show c.val.toNat ≤ 127 by omega)
    exact .inr ⟨small, by rw [Char.toNat, moved]; omega, by rw [Char.toNat, moved]; omega⟩
  · exact .inl rfl

end Text
end QueryCode
