import QueryCode.Reader

/-!
# What a reading says

Each way of putting readers together comes with one equivalence: a successful reading of the whole is a
successful reading of its parts, one after the other. Proofs about a grammar take a reading apart with these
and never open the readers themselves.
-/

namespace QueryCode
set_option autoImplicit false

namespace Reader

variable {α β : Type} {p q : Reader α} {t rest : Text} {a : α}

@[simp] theorem pure_ok {b : α} :
    (pure a : Reader α) t = .ok (some (b, rest)) ↔ a = b ∧ rest = t := by
  simp [pure, eq_comm (a := rest)]

theorem bind_apply (p : Reader α) (f : α → Reader β) (t : Text) :
    (p >>= f) t = (match p t with
      | .error fault => .error fault
      | .ok none => .ok none
      | .ok (some (a, rest)) => f a rest : Except Fault (Option (β × Text))) := rfl

theorem orElse_apply (p q : Reader α) (t : Text) :
    (p <|> q) t = (match p t with
      | .ok none => q t
      | result => result : Except Fault (Option (α × Text))) := rfl

@[simp] theorem bind_ok {f : α → Reader β} {b : β} :
    (p >>= f) t = .ok (some (b, rest)) ↔
      ∃ a mid, p t = .ok (some (a, mid)) ∧ f a mid = .ok (some (b, rest)) := by
  rw [bind_apply]
  match p t with
  | .error _ => simp
  | .ok none => simp
  | .ok (some (a, mid)) =>
    constructor
    · intro read
      exact ⟨a, mid, rfl, read⟩
    · rintro ⟨_, _, same, read⟩
      cases same
      exact read

theorem bind_none {f : α → Reader β} (missed : (p >>= f) t = .ok none) :
    p t = .ok none ∨ ∃ a mid, p t = .ok (some (a, mid)) ∧ f a mid = .ok none := by
  rw [bind_apply] at missed
  match found : p t with
  | .error _ =>
    rw [found] at missed
    cases missed
  | .ok none => exact .inl rfl
  | .ok (some (a, mid)) =>
    rw [found] at missed
    exact .inr ⟨a, mid, rfl, missed⟩

/-! Where the first of two readers is known to match or to miss, the whole is what is left to read. -/

theorem bind_of_ok {f : α → Reader β} {mid : Text} (read : p t = .ok (some (a, mid))) : (p >>= f) t = f a mid := by
  rw [bind_apply, read]

theorem bind_of_none {f : α → Reader β} (missed : p t = .ok none) : (p >>= f) t = .ok none := by
  rw [bind_apply, missed]

theorem orElse_of_ok {found : α × Text} (read : p t = .ok (some found)) : (p <|> q) t = .ok (some found) := by
  rw [orElse_apply, read]

theorem orElse_of_none (missed : p t = .ok none) : (p <|> q) t = q t := by
  rw [orElse_apply, missed]

/-- The second of two readers is tried only where the first finds no match. -/
theorem orElse_ok :
    (p <|> q) t = .ok (some (a, rest)) ↔
      p t = .ok (some (a, rest)) ∨ (p t = .ok none ∧ q t = .ok (some (a, rest))) := by
  rw [orElse_apply]
  match p t with
  | .error _ => simp
  | .ok none => simp
  | .ok (some (a, mid)) => simp

theorem orElse_none : (p <|> q) t = .ok none ↔ p t = .ok none ∧ q t = .ok none := by
  rw [orElse_apply]
  match p t with
  | .error _ => simp
  | .ok none => simp
  | .ok (some (a, mid)) => simp

@[simp] theorem fail_ok : (fail : Reader α) t ≠ .ok (some (a, rest)) := by
  simp [fail]

@[simp] theorem ofOption_ok {f : Text → Option (α × Text)} :
    ofOption f t = .ok (some (a, rest)) ↔ f t = some (a, rest) := by
  simp [ofOption]

@[simp] theorem ofExcept_ok {e : Except Fault α} :
    ofExcept e t = .ok (some (a, rest)) ↔ e = .ok a ∧ rest = t := by
  match e with
  | .error _ => simp [ofExcept]
  | .ok b => simp [ofExcept, eq_comm (a := rest)]

theorem opt_ok {found : Option α} :
    opt p t = .ok (some (found, rest)) ↔
      (found = none ∧ rest = t ∧ p t = .ok none) ∨ ∃ a, found = some a ∧ p t = .ok (some (a, rest)) := by
  unfold opt
  match p t with
  | .error _ => simp
  | .ok none => simp [eq_comm]
  | .ok (some (a, mid)) =>
    constructor
    · rintro ⟨rfl, rfl⟩
      exact .inr ⟨a, rfl, rfl⟩
    · rintro (⟨_, _, missing⟩ | ⟨b, rfl, same⟩)
      · cases missing
      · cases same
        rfl

theorem opt_of_ok {mid : Text} (read : p t = .ok (some (a, mid))) : opt p t = .ok (some (some a, mid)) := by
  rw [opt, read]

theorem opt_of_none (missed : p t = .ok none) : opt p t = .ok (some (none, t)) := by
  rw [opt, missed]

theorem before_apply (p : Reader α) (test : Text → Bool) (t : Text) :
    before p test t = (match p t with
      | .error fault => .error fault
      | .ok none => .ok none
      | .ok (some (a, rest)) => if test rest then .ok (some (a, rest)) else .ok none) := rfl

theorem before_ok {test : Text → Bool} :
    before p test t = .ok (some (a, rest)) ↔ p t = .ok (some (a, rest)) ∧ test rest = true := by
  rw [before_apply]
  match p t with
  | .error _ => simp
  | .ok none => simp
  | .ok (some (b, mid)) =>
    by_cases holds : test mid = true
    · simp only [holds, if_true, Except.ok.injEq, Option.some.injEq, Prod.mk.injEq]
      constructor
      · rintro ⟨rfl, rfl⟩
        exact ⟨⟨rfl, rfl⟩, holds⟩
      · exact And.left
    · simp only [holds, Bool.false_eq_true, if_false, Except.ok.injEq, reduceCtorEq, false_iff, not_and]
      intro same
      cases same
      exact holds

/-- The values that a reader takes one after the other between two texts. -/
inductive Repeats (p : Reader α) : Text → List α → Text → Prop where
  | nil (t : Text) : Repeats p t [] t
  | cons {t mid rest : Text} {a : α} {as : List α} (head : p t = .ok (some (a, mid)))
      (tail : Repeats p mid as rest) : Repeats p t (a :: as) rest

/-- A repetition reads its values one after the other. -/
theorem many_repeats {as : List α} (read : many p t = .ok (some (as, rest))) : Repeats p t as rest := by
  have bounded : ∀ n t as, many.go p n t = .ok (some (as, rest)) → Repeats p t as rest := by
    intro n
    induction n with
    | zero =>
      intro t as read
      simp only [many.go, Except.ok.injEq, Option.some.injEq, Prod.mk.injEq] at read
      obtain ⟨rfl, rfl⟩ := read
      exact .nil t
    | succ n ih =>
      intro t as read
      unfold many.go at read
      split at read
      · cases read
      · simp only [Except.ok.injEq, Option.some.injEq, Prod.mk.injEq] at read
        obtain ⟨rfl, rfl⟩ := read
        exact .nil t
      · rename_i a mid head
        split at read
        · cases read
        · cases read
        · rename_i more last tail
          simp only [Except.ok.injEq, Option.some.injEq, Prod.mk.injEq] at read
          obtain ⟨rfl, rfl⟩ := read
          exact .cons head (ih mid more tail)
  exact bounded t.length t as read

/-- Values that can be read one after the other are read, up to where no further one follows. -/
theorem many_of_repeats {as : List α} (reads : Repeats p t as rest) (stop : p rest = .ok none)
    (bound : as.length ≤ t.length) : many p t = .ok (some (as, rest)) := by
  have bounded : ∀ n, as.length ≤ n → many.go p n t = .ok (some (as, rest)) := by
    clear bound
    induction reads with
    | nil t =>
      intro n _
      cases n with
      | zero => rfl
      | succ n => rw [many.go, stop]
    | cons head _ ih =>
      intro n enough
      cases n with
      | zero => simp at enough
      | succ n =>
        have tail := ih stop n (by simpa using enough)
        rw [many.go, head]
        dsimp only
        rw [tail]
  exact bounded t.length bound

/-- A repetition starts with the value at the front, if there is one. -/
theorem many_first {as : List α} (solid : t ≠ []) (follows : p t ≠ .ok none) (read : many p t = .ok (some (as, rest))) :
    ∃ a mid more, p t = .ok (some (a, mid)) ∧ as = a :: more := by
  obtain ⟨c, u, rfl⟩ := List.exists_cons_of_ne_nil solid
  rw [many, List.length_cons, many.go] at read
  split at read
  · cases read
  · contradiction
  · rename_i a mid head
    split at read
    · cases read
    · cases read
    · cases read
      exact ⟨a, mid, _, head, rfl⟩

/-- A repetition always has a result, if only the empty one. -/
theorem many_ne_none : many p t ≠ .ok none := by
  have bounded : ∀ n t, many.go p n t ≠ .ok none := by
    intro n
    induction n with
    | zero =>
      intro t
      simp [many.go]
    | succ n ih =>
      intro t
      unfold many.go
      split
      · simp
      · simp
      · rename_i a mid head
        have tail := ih mid
        split
        · simp
        · contradiction
        · simp
  exact bounded t.length t

end Reader
end QueryCode
