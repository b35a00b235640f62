import Mathlib.Data.List.Forall2
import Mathlib.Data.List.TakeWhile
import QueryCode.Text.Scan

/-!
# What computations find

A computation that may end in a fault, or a scan that may not fit, is described by what is true of its result
when there is one, and apart from that by whether there is one. The rules follow the steps of the computation.
-/

namespace QueryCode
set_option autoImplicit false

/-- If there is a result, it has the property. -/
def Ensures {α : Type} (x : Except Fault α) (holds : α → Prop) : Prop := ∀ a, x = .ok a → holds a

section Ensures

variable {α β : Type} {holds : β → Prop}

theorem ensures_ok {b : β} (here : holds b) : Ensures (.ok b) holds := by
  rintro _ ⟨⟩
  exact here

theorem ensures_pure {b : β} (here : holds b) : Ensures (pure b) holds := ensures_ok here

theorem ensures_true (x : Except Fault α) : Ensures x fun _ => True := fun _ _ => trivial

theorem Ensures.bind {x : Except Fault α} {f : α → Except Fault β} {first : α → Prop} (ensured : Ensures x first)
    (rest : ∀ a, first a → Ensures (f a) holds) : Ensures (x >>= f) holds := by
  intro b result
  cases x with
  | error fault => cases result
  | ok a => exact rest a (ensured a rfl) b result

/-- What is computed before does not matter. -/
theorem Ensures.after {f : α → Except Fault β} (x : Except Fault α) (rest : ∀ a, Ensures (f a) holds) :
    Ensures (x >>= f) holds := (ensures_true x).bind fun a _ => rest a

/-- Each result is that of its item. -/
theorem Ensures.mapM_forall₂ {f : α → Except Fault β} {xs : List α} :
    Ensures (xs.mapM f) fun ys => List.Forall₂ (fun x y => f x = .ok y) xs ys := by
  induction xs with
  | nil => exact ensures_pure .nil
  | cons x xs ih =>
    rw [List.mapM_cons]
    exact Ensures.bind (fun _ => id) fun y first => ih.bind fun ys rest => ensures_pure (.cons first rest)

theorem Ensures.mapM {f : α → Except Fault β} {xs : List α} (each : ∀ x ∈ xs, Ensures (f x) holds) :
    Ensures (xs.mapM f) fun ys => ∀ y ∈ ys, holds y := by
  induction xs with
  | nil => exact ensures_pure (by simp)
  | cons x xs ih =>
    rw [List.forall_mem_cons] at each
    rw [List.mapM_cons]
    refine each.1.bind fun y first => (ih each.2).bind fun ys rest => ensures_pure ?_
    exact List.forall_mem_cons.2 ⟨first, rest⟩

end Ensures

/-- There is a result. -/
def Returns {α : Type} (x : Except Fault α) : Prop := ∃ a, x = .ok a

section Returns

variable {α β : Type}

theorem returns_ok (a : α) : Returns (.ok a) := ⟨a, rfl⟩

theorem returns_pure (a : α) : Returns (pure a) := ⟨a, rfl⟩

theorem Returns.bind {x : Except Fault α} {f : α → Except Fault β} (first : Returns x) (rest : ∀ a, Returns (f a)) :
    Returns (x >>= f) := by
  obtain ⟨a, rfl⟩ := first
  exact rest a

/-- The next step may use what is known of the result of the first. -/
theorem Returns.bind_of {x : Except Fault α} {f : α → Except Fault β} (first : Returns x)
    (rest : ∀ a, x = .ok a → Returns (f a)) : Returns (x >>= f) := by
  obtain ⟨a, rfl⟩ := first
  exact rest a rfl

theorem Returns.mapM {f : α → Except Fault β} {xs : List α} (each : ∀ x ∈ xs, Returns (f x)) : Returns (xs.mapM f) := by
  induction xs with
  | nil => exact returns_pure []
  | cons x xs ih =>
    rw [List.forall_mem_cons] at each
    rw [List.mapM_cons]
    exact each.1.bind fun y => (ih each.2).bind fun ys => returns_pure (y :: ys)

end Returns

namespace Text.Scan

variable {α β : Type}

/-- Whatever the scan finds has the property. -/
def Yields (p : Scan α) (holds : α → Prop) : Prop := ∀ cur a stop, p cur = some (a, stop) → holds a

theorem yields_pure {holds : α → Prop} {a : α} (here : holds a) : Yields (pure a) holds := by
  rintro cur b stop ⟨⟩
  exact here

theorem Yields.bind {p : Scan α} {f : α → Scan β} {holds : α → Prop} {then' : β → Prop} (first : Yields p holds)
    (rest : ∀ a, holds a → Yields (f a) then') : Yields (p >>= f) then' := by
  intro cur b stop found
  cases taken : p cur with
  | none => simp [Bind.bind, taken] at found
  | some hit =>
    simp only [Bind.bind, taken] at found
    exact rest hit.1 (first cur hit.1 hit.2 taken) hit.2 b stop found

theorem yields_true (p : Scan α) : Yields p fun _ => True := fun _ _ _ _ => trivial

/-- What is found before does not matter. -/
theorem Yields.after {f : α → Scan β} {holds : β → Prop} (p : Scan α) (rest : ∀ a, Yields (f a) holds) :
    Yields (p >>= f) holds := (yields_true p).bind fun a _ => rest a

theorem Yields.orElse {p q : Scan α} {holds : α → Prop} (left : Yields p holds) (right : Yields q holds) :
    Yields (p <|> q) holds := by
  intro cur a stop found
  cases taken : p cur with
  | none =>
    simp only [HOrElse.hOrElse, OrElse.orElse, taken] at found
    exact right cur a stop found
  | some hit =>
    simp only [HOrElse.hOrElse, OrElse.orElse, taken] at found
    cases found
    exact left cur a stop taken

theorem Yields.opt {p : Scan α} {holds : α → Prop} (yields : Yields p holds) :
    Yields (opt p) fun found => ∀ a ∈ found, holds a := by
  intro cur found stop fits
  unfold Scan.opt at fits
  split at fits
  · rename_i a next taken
    cases fits
    rintro _ ⟨⟩
    exact yields _ _ _ taken
  · cases fits
    exact fun _ => nofun

theorem yields_one (p : Char → Bool) : Yields (one p) fun c => p c = true := by
  intro cur c stop found
  unfold one at found
  split at found
  · split at found
    · rename_i member
      cases found
      exact member
    · cases found
  · cases found

theorem yields_run (p : Char → Bool) : Yields (run p) fun t => ∀ c ∈ t, p c = true := by
  rintro cur t stop ⟨⟩
  exact fun c mem => List.mem_takeWhile_imp mem

/-- What is found first somewhere has the property. -/
theorem Yields.find {p : Scan α} {holds : α → Prop} (yields : Yields p holds) {cur : Cursor} {hit : Hit α}
    (found : find p cur = some hit) : holds hit.value := by
  unfold Scan.find at found
  generalize cur.offset = offset, cur.last = last, cur.rest = rest at found
  induction rest generalizing offset last with
  | nil =>
    rw [find.go] at found
    split at found
    · rename_i value stop taken
      cases found
      exact yields _ _ _ taken
    · cases found
  | cons c rest ih =>
    rw [find.go] at found
    split at found
    · rename_i value stop taken
      cases found
      exact yields _ _ _ taken
    · exact ih _ _ found

theorem Yields.findAll {p : Scan α} {holds : α → Prop} (yields : Yields p holds) {cur : Cursor} :
    ∀ hit ∈ findAll p cur, holds hit.value := by
  unfold Scan.findAll
  generalize cur.rest.length = n
  induction n generalizing cur with
  | zero =>
    rw [findAll.go]
    simp
  | succ n ih =>
    rw [findAll.go]
    split
    · rename_i hit found
      exact List.forall_mem_cons.2 ⟨yields.find found, ih⟩
    · simp

end Text.Scan

end QueryCode
