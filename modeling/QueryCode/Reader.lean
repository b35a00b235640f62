import QueryCode.Text.Basic

/-!
# Readers

A reader takes a value from the start of a text and leaves the rest, or finds no match, or runs into a cut
that is no character boundary. The last outcome ends the whole reading: no alternative is tried after it.
-/

namespace QueryCode
set_option autoImplicit false

/-- A reader of values from the start of a text. -/
def Reader (α : Type) := Text → Except Fault (Option (α × Text))

namespace Reader

instance : Monad Reader where
  pure a := fun t => .ok (some (a, t))
  bind p f := fun t =>
    match p t with
    | .error fault => .error fault
    | .ok none => .ok none
    | .ok (some (a, rest)) => f a rest

instance {α : Type} : OrElse (Reader α) where
  orElse p q := fun t =>
    match p t with
    | .ok none => q () t
    | result => result

/-- No match. -/
def fail {α : Type} : Reader α := fun _ => .ok none

/-- A reader that never faults. -/
def ofOption {α : Type} (f : Text → Option (α × Text)) : Reader α := fun t => .ok (f t)

/-- A value that may be a fault. -/
def ofExcept {α : Type} (a : Except Fault α) : Reader α := fun t =>
  match a with
  | .error fault => .error fault
  | .ok a => .ok (some (a, t))

/-- The value if there is a match, and nothing taken otherwise. -/
def opt {α : Type} (p : Reader α) : Reader (Option α) := fun t =>
  match p t with
  | .error fault => .error fault
  | .ok none => .ok (some (none, t))
  | .ok (some (a, rest)) => .ok (some (some a, rest))

/-- The reader succeeds only where the test holds of the text left. -/
def before {α : Type} (p : Reader α) (test : Text → Bool) : Reader α := do
  let a ← p
  fun t => if test t then .ok (some (a, t)) else .ok none

/-- As many values as there are matches one after the other. -/
def many {α : Type} (p : Reader α) : Reader (List α) := fun t => go t.length t
where
  /-- At most `n` values. -/
  go : Nat → Text → Except Fault (Option (List α × Text))
    | 0, t => .ok (some ([], t))
    | n + 1, t =>
      match p t with
      | .error fault => .error fault
      | .ok none => .ok (some ([], t))
      | .ok (some (a, rest)) =>
        match go n rest with
        | .error fault => .error fault
        | .ok none => .ok none
        | .ok (some (as, rest)) => .ok (some (a :: as, rest))

end Reader
end QueryCode
