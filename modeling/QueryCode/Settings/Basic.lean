import QueryCode.Error
import QueryCode.Settings.Document
import QueryCode.Target

/-!
# Settings

The user's defaults: which targets to write, whether to use color, and what to log. A document that sets
them may leave any of them out, names no other key and names none twice.
-/

namespace QueryCode
set_option autoImplicit false

/-- The user's defaults. -/
structure Settings where
  /-- The name of a target, or `all`. -/
  target : Text := "all"
  color : Bool := true
  /-- What to log when the environment does not say. -/
  log : Text := "warn"
  deriving DecidableEq, Repr

namespace Settings

/-- The settings with the value of one key. -/
def assign (s : Settings) (key : Text) (value : Value) : Option Settings :=
  match String.ofList key, value with
  | "target", .string t => some { s with target := t }
  | "color", .boolean b => some { s with color := b }
  | "log", .string t => some { s with log := t }
  | _, _ => none

/-- The settings of a document, whatever target it names. -/
def ofDocument? (t : Text) : Option Settings := do
  let pairs ← Document.parse? t
  if decide (pairs.map Prod.fst).Nodup then
    pairs.foldlM (fun (s : Settings) (key, value) => s.assign key value) {}
  else none

/-- The targets to write. -/
def targets (s : Settings) : Except Error (List Target) := Target.listOfName s.target

/-- The settings of a document that names known targets. -/
def parse (t : Text) : Except Error Settings :=
  match ofDocument? t with
  | none => .error .malformedSettings
  | some s =>
    match s.targets with
    | .ok _ => .ok s
    | .error e => .error e

end Settings
end QueryCode
