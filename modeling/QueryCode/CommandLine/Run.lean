import QueryCode.CommandLine.Help
import QueryCode.Convert
import QueryCode.Report.Basic

/-!
# Runs of the command

A run is a function of the arguments, the environment, the files and the standard input; its result is an
exit status and what is written. Settings are loaded first, then the statement is read, and only then are
the targets looked up, so the first of several errors is always the same.
-/

namespace QueryCode
set_option autoImplicit false

namespace CommandLine

/-- What the standard input is. -/
inductive Input where
  | terminal
  /-- Bytes that are no UTF-8 text. -/
  | malformed
  | piped (content : Text)
  deriving DecidableEq, Repr

/-- What a run can see besides its arguments. -/
structure World where
  env : Environment
  entry : Text → Entry
  input : Input

/-- The result of a run. -/
structure Outcome where
  status : Nat
  stdout : Text := []
  stderr : Text := []
  deriving DecidableEq, Repr

/-- The statement of a command: the one given, or else what the standard input holds. -/
def statementText (sql : Option Text) (input : Input) : Except Error Text :=
  match sql, input with
  | some sql, _ => .ok sql
  | none, .terminal => .error .noStatement
  | none, .malformed => .error .malformedInput
  | none, .piped content => if (Text.trim content).isEmpty then .error .emptyInput else .ok content

/-- A text on a line of its own. -/
def line (t : Text) : Text := t ++ ['\n']

/-- The code alone for one target; for several, each below its name with a blank line between them. -/
def codeText : List (Target × Text) → Text
  | [(_, code)] => line code
  | outputs =>
    Text.join ['\n'] (outputs.map fun (target, code) => line (target.name ++ ":") ++ line code)

/-- The code for a statement as text or as JSON. -/
def convertText (json : Bool) (targets : List Target) (sql : Text) : Except Fault Text := do
  let s ← Statement.parse sql
  let outputs ← targets.mapM fun target => do return (target, (← s.write target).text)
  if json then
    return line (JsonValue.array (outputs.map fun (target, code) => Report.output sql target code)).text
  else return codeText outputs

/-- How a statement is understood. -/
def explainText (sql : Text) : Except Fault Text := do
  let s ← Statement.parse sql
  let report ← Report.explanation s
  let warning : Text := if s.kind == .unknown then "\n⚠ Statement type not recognized\n" else []
  return line "Parsed statement:" ++ line report.text ++ warning

namespace Options

/-- The targets that the command line names, or else the environment, or else the settings. -/
def targets (options : Options) (env : Environment) (settings : Settings) : Except Error (List Target) :=
  match options.target <|> env "SQL2ORM_TARGET" with
  | some name => Target.listOfName name
  | none => settings.targets

/-- The statement is to be read from the standard input. -/
def readsInput (options : Options) : Bool :=
  match options.command with
  | .convert sql => sql.isNone
  | .explain sql => sql.isNone

/-- The work that the options ask for. -/
def work (options : Options) (world : World) : Except Error (Except Fault Text) := do
  let settings ← Settings.load options.config world.env world.entry
  match options.command with
  | .explain sql => return explainText (← statementText sql world.input)
  | .convert sql =>
    let sql ← statementText sql world.input
    return convertText options.json (← options.targets world.env settings) sql

/-- The outcome of the work: status 1 for an error, 101 for a fault. -/
def run (options : Options) (world : World) : Outcome :=
  match options.work world with
  | .error e => { status := 1, stderr := line ("Error: " ++ e.message) }
  | .ok (.error _) => { status := 101, stderr := line "a text was cut inside a character" }
  | .ok (.ok out) => { status := 0, stdout := out }

end Options

/-- The outcome of arguments that ask for no work. -/
def Stop.outcome (env : Environment) : Stop → Outcome
  | .help topic => { status := 0, stdout := topic.text env }
  | .version => { status := 0, stdout := versionText }
  | .misuse => { status := 2, stderr := line "error: unexpected arguments" ++ "\n" ++ usageText }

/-- The outcome of a run. -/
def run (args : List Text) (world : World) : Outcome :=
  match Options.parse args with
  | .error stop => stop.outcome world.env
  | .ok options => options.run world

end CommandLine
end QueryCode
