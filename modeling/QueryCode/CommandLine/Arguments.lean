import QueryCode.Text.Basic

/-!
# Arguments

The arguments of the command are options, at most one statement, and at most one subcommand with arguments
of its own. An option that takes a value takes it from the same argument or from the next one, and is set
only when the argument after it is read; so a subcommand or a request for help may come before the value is
looked at.
-/

namespace QueryCode
set_option autoImplicit false

namespace CommandLine

/-- What is asked of the command. -/
inductive Command where
  /-- Write code for the statement. -/
  | convert (sql : Option Text)
  /-- Show how the statement is understood. -/
  | explain (sql : Option Text)
  deriving DecidableEq, Repr

/-- Options that take a value. -/
inductive Setting where
  | target
  | config
  deriving DecidableEq, Repr

/-- Options that take none. -/
inductive Flag where
  | json
  | noColor
  | verbose
  | help
  | version
  deriving DecidableEq, Repr

/-- An option. -/
inductive Switch where
  | setting (setting : Setting)
  | flag (flag : Flag)
  deriving DecidableEq, Repr

/-- What a request for help is about. -/
inductive Topic where
  | program
  | explain
  | help
  deriving DecidableEq, Repr

/-- Why the arguments ask for no work. -/
inductive Stop where
  | help (topic : Topic)
  | version
  | misuse
  deriving DecidableEq, Repr

/-- The options and the command that the arguments ask for. -/
structure Options where
  target : Option Text := none
  config : Option Text := none
  json : Bool := false
  noColor : Bool := false
  verbose : Bool := false
  command : Command := .convert none
  deriving DecidableEq, Repr

/-- The option with a long name. -/
def Switch.ofName? (name : Text) : Option Switch :=
  match String.ofList name with
  | "target" => some (.setting .target)
  | "config" => some (.setting .config)
  | "json" => some (.flag .json)
  | "no-color" => some (.flag .noColor)
  | "verbose" => some (.flag .verbose)
  | "help" => some (.flag .help)
  | "version" => some (.flag .version)
  | _ => none

/-- The option with a letter for its name. -/
def Switch.ofLetter? : Char → Option Switch
  | 't' => some (.setting .target)
  | 'v' => some (.flag .verbose)
  | 'h' => some (.flag .help)
  | 'V' => some (.flag .version)
  | _ => none

/-- A flag that is not set yet. -/
def raiseOnce (flag : Bool) : Except Stop Bool := if flag then .error .misuse else .ok true

/-- What is known after some of the arguments. -/
structure Progress where
  target : Option Text := none
  config : Option Text := none
  json : Bool := false
  noColor : Bool := false
  verbose : Bool := false
  sql : Option Text := none
  /-- The option read last and its value, if it is there yet. -/
  pending : Option (Setting × Option Text) := none
  deriving DecidableEq, Repr

namespace Progress

/-- An option set to a value; each is set once, and a path is not empty. -/
def assign (p : Progress) (setting : Setting) (value : Text) : Except Stop Progress :=
  match setting with
  | .target => if p.target.isSome then .error .misuse else .ok { p with target := some value }
  | .config =>
    if p.config.isSome || value.isEmpty then .error .misuse else .ok { p with config := some value }

/-- The pending option set; one without a value is misuse. -/
def settle (p : Progress) : Except Stop Progress :=
  match p.pending with
  | none => .ok p
  | some (_, none) => .error .misuse
  | some (setting, some value) => { p with pending := none }.assign setting value

/-- The last argument is an option that waits for its value. -/
def awaits? (p : Progress) : Option Setting :=
  match p.pending with
  | some (setting, none) => some setting
  | _ => none

/-- An option that waits for its value. -/
def await (p : Progress) (setting : Setting) : Except Stop Progress := do
  return { ← p.settle with pending := some (setting, none) }

/-- An option with its value in the same argument. -/
def attach (p : Progress) (setting : Setting) (value : Text) : Except Stop Progress := do
  (← p.settle).assign setting value

/-- A flag; none is given twice, and two of them end the reading. -/
def raise (p : Progress) (flag : Flag) : Except Stop Progress := do
  let p ← p.settle
  match flag with
  | .json => return { p with json := ← raiseOnce p.json }
  | .noColor => return { p with noColor := ← raiseOnce p.noColor }
  | .verbose => return { p with verbose := ← raiseOnce p.verbose }
  | .help => .error (.help .program)
  | .version => .error .version

/-- The statement; there is at most one. -/
def statement (p : Progress) (sql : Text) : Except Stop Progress := do
  let p ← p.settle
  if p.sql.isSome then .error .misuse else return { p with sql := some sql }

/-- An option with a long name, perhaps with a value after an equals sign. -/
def long (p : Progress) (body : Text) : Except Stop Progress :=
  match Switch.ofName? (body.takeWhile (· != '=')), body.dropWhile (· != '=') with
  | some (.setting setting), [] => p.await setting
  | some (.setting setting), _ :: value => p.attach setting value
  | some (.flag flag), [] => p.raise flag
  | _, _ => .error .misuse

/-- Options named by letters in one argument; the first that takes a value takes what is left. -/
def letters (p : Progress) : Text → Except Stop Progress
  | [] => .ok p
  | c :: rest =>
    match Switch.ofLetter? c, rest with
    | some (.flag flag), rest => do (← p.raise flag).letters rest
    | some (.setting setting), [] => p.await setting
    | some (.setting setting), '=' :: value => p.attach setting value
    | some (.setting setting), value => p.attach setting value
    | none, _ => .error .misuse

/-- The options read, with the command asked for. -/
def finish (p : Progress) (command : Command) : Except Stop Options := do
  let p ← p.settle
  return {
    target := p.target, config := p.config, json := p.json, noColor := p.noColor, verbose := p.verbose
    command := command }

end Progress

/-- The statement among the arguments of `explain`. After `ended`, an argument is never an option. -/
def explainArguments (ended : Bool) (sql : Option Text) : List Text → Except Stop (Option Text)
  | [] => .ok sql
  | arg :: rest =>
    if !ended && arg == "--" then explainArguments true sql rest
    else if !ended && arg == "--help" then .error (.help .explain)
    else
      match ended, arg with
      | false, '-' :: 'h' :: _ => .error (.help .explain)
      | false, '-' :: _ :: _ => .error .misuse
      | _, _ => if sql.isSome then .error .misuse else explainArguments ended (some arg) rest

/-- The topic that the arguments of `help` name. -/
def helpTopic : List Text → Stop
  | [] => .help .program
  | [topic] =>
    match String.ofList topic with
    | "explain" => .help .explain
    | "help" => .help .help
    | _ => .misuse
  | _ => .misuse

namespace Progress

/-- Reads the arguments that are left. After `ended`, an argument is never an option or a subcommand. -/
def read (p : Progress) (ended : Bool) : List Text → Except Stop Options
  | [] => do
    let p ← p.settle
    p.finish (.convert p.sql)
  | arg :: rest =>
    if ended then do (← p.statement arg).read true rest
    else if p.awaits?.isNone && arg == "explain" then do
      let sql ← explainArguments false none rest
      p.finish (.explain sql)
    else if p.awaits?.isNone && arg == "help" then .error (helpTopic rest)
    else if arg == "--" then p.read true rest
    else
      match arg, p.awaits? with
      | '-' :: '-' :: body, _ => do (← p.long body).read false rest
      | '-' :: c :: body, _ => do (← p.letters (c :: body)).read false rest
      | arg, some setting => { p with pending := some (setting, some arg) }.read false rest
      | arg, none => do (← p.statement arg).read false rest

end Progress

/-- What a list of arguments asks for. -/
def Options.parse (args : List Text) : Except Stop Options := ({} : Progress).read false args

end CommandLine
end QueryCode
