import QueryCode.CommandLine.Run

/-!
# The command

Reads what a run needs, runs it, and writes its outcome.
-/

namespace QueryCode.CommandLine
set_option autoImplicit false

/-- The environment variables that a run may look at. -/
def variableNames : List String := ["HOME", "XDG_CONFIG_HOME", "SQL2ORM_TARGET"]

/-- The values of the variables that are set. -/
def readEnvironment : IO Environment := do
  let values ← variableNames.filterMapM fun name => do
    return (← IO.getEnv name).map fun value => (name.toList, value.toList)
  return fun name => values.lookup name

/-- What is at a path. The system's code 20 says that a part of the path is no directory, and 21 that the
path is one. -/
def readEntry (path : Text) : IO Entry := do
  try
    return .file (← IO.FS.readFile (String.ofList path)).toList
  catch
    | .noFileOrDirectory .. => return .missing
    | .inappropriateType _ code details =>
      if code == 20 then return .missing
      else if code == 21 then return .directory
      else return .unreadable details
    | e => return .unreadable (toString e)

/-- The entries at the paths. -/
def readEntries (paths : List Text) : IO (Text → Entry) := do
  let entries ← paths.mapM fun path => do return (path, ← readEntry path)
  return fun path => (entries.lookup path).getD .missing

/-- The standard input, read to its end unless it is a terminal. -/
def readInput : IO Input := do
  let stdin ← IO.getStdin
  if ← stdin.isTty then return .terminal
  let mut bytes := ByteArray.empty
  let mut more := true
  while more do
    let chunk ← stdin.read 65536
    bytes := bytes ++ chunk
    more := !chunk.isEmpty
  match String.fromUTF8? bytes with
  | some content => return .piped content.toList
  | none => return .malformed

end QueryCode.CommandLine

open QueryCode QueryCode.CommandLine in
/-- Runs the command with its arguments. -/
def main (args : List String) : IO UInt32 := do
  let env ← readEnvironment
  let args := args.map String.toList
  let outcome ←
    match Options.parse args with
    | .error stop => pure (stop.outcome env)
    | .ok options => do
      let entry ← readEntries (Settings.paths options.config env)
      let input ← if options.readsInput then readInput else pure (.piped [])
      pure (options.run { env, entry, input })
  (← IO.getStdout).putStr (String.ofList outcome.stdout)
  (← IO.getStderr).putStr (String.ofList outcome.stderr)
  return outcome.status.toUInt32
