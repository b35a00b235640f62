import QueryCode.Settings.Basic

/-!
# Where settings are found

A path that the user gives must exist. Otherwise the settings come from the working directory or else from
the user's configuration directory, and no file at all means the defaults.
-/

namespace QueryCode
set_option autoImplicit false

/-- What is found at a path. -/
inductive Entry where
  | missing
  | directory
  /-- A file whose content cannot be had. -/
  | unreadable (cause : Text)
  | file (content : Text)
  deriving DecidableEq, Repr

/-- The values of the environment variables that are set. -/
abbrev Environment := Text → Option Text

namespace Settings

/-- The name of the settings file in the working directory. -/
def localPath : Text := "sql2orm.toml"

/-- The user's configuration directory: the one that the environment names by an absolute path, or else the
one in the home directory. -/
def userDirectory? (env : Environment) : Option Text :=
  match env "XDG_CONFIG_HOME" with
  | some ('/' :: rest) => some ('/' :: rest)
  | _ =>
    match env "HOME" with
    | some (c :: rest) => some (c :: rest ++ "/.config")
    | _ => none

/-- The paths where settings are looked for when the user gives none. -/
def candidates (env : Environment) : List Text :=
  localPath :: (userDirectory? env).toList.map fun (directory : Text) => directory ++ "/sql2orm/config.toml"

/-- Every path that loading may look at. -/
def paths (explicit : Option Text) (env : Environment) : List Text :=
  match explicit with
  | some path => [path]
  | none => candidates env

/-- The settings of the first file among the entries, or the defaults. -/
def ofEntries : List Entry → Except Error Settings
  | [] => .ok {}
  | .file content :: _ => parse content
  | .unreadable cause :: _ => .error (.unreadable cause)
  | _ :: entries => ofEntries entries

/-- The settings for a user who may have given a path. -/
def load (explicit : Option Text) (env : Environment) (entry : Text → Entry) : Except Error Settings :=
  match explicit with
  | none => ofEntries ((candidates env).map entry)
  | some path =>
    match entry path with
    | .missing => .error (.missingSettings path)
    | .directory => .error (.unreadable "Is a directory (os error 21)")
    | .unreadable cause => .error (.unreadable cause)
    | .file content => parse content

end Settings
end QueryCode
