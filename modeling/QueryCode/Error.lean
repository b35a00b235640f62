import QueryCode.Text.Basic

/-!
# Errors

Why a request of a user has no result, and the message that says so.
-/

namespace QueryCode
set_option autoImplicit false

/-- Why a request has no result. -/
inductive Error where
  /-- The statement has no known kind or no table; `excerpt` is its start. -/
  | unparsable (excerpt : Text)
  /-- No target has this name. -/
  | unknownTarget (name : Text)
  /-- The settings file that the user asked for does not exist. -/
  | missingSettings (path : Text)
  /-- The settings are no list of known keys with values of their types. -/
  | malformedSettings
  /-- A settings file exists and cannot be read. -/
  | unreadable (cause : Text)
  /-- The standard input is no UTF-8 text. -/
  | malformedInput
  /-- The standard input holds no statement. -/
  | emptyInput
  /-- No statement is given, and the standard input is a terminal. -/
  | noStatement
  deriving DecidableEq, Repr

namespace Error

/-- The message for an error. A failed read of a file names its cause twice: in itself and after a colon. -/
def message : Error → Text
  | .unparsable excerpt => "Could not parse SQL statement: '" ++ excerpt ++ "'"
  | .unknownTarget name => "Unknown target: '" ++ name ++ "'. Expected: activerecord or sequelize"
  | .missingSettings path => "Configuration error: " ++ path ++ " not found"
  | .malformedSettings => "Invalid config file:"
  | .unreadable cause => "IO error: " ++ cause ++ ": " ++ cause
  | .malformedInput => "failed to read SQL from stdin: stream did not contain valid UTF-8"
  | .emptyInput => "stdin was empty"
  | .noStatement => "no SQL given. Pass a statement or pipe one on stdin"

end Error
end QueryCode
