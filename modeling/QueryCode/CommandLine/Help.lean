import QueryCode.CommandLine.Arguments
import QueryCode.Settings.Location

/-!
# Help

The texts with which the command answers questions about itself.
-/

namespace QueryCode
set_option autoImplicit false

namespace CommandLine

/-- The name and the version of the command. -/
def versionText : Text := "sql2orm 0.1.0\n"

/-- How the command is called. -/
def usageText : Text := "Usage: sql2orm [OPTIONS] [SQL] [COMMAND]\n"

/-- Help on the command. -/
def programHelp (env : Environment) : Text :=
  "Translate SQL into ActiveRecord and Sequelize code\n\n" ++ usageText
    ++ "\nCommands:\n"
    ++ "  explain  Show the parsed statement and how its WHERE clause is handled\n"
    ++ "  help     Print this message or the help of the given subcommand(s)\n"
    ++ "\nArguments:\n"
    ++ "  [SQL]  SQL statement; read from stdin when omitted\n"
    ++ "\nOptions:\n"
    ++ "  -t, --target <TARGET>  Output target: activerecord, sequelize or all [env: SQL2ORM_TARGET="
    ++ (env "SQL2ORM_TARGET").getD [] ++ "]\n"
    ++ "      --json             Print JSON instead of text\n"
    ++ "      --no-color         Disable colored output\n"
    ++ "  -v, --verbose          Verbose logging\n"
    ++ "      --config <CONFIG>  Config file path\n"
    ++ "  -h, --help             Print help\n"
    ++ "  -V, --version          Print version\n"
    ++ "\nEXAMPLES:\n"
    ++ "    sql2orm 'SELECT name FROM users WHERE age > 18 ORDER BY name'\n"
    ++ "    sql2orm 'SELECT COUNT(*) FROM users' -t activerecord\n"
    ++ "    sql2orm explain 'SELECT * FROM users WHERE role IN (1, 2)'\n"

/-- Help on a topic. -/
def Topic.text (env : Environment) : Topic → Text
  | .program => programHelp env
  | .explain =>
    "Show the parsed statement and how its WHERE clause is handled\n\n"
      ++ "Usage: sql2orm explain [SQL]\n"
      ++ "\nArguments:\n"
      ++ "  [SQL]  SQL statement; read from stdin when omitted\n"
      ++ "\nOptions:\n"
      ++ "  -h, --help  Print help\n"
  | .help =>
    "Print this message or the help of the given subcommand(s)\n\n"
      ++ "Usage: sql2orm help [COMMAND]...\n"
      ++ "\nArguments:\n"
      ++ "  [COMMAND]...  Print help for the subcommand(s)\n"

end CommandLine
end QueryCode
