import UnionChecker.CommandLine.Arguments
/-!
# Help texts
-/

namespace UnionChecker.CommandLine

/-- The version of the program. -/
def versionText : String := "tenecs 0.1.0\n"

/-- Lines, each with a newline. -/
def textOfLines (lines : List String) : String := String.join (lines.map (· ++ "\n"))

/-- The help of the program. -/
def helpText : String := textOfLines [
  "Tenecs type checker",
  "",
  "Usage: tenecs [OPTIONS] <COMMAND>",
  "",
  "Commands:",
  "  check  Type-check a package",
  "  tests  List the tests and entry points of a package",
  "  help   Print this message or the help of the given subcommand(s)",
  "",
  "Options:",
  "  -v, --verbose...       More logging (-v debug, -vv trace)",
  "      --config <CONFIG>  Config file; tenecs.toml in the working directory is used when present",
  "      --color <COLOR>    When to use colors: auto, always, never",
  "  -h, --help             Print help",
  "  -V, --version          Print version"]

/-- The help of the command that shows help. -/
def helpHelpText : String := textOfLines [
  "Print this message or the help of the given subcommand(s)",
  "",
  "Usage: tenecs help [COMMAND]...",
  "",
  "Arguments:",
  "  [COMMAND]...  Print help for the subcommand(s)"]

/-- What a command does. -/
def Command.about : Command → String
  | .check => "Type-check a package"
  | .tests => "List the tests and entry points of a package"

/-- The short help of a command. -/
def Command.shortHelp (command : Command) : String := textOfLines [
  command.about,
  "",
  "Usage: tenecs " ++ command.label ++ " [OPTIONS] [FILES]...",
  "",
  "Arguments:",
  "  [FILES]...  Parsed files or directories containing them [default: .]",
  "",
  "Options:",
  "      --sequential                 Check declarations one after another on this thread",
  "  -v, --verbose...                 More logging (-v debug, -vv trace)",
  "      --config <CONFIG>            Config file; tenecs.toml in the working directory is used"
    ++ " when present",
  "      --max-workers <MAX_WORKERS>  Maximum concurrent declaration workers",
  "      --color <COLOR>              When to use colors: auto, always, never",
  "      --timeout-ms <TIMEOUT_MS>    Per-declaration timeout in milliseconds",
  "      --fail-fast                  Stop at the first error",
  "      --format <FORMAT>            Output format [default: pretty] [possible values: pretty,"
    ++ " caret, json]",
  "  -h, --help                       Print help (see more with '--help')"]

/-- The full help of a command. -/
def Command.fullHelp (command : Command) : String := textOfLines [
  command.about,
  "",
  "Usage: tenecs " ++ command.label ++ " [OPTIONS] [FILES]...",
  "",
  "Arguments:",
  "  [FILES]...",
  "          Parsed files or directories containing them",
  "          ",
  "          [default: .]",
  "",
  "Options:",
  "      --sequential",
  "          Check declarations one after another on this thread",
  "",
  "  -v, --verbose...",
  "          More logging (-v debug, -vv trace)",
  "",
  "      --config <CONFIG>",
  "          Config file; tenecs.toml in the working directory is used when present",
  "",
  "      --max-workers <MAX_WORKERS>",
  "          Maximum concurrent declaration workers",
  "",
  "      --color <COLOR>",
  "          When to use colors: auto, always, never",
  "",
  "      --timeout-ms <TIMEOUT_MS>",
  "          Per-declaration timeout in milliseconds",
  "",
  "      --fail-fast",
  "          Stop at the first error",
  "",
  "      --format <FORMAT>",
  "          Output format",
  "",
  "          Possible values:",
  "          - pretty: Colored diagnostics with source excerpts",
  "          - caret:  Numbered lines with a caret under each error",
  "          - json:   Machine-readable summary on stdout",
  "          ",
  "          [default: pretty]",
  "",
  "  -h, --help",
  "          Print help (see a summary with '-h')"]

end UnionChecker.CommandLine
