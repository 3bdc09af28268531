import ImageDimensions.CommandLine.Request
import ImageDimensions.Text.Terminal

/-!
# CommandLine/Text — what the program says about itself
-/

namespace ImageDimensions.CommandLine

/-- The name of the program. -/
def program : String := "bindless-gen"

/-- What is printed for the version. -/
def versionText : String := program ++ " 0.1.0\n"

def Command.name : Command → String
  | .generate => "generate"
  | .check => "check"

/-- What a command does. -/
def Command.purpose : Command → String
  | .generate => "Regenerate the output file"
  | .check => "Check that the output file is in sync with the generator"

/-- What the word `help` does. -/
def helpPurpose : String := "Print this message or the help of the given subcommand(s)"

/-- The text of a help page. -/
def Page.text : Page → String
  | .overview =>
    "Generate _Image.get_dimensions overloads for the bindless Slang module\n\n"
      ++ "Usage: " ++ program ++ " [COMMAND]\n\n"
      ++ "Commands:\n"
      ++ "  generate  " ++ Command.generate.purpose ++ "\n"
      ++ "  check     " ++ Command.check.purpose ++ "\n"
      ++ "  help      " ++ helpPurpose ++ "\n\n"
      ++ "Options:\n"
      ++ "  -h, --help     Print help\n"
      ++ "  -V, --version  Print version\n"
  | .command c =>
    c.purpose ++ "\n\n"
      ++ "Usage: " ++ program ++ " " ++ c.name ++ "\n\n"
      ++ "Options:\n"
      ++ "  -h, --help  Print help\n"
  | .help =>
    helpPurpose ++ "\n\n"
      ++ "Usage: " ++ program ++ " help [COMMAND]...\n\n"
      ++ "Arguments:\n"
      ++ "  [COMMAND]...  Print help for the subcommand(s)\n"

/-- A part of the arguments as it stands in messages: nothing in it acts on a terminal. -/
def quoted (s : String) : String := "'" ++ Terminal.inert s ++ "'"

/-- The message about arguments that cannot be read. -/
def UsageError.message : UsageError → String
  | .unexpectedArgument s => "error: unexpected argument " ++ quoted s ++ " found"
  | .unexpectedValue value flag =>
    "error: unexpected value " ++ quoted value ++ " for " ++ quoted flag
      ++ " found; no more were expected"
  | .unrecognizedCommand name => "error: unrecognized subcommand " ++ quoted name

end ImageDimensions.CommandLine
