import ContainerArgs.CommandLine

/-!
# Texts about the command line

What the program says about its command line.
-/

namespace ContainerArgs.CommandLine

def usage : String :=
  "Render container argument vectors from a component manifest\n\n" ++
  "Usage: cmdopt [OPTIONS] --config <CONFIG>\n\n" ++
  "Options:\n" ++
  "  -c, --config <CONFIG>        Path to the component manifest YAML file\n" ++
  "      --component <COMPONENT>  Only render the component with this name\n" ++
  "  -f, --format <FORMAT>        Output format [default: yaml] " ++
  "[possible values: yaml, json, lines]\n" ++
  "  -o, --output <OUTPUT>        Write to this file instead of stdout\n" ++
  "  -h, --help                   Print help\n" ++
  "  -V, --version                Print version\n"

def versionText : String := "cmdopt 0.1.0\n"

/-- What is shown for a command line that is not run. -/
def Refusal.text : Refusal → String
  | .unknownArgument => "unexpected argument"
  | .missingRequiredArgument =>
    "the required argument --config <CONFIG> was not provided"
  | .invalidValue => "invalid value for an option"
  | .argumentConflict => "an option cannot be used multiple times"
  | .tooManyValues => "unexpected value for an option"
  | .displayHelp => usage
  | .displayVersion => versionText

end ContainerArgs.CommandLine
