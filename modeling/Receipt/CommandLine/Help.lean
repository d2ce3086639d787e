import Receipt.CommandLine.Request

/-!
# Help texts

What the program says about itself.
-/

namespace Receipt.CommandLine

def programName : String := "tillroll"

def versionLine : String := programName ++ " 0.1.0\n"

/-- The lines of a help text as one text. -/
def helpText (lines : List String) : String :=
  String.join (lines.map (· ++ "\n"))

def Topic.text : Topic → String
  | program => helpText [
    "Receipt layout interpreter: renders a JSON section DSL into thermal printer instructions",
    "",
    "Usage: " ++ programName ++ " <COMMAND>",
    "",
    "Commands:",
    "  print  Interpret a layout and print it",
    "  types  List the known section types",
    "  help   Print this message or the help of the given subcommand(s)",
    "",
    "Options:",
    "  -h, --help     Print help",
    "  -V, --version  Print version"]
  | print => helpText [
    "Interpret a layout and print it",
    "",
    "Usage: " ++ programName ++ " print [OPTIONS] <LAYOUT>",
    "",
    "Arguments:",
    "  <LAYOUT>  Layout JSON file (\"-\" reads stdin)",
    "",
    "Options:",
    "      --order <FILE>     Order JSON file merged into order-bound sections",
    "      --config <FILE>    Config file with options and section type overrides",
    "      --auto-feed        Feed one line after every single-line section",
    "      --strict           Fail the receipt on unknown section types",
    "      --no-placeholders  Print \x7btoken\x7d placeholders verbatim",
    "      --width <WIDTH>    Line width in characters",
    "      --device <PATH>    Printer device path; without it the receipt is previewed",
    "      --preview          Show a text preview (also when sending to a device)",
    "      --ops              Dump printer primitives",
    "  -h, --help             Print help"]
  | types => helpText [
    "List the known section types",
    "",
    "Usage: " ++ programName ++ " types [OPTIONS]",
    "",
    "Options:",
    "      --config <FILE>  Config file with section type overrides",
    "  -h, --help           Print help"]
  | help => helpText [
    "Print this message or the help of the given subcommand(s)",
    "",
    "Usage: " ++ programName ++ " help [COMMAND]...",
    "",
    "Arguments:",
    "  [COMMAND]...  Print help for the subcommand(s)"]

end Receipt.CommandLine
