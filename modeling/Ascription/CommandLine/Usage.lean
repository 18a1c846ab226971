import Ascription.Text.Style

/-!
# CommandLine/Usage — the help text
-/

namespace Ascription

namespace Usage

/-- The name of the program. -/
def program : String := "texp"

def version : String := "0.1.0"

/-- A command or option with the text behind it. -/
structure Entry where
  titles : List String
  text : String

def commands : List Entry := [
  ⟨["lex"], "             Tokenize an expression and print the tokens"⟩,
  ⟨["parse"], "           Parse and print the canonical form and static type"⟩,
  ⟨["check"], "           Parse and require the type given with --expect"⟩,
  ⟨["eval"], "            Evaluate against variables given with --var"⟩,
  ⟨["lower"], "           Print the expression as Rust source"⟩,
  ⟨["explain", "<code>"], "  Explain an error code"⟩,
  ⟨["help"], "            Show this help"⟩,
  ⟨["version"], "         Show version"⟩]

def options : List Entry := [
  ⟨["-f FILE"], "          Read the expression from a file"⟩,
  ⟨["--var NAME[:TYPE]=JSON"], "   Bind a variable; the type is inferred unless given"⟩,
  ⟨["--alias NAME=TYPE"], "   Define a type alias"⟩,
  ⟨["--aliases FILE"], "   Define aliases from a JSON object of name to type"⟩,
  ⟨["--expect TYPE"], "     Expected static type (check)"⟩,
  ⟨["--json"], "            Output results and diagnostics as JSON"⟩]

def environment : List Entry := [
  ⟨["TEXP_LOG"], "      Log filter, e.g. debug or texp_parser=trace (default warn)"⟩,
  ⟨["NO_COLOR"], "      Disable colors"⟩,
  ⟨["FORCE_COLOR"], "   Force colors even when piped"⟩]

variable (colours : Bool)

def heading (text : String) : String := Style.apply colours Style.boldYellow text

def command (text : String) : String := Style.apply colours Style.green text

def argument (text : String) : String := Style.apply colours Style.cyan text

/-- A line for a command: its name in one colour, its arguments in another. -/
def commandLine (e : Entry) : String :=
  "  " ++ " ".intercalate (match e.titles with
    | [] => []
    | name :: args => command colours name :: args.map (argument colours)) ++ e.text ++ "\n"

/-- A line for an option or a variable of the environment. -/
def optionLine (e : Entry) : String :=
  "  " ++ " ".intercalate (e.titles.map (argument colours)) ++ e.text ++ "\n"

/-- **The help text.** -/
def text : String :=
  Style.apply colours Style.bold program ++ " " ++ Style.apply colours Style.dimmed version ++
    " - typed expressions\n\n" ++
    heading colours "Usage" ++ ": " ++ command colours program ++ " " ++
    " ".intercalate (["<command>", "<EXPR | -f FILE>", "[options]"].map (argument colours)) ++
    "\n\n" ++ heading colours "Commands:" ++ "\n" ++
    String.join (commands.map (commandLine colours)) ++
    "\n" ++ heading colours "Options:" ++ "\n" ++ String.join (options.map (optionLine colours)) ++
    "\n" ++ heading colours "Environment:" ++ "\n" ++
    String.join (environment.map (optionLine colours))

end Usage

end Ascription
