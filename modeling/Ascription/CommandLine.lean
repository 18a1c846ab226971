import Ascription.CommandLine.Session
import Ascription.CommandLine.Usage
import Ascription.Diagnostic.Report
import Ascription.Diagnostic.Terminal
import Ascription.Eval
import Ascription.Expr.Text
import Ascription.Lowering.Rust

/-!
# CommandLine — the commands

A command is a function from its arguments and the files it may read to what it prints and its exit
code.  Results go to the standard output; diagnostics go to the standard error, or with `--json` as
a report to the standard output.
-/

namespace Ascription

/-- What a command prints, and its exit code. -/
structure Output where
  code : Nat
  stdout : String
  stderr : String
  deriving DecidableEq

/-- The commands that read an expression. -/
inductive Command
  | lex
  | parse
  | check
  | eval
  | lower
  deriving DecidableEq

namespace Command

def name : Command → String
  | lex => "lex"
  | parse => "parse"
  | check => "check"
  | eval => "eval"
  | lower => "lower"

def all : List Command := [lex, parse, check, eval, lower]

/-- The command of a name. -/
def ofName? (name : String) : Option Command := all.find? fun c => c.name == name

end Command

namespace CommandLine

/-! ## Results -/

/-- How results are shown. -/
structure Format where
  json : Bool
  colours : Bool

/-- A successful result, as a JSON object with sorted members. -/
def success (members : List (String × Json)) : String :=
  (Json.sorted (("success", .bool true) :: members)).compact ++ "\n"

/-- A line that says how a phase ended. -/
def banner (colours : Bool) (style : Style) (text : String) : String :=
  Style.apply colours Style.dimmed "===" ++ " " ++ Style.apply colours style text ++ " " ++
    Style.apply colours Style.dimmed "===" ++ "\n"

/-- A static type as commands show it. -/
def typeLabel (e : Expr) : String := (e.type?.map Ty.text).getD "<lambda>"

/-- A line with a type. -/
def typeLine (f : Format) (type : String) : String :=
  "type: " ++ Style.apply f.colours Style.cyan type ++ "\n"

/-- A span as JSON. -/
def spanJson (s : Span) : Json :=
  .sorted [("start_line", .ofNat s.start.line), ("start_col", .ofNat s.start.column),
    ("end_line", .ofNat s.stop.line), ("end_col", .ofNat s.stop.column)]

/-! ## Commands -/

/-- The tokens of the expression. -/
def runLex (f : Format) (input : Input) : Except Failure String := do
  let tokens ← (tokenize input.source).mapError fun e => Failure.of "lex" e.diagnostic
  if f.json then
    .ok (success [("tokens", .array (tokens.map fun t =>
      .sorted [("kind", .string t.kind.listing), ("span", spanJson t.span)]))])
  else
    let title := "=== Tokens (" ++ toString tokens.length ++ ") ==="
    let line (t : Token) : String :=
      Style.apply f.colours Style.dimmed (Style.padRight 14 t.span.text) ++ " " ++
        t.kind.listing ++ "\n"
    .ok (Style.apply f.colours Style.boldYellow title ++ "\n\n" ++ String.join (tokens.map line) ++
      "\n" ++ banner f.colours Style.boldGreen "Lex OK")

/-- The tree of the expression. -/
def readExpr (input : Input) (s : Session) : Except Failure Expr :=
  (parseWith input.source s.registry s.declarations).mapError fun e =>
    Failure.of "parse" e.diagnostic

/-- The canonical text and the static type. -/
def runParse (f : Format) (input : Input) (s : Session) : Except Failure String := do
  let e ← readExpr input s
  if f.json then
    .ok (success [("expression", .string e.text), ("type", .string (typeLabel e))])
  else .ok (e.text ++ "\n" ++ typeLine f (typeLabel e))

/-- The static type, which may be required to equal an expected one. -/
def runCheck (f : Format) (input : Input) (s : Session) (expect : Option String) :
    Except Failure String := do
  let expected ← match expect with
    | some text => some <$> Session.readType text s.registry "--expect"
    | none => pure none
  let e ← readExpr input s
  let refuse (e : TypeError) : Failure := Failure.of "check" e.diagnostic
  let found ← (Parser.staticType e).mapError refuse
  match expected with
  | some t =>
    let _ ← (Rule.expectEqual t ⟨found, e.span⟩).mapError refuse
  | none => pure ()
  if f.json then .ok (success [("type", .string found.text)])
  else .ok (typeLine f found.text ++ banner f.colours Style.boldGreen "Check OK")

/-- The functions of the command line: none besides the built-in ones. -/
def noHost : Host := fun name _ => .finish (.error (.undefinedFunction name))

/-- The value. -/
def runEval (f : Format) (input : Input) (s : Session) : Except Failure String := do
  let e ← readExpr input s
  let refuse (e : EvalError) : Failure := Failure.of "eval" e.diagnostic
  let scope ← (Scope.root.sub s.values).mapError fun e =>
    Failure.of "eval" (RuntimeError.scope e).diagnostic
  match e.evaluate noHost defaultDepth scope 0 with
  | .value v _ =>
    if f.json then .ok (success [("value", v.toJson)]) else .ok (v.toJson.compact ++ "\n")
  | .error e _ => .error (refuse e)
  | .exhausted => .error (Failure.message "eval" "calls nest too deep")

/-- The expression as Rust source. -/
def runLower (f : Format) (input : Input) (s : Session) : Except Failure String := do
  let e ← readExpr input s
  let text ← (lower Rust.backend e).mapError fun e => Failure.of "lower" e.diagnostic
  if f.json then .ok (success [("backend", .string Rust.name), ("output", .string text)])
  else .ok (text ++ "\n")

/-- **Running a command on an expression.** Tokens are listed without a look at the other
options. -/
def runCommand (f : Format) (files : Files) (o : Options) (input : Input) :
    Command → Except Failure String
  | .lex => runLex f input
  | .parse => do runParse f input (← Session.ofOptions files o)
  | .check => do runCheck f input (← Session.ofOptions files o) o.expect
  | .eval => do runEval f input (← Session.ofOptions files o)
  | .lower => do runLower f input (← Session.ofOptions files o)

/-! ## Failures -/

/-- A text with its first letter in upper case. -/
def capitalize (s : String) : String :=
  match s.toList with
  | [] => ""
  | c :: cs => String.ofList (c.toUpper :: cs)

/-- A failure, against the text it points into. -/
def showFailure (f : Format) (input : Option Input) (failure : Failure) : Output :=
  let at_text := (failure.context.or input).getD ⟨"<expr>", ""⟩
  if f.json then
    ⟨1, (report [failure.diagnostic] at_text.source at_text.name failure.phase).pretty ++ "\n", ""⟩
  else
    let layout : Terminal.Layout := ⟨f.colours, some at_text.name, at_text.source⟩
    ⟨1, "", layout.format failure.diagnostic ++ "\n" ++
      banner f.colours Style.boldRed (capitalize failure.phase ++ " FAILED: 1 error")⟩

/-- The outcome of a command. -/
def finish (f : Format) (input : Option Input) : Except Failure String → Output
  | .ok text => ⟨0, text, ""⟩
  | .error failure => showFailure f input failure

/-- A complaint about the arguments. -/
def usageError (colours : Bool) (message : String) : Output :=
  ⟨1, "", Style.apply colours Style.boldRed "error" ++ ": " ++ message ++ "\n"⟩

/-! ## Programs -/

/-- The files that the arguments of the program name. -/
def neededFiles : List String → List String
  | command :: args =>
    match Command.ofName? command, Options.read args with
    | some _, .ok o =>
      (match o.input with
        | some (.file path) => [path]
        | _ => []) ++ o.aliasFiles
    | _, _ => []
  | [] => []

/-- Explaining an error code. -/
def explain (colours : Bool) (code : String) : Output :=
  let f : Format := ⟨false, colours⟩
  let code := code.map Char.toUpper
  finish f none (match ErrorCode.find? code with
    | some c =>
      .ok (Style.apply colours Style.boldRed "error" ++ "[" ++
        Style.apply colours Style.boldRed c.code ++ "]: " ++
        Style.apply colours Style.bold c.title ++ "\n\n  Category: " ++ c.category.text ++ "\n")
    | none => .error (Failure.message "explain" ("unknown error code '" ++ code ++ "'")))

/-- Running a command with its arguments. -/
def runWith (colours : Bool) (files : Files) (c : Command) (args : List String) : Output :=
  match Options.read args with
  | .error e => usageError colours e.message
  | .ok o =>
    match o.input with
    | none =>
      usageError colours
        ("Usage: " ++ Usage.program ++ " " ++ c.name ++ " <EXPR | -f FILE> [options]")
    | some source =>
      let f : Format := ⟨o.json, colours⟩
      match Input.load files source with
      | .error failure => showFailure f none failure
      | .ok input => finish f (some input) (runCommand f files o input c)

/-- **The program**, from its arguments. -/
def run (colours : Bool) (files : Files) : List String → Output
  | [] => ⟨0, Usage.text colours, ""⟩
  | command :: args =>
    if ["help", "--help", "-h"].contains command then ⟨0, Usage.text colours, ""⟩
    else if ["version", "--version", "-V"].contains command then
      ⟨0, Usage.program ++ " " ++ Usage.version ++ "\n", ""⟩
    else if command = "explain" then
      match args with
      | [] => usageError colours ("Usage: " ++ Usage.program ++ " explain <code>")
      | code :: _ => explain colours code
    else match Command.ofName? command with
      | some c => runWith colours files c args
      | none =>
        ⟨1, Usage.text colours,
          Style.apply colours Style.boldRed "error" ++ ": unknown command '" ++ command ++ "'\n"⟩

end CommandLine

end Ascription
