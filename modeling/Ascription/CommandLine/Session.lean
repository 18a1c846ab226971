import Ascription.CommandLine.Options
import Ascription.Diagnostic.OfError
import Ascription.Json.Reader
import Ascription.Parser
import Ascription.Value.Check
import Ascription.Value.Json

/-!
# CommandLine/Session — what the options set up

A session holds the aliases, declarations and variables that the options of a command give.
Files of aliases come first, then the aliases of the command line, then the variables; the first
fault stops the command.
-/

namespace Ascription

/-- A text and the name it is reported under. -/
structure Input where
  name : String
  source : String

/-- A failed command: the phase it stopped in, the diagnostic, and the text it points into where
that is not the expression. -/
structure Failure where
  phase : String
  diagnostic : Diagnostic
  context : Option Input

namespace Failure

def of (phase : String) (d : Diagnostic) : Failure := ⟨phase, d, none⟩

/-- A failure that is a message alone. -/
def message (phase : String) (text : String) : Failure := of phase (Diagnostic.error text)

end Failure

/-- The files a command may read; a refusal comes with its reason. -/
abbrev Files := String → Except String String

/-- The text of a file. -/
def Files.load (files : Files) (phase path : String) : Except Failure String :=
  (files path).mapError fun reason =>
    Failure.message phase ("cannot read " ++ path ++ ": " ++ reason)

/-- The expression of a command. -/
def Input.load (files : Files) : InputSource → Except Failure Input
  | .inline text => .ok ⟨"<expr>", text⟩
  | .file path => do
    let text ← files.load "input" path
    .ok ⟨path, text⟩

/-- What the options of a command set up. -/
structure Session where
  registry : Registry
  declarations : Declarations
  values : List (String × Value)

namespace Session

/-- A type given on the command line, as part of the option `what`. -/
def readType (text : String) (registry : Registry) (what : String) : Except Failure Ty :=
  (parseType text registry).mapError fun e =>
    ⟨"config", e.diagnostic, some ⟨what, text⟩⟩

/-- The aliases of files, in order. -/
def readAliasFiles (files : Files) : List String → Except Failure (List (String × String))
  | [] => .ok []
  | path :: paths => do
    let text ← files.load "config" path
    let table ← (Json.readTable text).mapError fun e =>
      Failure.message "config" (path ++ ": " ++ e.message text)
    let tables ← readAliasFiles files paths
    .ok (table ++ tables)

/-- Defining aliases in order; each sees those before it. -/
def defineAliases (registry : Registry) : List (String × String) → Except Failure Registry
  | [] => .ok registry
  | (name, text) :: rest => do
    let target ← readType text registry ("alias " ++ name)
    let registry ← (registry.defineAlias name target).mapError fun e =>
      Failure.of "config" e.diagnostic
    defineAliases registry rest

/-- A complaint about the variable `name`. -/
def variableFailure (name text : String) : Failure :=
  Failure.message "config" ("--var " ++ name ++ ": " ++ text)

/-- The value of a variable and its type: the one that is given, or the one of the value. -/
def readVariable (registry : Registry) (v : VariableArg) : Except Failure (Ty × Value) := do
  let declared ← match v.type with
    | some text => some <$> readType text registry ("type of " ++ v.name)
    | none => pure none
  let json ← (Json.read v.json).mapError fun e =>
    variableFailure v.name ("invalid JSON: " ++ e.message v.json)
  let value ← (Value.ofJson declared json).mapError fun e => variableFailure v.name e.message
  match declared with
  | some t =>
    let _ ← (value.check t).mapError fun m => variableFailure v.name m.message
    .ok (t, value)
  | none =>
    let t ← value.infer.mapError fun e => Failure.of "config" e.diagnostic
    .ok (t, value)

/-- Adding variables in order. -/
def addVariables (s : Session) : List VariableArg → Except Failure Session
  | [] => .ok s
  | v :: rest => do
    let (t, value) ← readVariable s.registry v
    let declarations ← (s.declarations.declareSynthetic v.name t).mapError fun e =>
      Failure.of "config" e.diagnostic
    addVariables { s with declarations, values := s.values ++ [(v.name, value)] } rest

/-- **The session of a command.** -/
def ofOptions (files : Files) (o : Options) : Except Failure Session := do
  let table ← readAliasFiles files o.aliasFiles
  let registry ← defineAliases Registry.initial (table ++ o.aliases)
  addVariables ⟨registry, [], []⟩ o.variableArgs

end Session

end Ascription
