import Ascription.Text.Split

/-!
# CommandLine/Options — the arguments of a command

Flags and the expression may come in any order; what may come several times is kept in order.
-/

namespace Ascription

/-- Where the expression comes from. -/
inductive InputSource
  | inline (text : String)
  | file (path : String)
  deriving DecidableEq

/-- A variable, `NAME=JSON` or `NAME:TYPE=JSON`. -/
structure VariableArg where
  name : String
  type : Option String
  json : String
  deriving DecidableEq

/-- The options of a command. -/
structure Options where
  input : Option InputSource
  variableArgs : List VariableArg
  aliases : List (String × String)
  aliasFiles : List String
  expect : Option String
  json : Bool
  deriving DecidableEq

/-- Why arguments are refused. -/
inductive OptionError
  | missingValue (flag : String)
  | secondExpression
  | malformedAlias (spec : String)
  | malformedVariable (spec : String)
  | unnamedVariable (spec : String)
  | unknownOption (flag : String)
  deriving DecidableEq

def OptionError.message : OptionError → String
  | missingValue flag => flag ++ " requires a value"
  | secondExpression => "only one expression may be given"
  | malformedAlias spec => "--alias expects NAME=TYPE, got '" ++ spec ++ "'"
  | malformedVariable spec =>
    "--var expects NAME=JSON or NAME:TYPE=JSON, got '" ++ spec ++ "'"
  | unnamedVariable spec => "--var is missing a variable name in '" ++ spec ++ "'"
  | unknownOption flag => "unknown option '" ++ flag ++ "'"

namespace Options

/-- The options before any argument. -/
def initial : Options := ⟨none, [], [], [], none, false⟩

/-- Setting the input, which is given once. -/
def setInput (o : Options) (input : InputSource) : Except OptionError Options :=
  if o.input.isSome then .error .secondExpression else .ok { o with input := some input }

/-- Reading the argument of `--var`. -/
def readVariable (spec : String) : Except OptionError VariableArg :=
  match Split.once '=' spec with
  | none => .error (.malformedVariable spec)
  | some (binding, json) =>
    let (name, type) := match Split.once ':' binding with
      | some (name, type) => (Split.trim name, some (Split.trim type))
      | none => (Split.trim binding, none)
    if name.isEmpty then .error (.unnamedVariable spec) else .ok ⟨name, type, json⟩

/-- The flags that take a value. -/
inductive Flag
  | file
  | variable_
  | typeAlias
  | aliasFile
  | expect
  deriving DecidableEq

/-- The flag an argument spells. -/
def flag? : String → Option Flag
  | "-f" | "--file" => some .file
  | "--var" => some .variable_
  | "--alias" => some .typeAlias
  | "--aliases" => some .aliasFile
  | "--expect" => some .expect
  | _ => none

/-- Taking a flag with its value. -/
def applyFlag (o : Options) (value : String) : Flag → Except OptionError Options
  | .file => o.setInput (.file value)
  | .variable_ => do
    let v ← readVariable value
    .ok { o with variableArgs := o.variableArgs ++ [v] }
  | .typeAlias =>
    match Split.once '=' value with
    | some (name, type) =>
      .ok { o with aliases := o.aliases ++ [(Split.trim name, Split.trim type)] }
    | none => .error (.malformedAlias value)
  | .aliasFile => .ok { o with aliasFiles := o.aliasFiles ++ [value] }
  | .expect => .ok { o with expect := some value }

/-- Taking an argument that is no flag with a value. -/
def applyWord (o : Options) (arg : String) : Except OptionError Options :=
  if arg = "--json" then .ok { o with json := true }
  else if arg.startsWith "--" then .error (.unknownOption arg)
  else o.setInput (.inline arg)

/-- Taking the arguments one after the other. -/
def readFrom (o : Options) : List String → Except OptionError Options
  | [] => .ok o
  | arg :: rest =>
    match flag? arg, rest with
    | some f, value :: rest => do
      let o ← o.applyFlag value f
      readFrom o rest
    | some _, [] => .error (.missingValue arg)
    | none, rest => do
      let o ← o.applyWord arg
      readFrom o rest

/-- **Reading the arguments of a command.** -/
def read (args : List String) : Except OptionError Options := readFrom initial args

end Options

end Ascription
