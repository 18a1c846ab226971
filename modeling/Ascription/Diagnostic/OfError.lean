import Ascription.Builtin
import Ascription.Diagnostic
import Ascription.Diagnostic.Suggestion
import Ascription.Lowering
import Ascription.ParseError
import Ascription.RuntimeError

/-!
# Diagnostic/OfError — diagnostics for the errors of every phase
-/

namespace Ascription

/-! ## Syntax errors -/

namespace SyntaxError

/-- Does a message start with a wording? -/
def startsWith (message wording : String) : Bool := wording.toList.isPrefixOf message.toList

/-- Does a message end with a wording? -/
def endsWith (message wording : String) : Bool := wording.toList.isSuffixOf message.toList

/-- **The code of a syntax error**, told by the wording of its message. -/
def codeOf (message : String) : String :=
  if startsWith message "Unexpected character" then "E0101"
  else if startsWith message "Unterminated string" then "E0102"
  else if startsWith message "Expected '=='" then "E0103"
  else if startsWith message "Invalid number" then "E0104"
  else if startsWith message "Expected " then "E0105"
  else if startsWith message "Unexpected token" then "E0106"
  else if endsWith message "is not declared" then "E0107"
  else if startsWith message "Call to " then "E0108"
  else "E0100"

/-- **The diagnostic of a syntax error.** -/
def diagnostic (e : SyntaxError) : Diagnostic :=
  (((Diagnostic.error e.message).withCode (codeOf e.message)).withPrimary e.span "here").withHelp?
    e.hint

end SyntaxError

/-! ## Type errors -/

namespace TypeError

/-- The code of a type error. -/
def code : TypeError → String
  | unknownType _ _ => "E0200"
  | typeTakesNoArgs _ _ => "E0201"
  | wrongArity _ _ _ _ => "E0202"
  | invalidKeyType _ _ => "E0203"
  | duplicateField _ _ => "E0204"
  | mismatch _ _ _ => "E0205"
  | badOperand _ _ _ _ => "E0206"
  | redeclared _ _ _ => "E0207"
  | declarationConflict _ _ _ _ _ => "E0208"
  | alreadyDefined _ _ => "E0209"
  | reservedName _ _ => "E0210"
  | lambdaHasNoType _ => "E0211"
  | notAStruct _ _ _ => "E0212"
  | noSuchField _ _ _ => "E0213"
  | notIndexable _ _ => "E0214"

/-- What to say at the span of a type error. -/
def label : TypeError → String
  | unknownType _ _ => "not a known type or alias"
  | typeTakesNoArgs _ _ => "remove the type arguments"
  | wrongArity _ expected _ _ => "expected " ++ toString expected ++ " type argument(s)"
  | invalidKeyType _ _ => "not a valid key type"
  | duplicateField _ _ => "field repeated here"
  | mismatch expected _ _ => "expected `" ++ expected.text ++ "`"
  | badOperand _ _ found _ => "this is `" ++ found.text ++ "`"
  | redeclared _ _ _ => "declared again here"
  | declarationConflict _ _ annotated _ _ => "annotated as `" ++ annotated.text ++ "`"
  | alreadyDefined _ _ | reservedName _ _ => ""
  | lambdaHasNoType _ => "lambda used as a value"
  | notAStruct found _ _ => "this is `" ++ found.text ++ "`"
  | noSuchField _ _ _ => "unknown field"
  | notIndexable _ _ => "not a list or map"

/-- The name that was meant, for a type that is not known. -/
def suggestion : TypeError → Option String
  | unknownType name _ => Suggestion.didYouMean name builtinTypeNames
  | _ => none

/-- **The diagnostic of a type error.** -/
def diagnostic (e : TypeError) : Diagnostic :=
  let d := ((Diagnostic.error e.message).withCode e.code).withPrimary e.span e.label
  let d := match e.relatedSpan with
    | some s => d.withSecondary s "declared here"
    | none => d
  d.withHelp? (e.suggestion.or e.hint)

end TypeError

/-- **The diagnostic of a refused text.** -/
def ParseError.diagnostic : ParseError → Diagnostic
  | .malformed e => e.diagnostic
  | .illTyped e => e.diagnostic

/-! ## Runtime errors -/

namespace RuntimeError

/-- The code of a runtime error; an error in a lambda keeps its own. -/
def code : RuntimeError → String
  | undefinedVariable _ => "E0300"
  | undefinedFunction _ => "E0301"
  | typeAssertion _ _ _ => "E0302"
  | arityMismatch _ _ _ => "E0303"
  | badArgument _ _ _ _ => "E0304"
  | badOperand _ _ => "E0305"
  | overflow _ => "E0306"
  | noSuchField _ _ => "E0307"
  | notAStruct _ _ => "E0308"
  | missingKey _ => "E0309"
  | indexOutOfBounds _ _ => "E0310"
  | notIndexable _ _ => "E0311"
  | cannotInferType _ => "E0312"
  | scope _ => "E0313"
  | inLambda e _ => code e

/-- The advice and notes that go with a runtime error at a place in a text. -/
def advise (d : Diagnostic) : RuntimeError → Diagnostic
  | undefinedVariable _ => d.withHelp "pass a value for it when evaluating"
  | undefinedFunction name =>
    match Suggestion.didYouMean name Builtin.names with
    | some s => d.withHelp s
    | none => d.withNote "functions come from the built-ins or the host"
  | scope (.shadowing _ _) =>
    d.withNote "lambda parameters cannot reuse a name visible from the enclosing scope"
  | _ => d

/-- The diagnostic of a runtime error raised at a place in a text.  An error in a lambda points into
the body of the lambda. -/
def diagnosticAt (e : RuntimeError) (span : Span) : Diagnostic :=
  match e with
  | inLambda inner at_span => diagnosticAt inner at_span
  | e =>
    advise (((Diagnostic.error e.message).withCode e.code).withPrimary span
      "while evaluating this") e

/-- **The diagnostic of a runtime error** outside of any text. -/
def diagnostic : RuntimeError → Diagnostic
  | inLambda inner span => diagnosticAt inner span
  | e => (Diagnostic.error e.message).withCode e.code

end RuntimeError

/-- **The diagnostic of an evaluation error.** -/
def EvalError.diagnostic (e : EvalError) : Diagnostic := e.error.diagnosticAt e.span

/-! ## Lowering errors -/

/-- **The diagnostic of a lowering error.** -/
def LowerError.diagnostic (e : LowerError) : Diagnostic :=
  ((Diagnostic.error e.message).withCode "E0400").withPrimary e.span
    ("no " ++ e.backend ++ " equivalent")

end Ascription
