import Ascription.Source.Span
import Ascription.Ty

/-!
# TypeError — what can be wrong with the types of a text

An error is a cause with the types and names it is about; the wording is computed from the cause.
-/

namespace Ascription

/-- The operators with a static rule on their operands. -/
inductive Operator
  | or
  | minus
  | greater
  deriving DecidableEq

def Operator.text : Operator → String
  | or => "||"
  | minus => "-"
  | greater => ">"

/-- What the operand of an operator has to be. -/
inductive OperandClass
  | bool
  | number
  deriving DecidableEq

def OperandClass.text : OperandClass → String
  | bool => "bool"
  | number => "int or float"

/-- The kinds of names that are defined once. -/
inductive Definition
  | typeName
  | typeAlias
  | function
  deriving DecidableEq

def Definition.text : Definition → String
  | typeName => "type"
  | typeAlias => "type alias"
  | function => "function"

/-- The causes of type errors. -/
inductive TypeError
  | unknownType (name : String) (span : Span)
  | typeTakesNoArgs (name : String) (span : Span)
  | wrongArity (name : String) (expected found : Nat) (span : Span)
  | invalidKeyType (found : Ty) (span : Span)
  | duplicateField (name : String) (span : Span)
  | mismatch (expected found : Ty) (span : Span)
  | badOperand (op : Operator) (expected : OperandClass) (found : Ty) (span : Span)
  | redeclared (name : String) (span previous : Span)
  | declarationConflict (name : String) (declared annotated : Ty) (span declaredAt : Span)
  | alreadyDefined (what : Definition) (name : String)
  | reservedName (what : Definition) (name : String)
  | lambdaHasNoType (span : Span)
  | notAStruct (found : Ty) (field : String) (span : Span)
  | noSuchField (type : Ty) (field : String) (span : Span)
  | notIndexable (found : Ty) (span : Span)

namespace TypeError

/-- **The message of an error.** -/
def message : TypeError → String
  | unknownType name _ => "unknown type: " ++ name
  | typeTakesNoArgs name _ => "type " ++ name ++ " takes no type arguments"
  | wrongArity name expected found _ =>
    name ++ " expects " ++ toString expected ++ " type argument(s), found " ++ toString found
  | invalidKeyType found _ =>
    "invalid key type " ++ found.text ++ ": map keys must be int or string"
  | duplicateField name _ => "duplicate field '" ++ name ++ "'"
  | mismatch expected found _ =>
    "type mismatch: expected " ++ expected.text ++ ", found " ++ found.text
  | badOperand op expected found _ =>
    "operand of '" ++ op.text ++ "' must be " ++ expected.text ++ ", found " ++ found.text
  | redeclared name _ _ => "'" ++ name ++ "' is already declared"
  | declarationConflict name declared annotated _ declaredAt =>
    "'" ++ name ++ "' is declared as " ++ declared.text ++ " at " ++ declaredAt.text ++
      " but annotated as " ++ annotated.text
  | alreadyDefined what name => what.text ++ " '" ++ name ++ "' is already defined"
  | reservedName what name => "cannot redefine built-in " ++ what.text ++ " '" ++ name ++ "'"
  | lambdaHasNoType _ => "lambda has no static type"
  | notAStruct found field _ =>
    "cannot access field '" ++ field ++ "' on non-struct type " ++ found.text
  | noSuchField type field _ => "no such field '" ++ field ++ "' on type " ++ type.text
  | notIndexable found _ => "type " ++ found.text ++ " cannot be indexed"

/-- The text an error is about; definitions made outside a text have none. -/
def span : TypeError → Span
  | unknownType _ s | typeTakesNoArgs _ s | wrongArity _ _ _ s | invalidKeyType _ s
  | duplicateField _ s | mismatch _ _ s | badOperand _ _ _ s | redeclared _ s _
  | declarationConflict _ _ _ s _ | lambdaHasNoType s | notAStruct _ _ s | noSuchField _ _ s
  | notIndexable _ s => s
  | alreadyDefined _ _ | reservedName _ _ => Span.synthetic

/-- The earlier declaration an error refers to. -/
def relatedSpan : TypeError → Option Span
  | redeclared _ _ previous => some previous
  | declarationConflict _ _ _ _ declaredAt => some declaredAt
  | _ => none

/-- **The advice of an error**, where there is any. -/
def hint : TypeError → Option String
  | invalidKeyType _ _ => some "use map<int, V> or map<string, V>"
  | declarationConflict name _ _ _ _ =>
    some ("drop the annotation and write `" ++ name ++ "` alone to use the declared type")
  | lambdaHasNoType _ => some "lambdas can only be passed as call arguments"
  | notAStruct _ field _ => some ("annotate the access as `." ++ field ++ ":Type`")
  | _ => none

end TypeError

end Ascription
