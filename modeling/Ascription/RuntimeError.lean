import Ascription.Value

/-!
# RuntimeError — why an evaluation stops

An error is its cause; the wording is computed from it.  An error inside a lambda keeps the span in
the lambda's body, however many callables lie between.
-/

namespace Ascription

/-! ## Values that do not fit their types -/

/-- One step from a value to a part of it. -/
inductive PathSegment
  | index (i : Nat)
  | key (k : MapKey)
  | field (name : String)
  deriving DecidableEq

/-- The segment as messages show it. -/
def PathSegment.text : PathSegment → String
  | index i => "[" ++ toString i ++ "]"
  | key k => "[" ++ k.text ++ "]"
  | field name => "." ++ name

/-- What a part of a value had to be, or to have. -/
inductive Requirement
  | type (t : Ty)
  | field (name : String)

/-- A part of a value that does not fit: what was required of it, the name of the type it has, and
the way to it, outermost step first. -/
structure Mismatch where
  required : Requirement
  actual : String
  path : List PathSegment

namespace Mismatch

def expected (m : Mismatch) : String :=
  match m.required with
  | .type t => t.text
  | .field name => "field '" ++ name ++ "'"

def found (m : Mismatch) : String :=
  match m.required with
  | .type _ => m.actual
  | .field _ => m.actual ++ " without it"

/-- The message of a mismatch. -/
def message (m : Mismatch) : String :=
  "expected " ++ m.expected ++ ", found " ++ m.found ++
    (if m.path.isEmpty then "" else " at " ++ String.join (m.path.map PathSegment.text))

/-- The mismatch seen from a value of which the present one is a part. -/
def within (segment : PathSegment) (m : Mismatch) : Mismatch :=
  { m with path := segment :: m.path }

end Mismatch

/-! ## Scopes that cannot be built -/

/-- What a name in a scope is bound to. -/
inductive Binding
  | variableName
  | functionName
  deriving DecidableEq

def Binding.text : Binding → String
  | variableName => "variable"
  | functionName => "function"

/-- Why a level cannot be added to a scope. -/
inductive ScopeError
  | shadowing (what : Binding) (name : String)
  | reservedFunction (name : String)
  deriving DecidableEq

def ScopeError.message : ScopeError → String
  | shadowing what name =>
    what.text ++ " `" ++ name ++ "` is already visible from an enclosing scope"
  | reservedFunction name => "built-in function `" ++ name ++ "` cannot be rebound"

/-! ## Runtime errors -/

/-- What a type annotation is checked against. -/
inductive Subject
  | reading (name : String)
  | result (function : String)
  deriving DecidableEq

def Subject.text : Subject → String
  | reading name => "variable `" ++ name ++ "`"
  | result function => "result of `" ++ function ++ "`"

/-- The operations that need operands of certain types. -/
inductive Operation
  | or
  | greater
  | subtract
  | negate
  deriving DecidableEq

def Operation.text : Operation → String
  | or => "||"
  | greater => ">"
  | subtract => "-"
  | negate => "unary -"

/-- What an argument of a function has to be. -/
inductive ArgumentClass
  | int
  | string
  | list
  | collection
  | function
  | predicate
  deriving DecidableEq

def ArgumentClass.text : ArgumentClass → String
  | int => "an int"
  | string => "a string"
  | list => "a list"
  | collection => "a list or map"
  | function => "a function"
  | predicate => "a predicate returning bool"

/-- The causes of runtime errors. -/
inductive RuntimeError
  | undefinedVariable (name : String)
  | undefinedFunction (name : String)
  | typeAssertion (subject : Subject) (type : Ty) (mismatch : Mismatch)
  | arityMismatch (function : String) (expected got : Nat)
  | badArgument (function : String) (index : Nat) (expected : ArgumentClass) (found : String)
  | badOperand (op : Operation) (found : String)
  | overflow (op : Operation)
  | noSuchField (owner field : String)
  | notAStruct (field found : String)
  | missingKey (key : String)
  | indexOutOfBounds (index : Int64) (length : Nat)
  | notIndexable (found key : String)
  | cannotInferType (reason : String)
  | scope (e : ScopeError)
  /-- An error in the body of a lambda, at a span of the body. -/
  | inLambda (e : RuntimeError) (span : Span)

namespace RuntimeError

/-- **The message of an error.** -/
def message : RuntimeError → String
  | undefinedVariable name => "undefined variable `" ++ name ++ "`"
  | undefinedFunction name => "undefined function `" ++ name ++ "`"
  | typeAssertion subject type mismatch =>
    subject.text ++ " does not match its declared type " ++ type.text ++ ": " ++ mismatch.message
  | arityMismatch function expected got =>
    "`" ++ function ++ "` expects " ++ toString expected ++ " argument" ++
      (if expected = 1 then "" else "s") ++ ", got " ++ toString got
  | badArgument function index expected found =>
    "argument " ++ toString index ++ " of `" ++ function ++ "` must be " ++ expected.text ++
      ", found " ++ found
  | badOperand op found => "operator `" ++ op.text ++ "` cannot be applied to " ++ found
  | overflow op => "integer overflow in `" ++ op.text ++ "`"
  | noSuchField owner field => "no field `" ++ field ++ "` on " ++ owner
  | notAStruct field found => "cannot read field `" ++ field ++ "` of " ++ found
  | missingKey key => "key " ++ key ++ " not found"
  | indexOutOfBounds index length =>
    "index " ++ toString index.toInt ++ " out of bounds (length is " ++ toString length ++ ")"
  | notIndexable found key => "cannot index into " ++ found ++ " with " ++ key
  | cannotInferType reason => "cannot infer a type: " ++ reason
  | scope e => e.message
  | inLambda e _ => message e

end RuntimeError

/-- A runtime error and the expression that raised it. -/
structure EvalError where
  error : RuntimeError
  span : Span

namespace EvalError

def message (e : EvalError) : String := e.error.message

/-- An error raised while the expression at `span` is evaluated; one from a lambda stays where it
is. -/
def raisedAt (span : Span) : RuntimeError → EvalError
  | .inLambda e inner => ⟨e, inner⟩
  | e => ⟨e, span⟩

/-- The error of a lambda, as the caller of the lambda sees it. -/
def toRuntime (e : EvalError) : RuntimeError := .inLambda e.error e.span

end EvalError

end Ascription
