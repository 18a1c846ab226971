import Ascription.Declarations
import Ascription.Value.Check

/-!
# Scope — the names an expression sees

A scope grows by levels.  No level may bind a variable or function that is already visible, and none
may bind a built-in function; those are bound on the outermost level.
-/

namespace Ascription

namespace Scope

/-- **The value of a variable.** -/
def value? (s : Scope) (name : String) : Option Value :=
  s.findSome? fun l => l.values.lookup name

/-- **The function of a name.** -/
def function? (s : Scope) (name : String) : Option FunctionEntry :=
  s.findSome? fun l => l.functions.lookup name

/-- The built-in functions as entries of a level. -/
def builtins : List (String × FunctionEntry) :=
  Builtin.all.map fun b => (b.name, .mk (some b.signature) (.builtin b))

/-- Variables for a new level, none of which is visible from `parent`. -/
def bindVariables (parent : Scope) (done : List (String × Value)) :
    List (String × Value) → Except ScopeError (List (String × Value))
  | [] => .ok done
  | (name, v) :: rest =>
    if (parent.value? name).isSome then .error (.shadowing .variableName name)
    else bindVariables parent (Entries.insert name v done) rest

/-- Functions for a new level, none of which is built in or visible from `parent`. -/
def bindFunctions (parent : Scope) (done : List (String × FunctionEntry)) :
    List (String × FunctionEntry) → Except ScopeError (List (String × FunctionEntry))
  | [] => .ok done
  | (name, f) :: rest =>
    if Builtin.isName name then .error (.reservedFunction name)
    else if (parent.function? name).isSome then .error (.shadowing .functionName name)
    else bindFunctions parent (Entries.insert name f done) rest

/-- **A new level** inside `parent`, or the outermost level of a new scope. -/
def extend (parent : Option Scope) (values : List (String × Value))
    (functions : List (String × FunctionEntry)) : Except ScopeError Scope := do
  let outer := parent.getD []
  let vs ← bindVariables outer [] values
  let fs ← bindFunctions outer (if parent.isNone then builtins else []) functions
  .ok (.mk vs fs :: outer)

/-- The scope that binds the built-in functions only. -/
def root : Scope := [.mk [] builtins]

/-- A level of variables inside a scope. -/
def sub (s : Scope) (values : List (String × Value)) : Except ScopeError Scope :=
  extend (some s) values []

/-- All visible variables, those of the innermost level first. -/
def values (s : Scope) : List (String × Value) := s.flatMap Level.values

/-- The enclosing scope. -/
def parent? : Scope → Option Scope
  | _ :: l :: rest => some (l :: rest)
  | _ => none

/-- Naming the variable whose type cannot be inferred. -/
def nameVariable (name : String) : RuntimeError → RuntimeError
  | .cannotInferType reason => .cannotInferType ("variable `" ++ name ++ "`: " ++ reason)
  | e => e

/-- Declaring variables with the types of their values. -/
def declareAll (done : Declarations) : List (String × Value) → Except RuntimeError Declarations
  | [] => .ok done
  | (name, v) :: rest => do
    let t ← v.infer.mapError (nameVariable name)
    match done.declareSynthetic name t with
    | .error _ => .error (.scope (.shadowing .variableName name))
    | .ok ds => declareAll ds rest

/-- **The declarations of all visible variables.** -/
def declarations (s : Scope) : Except RuntimeError Declarations := declareAll [] s.values

end Scope

end Ascription
