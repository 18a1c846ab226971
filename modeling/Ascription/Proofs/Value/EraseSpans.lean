import Ascription.Proofs.Expr.Like

/-!
# Proofs/Value/EraseSpans — values without the spans in their closures

    callable i (closure s ps b)  ──erase──▸  callable i (closure (erase s) ps (erase b))

Spans lie in the bodies of closures and nowhere else in a value; but a closure keeps its
scope, and that binds values with closures of their own.  A runtime error holds spans
where it came out of lambdas.
-/

namespace Ascription

/-! ## Erasing -/

mutual

/-- **A value without spans.** -/
def Value.eraseSpans : Value → Value
  | .string s => .string s
  | .int n => .int n
  | .float x => .float x
  | .bool b => .bool b
  | .none => .none
  | .list vs => .list (Value.eraseItems vs)
  | .map es => .map (Value.eraseEntries es)
  | .record kind fs => .record kind (Value.eraseFields fs)
  | .callable i c => .callable i c.eraseSpans

def Value.eraseItems : List Value → List Value
  | [] => []
  | v :: vs => v.eraseSpans :: Value.eraseItems vs

def Value.eraseEntries : List (MapKey × Value) → List (MapKey × Value)
  | [] => []
  | (k, v) :: es => (k, v.eraseSpans) :: Value.eraseEntries es

def Value.eraseFields : List (String × Value) → List (String × Value)
  | [] => []
  | (name, v) :: fs => (name, v.eraseSpans) :: Value.eraseFields fs

/-- Code without spans, in its body and in its scope. -/
def Code.eraseSpans : Code → Code
  | .builtin b => .builtin b
  | .host name => .host name
  | .closure s params body => .closure (Level.eraseAll s) params body.eraseSpans

def FunctionEntry.eraseSpans : FunctionEntry → FunctionEntry
  | .mk signature code => .mk signature code.eraseSpans

def FunctionEntry.eraseAll : List (String × FunctionEntry) → List (String × FunctionEntry)
  | [] => []
  | (name, f) :: fs => (name, f.eraseSpans) :: FunctionEntry.eraseAll fs

/-- A level without the spans in its values and functions. -/
def Level.eraseSpans : Level → Level
  | .mk values functions => .mk (Value.eraseFields values) (FunctionEntry.eraseAll functions)

def Level.eraseAll : List Level → List Level
  | [] => []
  | l :: ls => l.eraseSpans :: Level.eraseAll ls

end

/-- **A scope without spans.** -/
def Scope.eraseSpans (s : Scope) : Scope := Level.eraseAll s

/-- **A runtime error without spans.** -/
def RuntimeError.eraseSpans : RuntimeError → RuntimeError
  | .inLambda e _ => .inLambda e.eraseSpans .synthetic
  | e => e

end Ascription
