import Ascription.Eval.Builtin

/-!
# Eval — the value of an expression

`evalWith` goes through an expression from left to right, given a way to call callables.  Calls are
where evaluation can go on without end, so `callAt` bounds how deep they nest; everything else is
structural.  Evaluating a lambda makes a new callable; annotations are checked whenever a variable
is read or a call returns.
-/

namespace Ascription

/-! ## Operators -/

namespace Value

/-- The error of an operator on two values it does not take. -/
def operandError (op : Operation) (l r : Value) : RuntimeError :=
  .badOperand op (l.typeName ++ " and " ++ r.typeName)

def disjunction : Value → Value → Except RuntimeError Value
  | bool a, bool b => .ok (bool (a || b))
  | bool _, other => .error (.badOperand .or other.typeName)
  | other, _ => .error (.badOperand .or other.typeName)

def greater : Value → Value → Except RuntimeError Value
  | int a, int b => .ok (bool (b < a))
  | float a, float b => .ok (bool (a.greater b))
  | l, r => .error (operandError .greater l r)

def subtract : Value → Value → Except RuntimeError Value
  | int a, int b =>
    match Checked.sub? a b with
    | some n => .ok (int n)
    | Option.none => .error (.overflow .subtract)
  | float a, float b => .ok (float (a.sub b))
  | l, r => .error (operandError .subtract l r)

def negate : Value → Except RuntimeError Value
  | int a =>
    match Checked.neg? a with
    | some n => .ok (int n)
    | Option.none => .error (.overflow .negate)
  | float a => .ok (float a.neg)
  | v => .error (.badOperand .negate v.typeName)

/-- The value of a binary operator. -/
def binary : BinaryOp → Value → Value → Except RuntimeError Value
  | .eq, l, r => .ok (bool (l.equal r))
  | .or, l, r => disjunction l r
  | .gt, l, r => greater l r
  | .subtract, l, r => subtract l r

/-- The field of a record. -/
def fieldOf (name : String) : Value → Except RuntimeError Value
  | record kind fields =>
    match fields.lookup name with
    | some v => .ok v
    | Option.none => .error (.noSuchField (kind.getD "struct") name)
  | other => .error (.notAStruct name other.typeName)

/-- The item of a list or the value of a map entry. -/
def index : Value → Value → Except RuntimeError Value
  | list vs, int i =>
    if i < 0 then .error (.indexOutOfBounds i vs.length)
    else match vs[i.toInt.toNat]? with
      | some v => .ok v
      | Option.none => .error (.indexOutOfBounds i vs.length)
  | map es, key =>
    match key.toKey? with
    | Option.none => .error (.missingKey key.text)
    | some k =>
      match es.lookup k with
      | some v => .ok v
      | Option.none => .error (.missingKey key.text)
  | other, key => .error (.notIndexable other.typeName key.typeName)

/-- A value that has to have the type it is annotated with. -/
def assert (subject : Subject) (t : Ty) (v : Value) : Except RuntimeError Value :=
  match v.check t with
  | .ok () => .ok v
  | .error m => .error (.typeAssertion subject t m)

end Value

/-! ## Expressions -/

namespace Expr

/-- An outcome at a node of an expression. -/
def raiseAt {α : Type} (span : Span) (outcome : Except RuntimeError α) : Run EvalError α :=
  Run.ofExcept (outcome.mapError (EvalError.raisedAt span))

mutual

/-- **The value of an expression** in a scope. -/
def evalWith (call : Caller) (scope : Scope) : Expr → Run EvalError Value
  | get span name type =>
    match scope.value? name with
    | some v => raiseAt span (v.assert (.reading name) type)
    | none => raiseAt span (.error (.undefinedVariable name))
  | literal _ v => pure (.ofLiteral v)
  | binary span op left right => do
    let l ← evalWith call scope left
    let r ← evalWith call scope right
    raiseAt span (Value.binary op l r)
  | negative span operand => do
    let v ← evalWith call scope operand
    raiseAt span v.negate
  | .call span target name result args => do
    let v ← evalWith call scope target
    let vs ← evalAll call scope args
    match scope.function? name with
    | none => raiseAt span (.error (.undefinedFunction name))
    | some f =>
      let answer ← (call f.code (v :: vs)).mapError (EvalError.raisedAt span)
      raiseAt span (answer.assert (.result name) result)
  | lambda _ params body => do
    let identity ← Run.fresh
    return .callable identity (.closure scope params body)
  | list _ items => do
    return .list (← evalAll call scope items)
  | struct _ fields => do
    return .anonymous (← evalFields call scope fields)
  | field span target name _ => do
    let v ← evalWith call scope target
    raiseAt span (v.fieldOf name)
  | offset span target key => do
    let v ← evalWith call scope target
    let k ← evalWith call scope key
    raiseAt span (v.index k)

/-- The values of a list of expressions, from left to right. -/
def evalAll (call : Caller) (scope : Scope) : List Expr → Run EvalError (List Value)
  | [] => pure []
  | e :: es => do
    let v ← evalWith call scope e
    let vs ← evalAll call scope es
    return v :: vs

/-- The values of the fields of a struct literal, from left to right. -/
def evalFields (call : Caller) (scope : Scope) :
    List (String × Expr) → Run EvalError (List (String × Value))
  | [] => pure []
  | (name, e) :: rest => do
    let v ← evalWith call scope e
    let vs ← evalFields call scope rest
    return (name, v) :: vs

end

end Expr

/-! ## Calls -/

namespace Code

/-- Calling a closure: a new level binds the parameters, in order, to the arguments; spare arguments
are dropped. -/
def callClosure (call : Caller) (scope : Scope) (params : List String) (body : Expr)
    (args : List Value) : Run RuntimeError Value :=
  if args.length < params.length then
    Run.fail (.arityMismatch "lambda" params.length args.length)
  else
    match scope.sub (params.zip args) with
    | .error e => Run.fail (.scope e)
    | .ok inner => (body.evalWith call inner).mapError EvalError.toRuntime

/-- One step of calling; `call` is used for the calls inside. -/
def callStep (host : Host) (call : Caller) : Caller
  | builtin b, args => b.run call args
  | .host name, args => (host name args).run call
  | closure scope params body, args => callClosure call scope params body args

/-- **Calling a callable**, calls nested no deeper than `depth`. -/
def callAt (host : Host) : Nat → Caller
  | 0 => fun _ _ => Run.exhausted
  | depth + 1 => callStep host (callAt host depth)

end Code

/-- How deep calls nest unless a host asks for another depth. -/
def defaultDepth : Nat := 200000

/-- **Evaluating an expression.** -/
def Expr.evaluate (host : Host) (depth : Nat) (scope : Scope) (e : Expr) : Run EvalError Value :=
  e.evalWith (Code.callAt host depth) scope

end Ascription
