import Ascription.Eval.Run
import Ascription.Number.Checked

/-!
# Eval/Builtin — what the built-in functions do

Each function checks the number of its arguments first and then the arguments it needs.  Functions
that call a callable go through their list or map in order and stop at the first error.
-/

namespace Ascription

namespace Builtin

variable {α : Type}

/-! ## Arguments -/

/-- The wrong number of arguments. -/
def arity (b : Builtin) (expected : Nat) (args : List Value) : Run RuntimeError α :=
  Run.fail (.arityMismatch b.name expected args.length)

/-- An argument that is not what it has to be. -/
def bad (b : Builtin) (index : Nat) (expected : ArgumentClass) (v : Value) :
    Run RuntimeError α :=
  Run.fail (.badArgument b.name index expected v.typeName)

def expectInt (b : Builtin) (index : Nat) : Value → Run RuntimeError Int64
  | .int n => pure n
  | v => bad b index .int v

def expectString (b : Builtin) (index : Nat) : Value → Run RuntimeError String
  | .string s => pure s
  | v => bad b index .string v

def expectList (b : Builtin) (index : Nat) : Value → Run RuntimeError (List Value)
  | .list vs => pure vs
  | v => bad b index .list v

def expectCallable (b : Builtin) (index : Nat) : Value → Run RuntimeError Code
  | .callable _ code => pure code
  | v => bad b index .function v

/-! ## Loops -/

/-- What a predicate says of an item. -/
def test (call : Caller) (b : Builtin) (predicate : Code) (v : Value) : Run RuntimeError Bool := do
  match ← call predicate [v] with
  | .bool answer => return answer
  | other =>
    Run.fail (.badArgument b.name 1 .predicate ("one returning " ++ other.typeName))

/-- The items that pass a test. -/
def keepItems (test : Value → Run RuntimeError Bool) : List Value → Run RuntimeError (List Value)
  | [] => pure []
  | v :: vs => do
    let pass ← test v
    let kept ← keepItems test vs
    return if pass then v :: kept else kept

/-- The entries whose values pass a test. -/
def keepEntries (test : Value → Run RuntimeError Bool) :
    List (MapKey × Value) → Run RuntimeError (List (MapKey × Value))
  | [] => pure []
  | (k, v) :: rest => do
    let pass ← test v
    let kept ← keepEntries test rest
    return if pass then (k, v) :: kept else kept

/-- The images of the items. -/
def mapItems (f : Value → Run RuntimeError Value) : List Value → Run RuntimeError (List Value)
  | [] => pure []
  | v :: vs => do
    let w ← f v
    let ws ← mapItems f vs
    return w :: ws

/-- The entries with the images of their values. -/
def mapEntries (f : Value → Run RuntimeError Value) :
    List (MapKey × Value) → Run RuntimeError (List (MapKey × Value))
  | [] => pure []
  | (k, v) :: rest => do
    let w ← f v
    let ws ← mapEntries f rest
    return (k, w) :: ws

/-- Does an item pass a test? The items behind the first one that does are not tested. -/
def anyItem (test : Value → Run RuntimeError Bool) : List Value → Run RuntimeError Bool
  | [] => pure false
  | v :: vs => do
    if ← test v then return true else anyItem test vs

/-! ## Data -/

/-- Is a value among others? The others stand on the left of the comparison. -/
def among (vs : List Value) (v : Value) : Bool := vs.any fun w => w.equal v

/-- The first of each class of equal items, behind those already kept. -/
def distinctFrom (kept : List Value) : List Value → List Value
  | [] => kept
  | v :: vs => distinctFrom (if among kept v then kept else kept ++ [v]) vs

/-- The characters of a text of `length` characters that a slice keeps: from its first place up to,
and not including, its last. -/
def sliceBounds (length start count : Int64) : Int64 × Int64 :=
  let first := if start < 0 then (if length + start < 0 then 0 else length + start)
    else if start < length then start else length
  let last := if count < 0 then length + count
    else
      let stop := Checked.saturatingAdd first count
      if stop < length then stop else length
  (first, last)

/-- **A slice of a text.** Negative places and counts are taken from the end. -/
def slice (cs : List Char) (start count : Int64) : List Char :=
  let (first, last) := sliceBounds (Int64.ofNat cs.length) start count
  if last ≤ first then []
  else (cs.take last.toInt.toNat).drop first.toInt.toNat

/-- **The front of a list**: `n` items, or for negative `n` all but the last `-n`. -/
def front (vs : List Value) (n : Int64) : List Value :=
  if 0 ≤ n then vs.take (min n.toInt.toNat vs.length)
  else vs.take (vs.length - min n.toInt.natAbs vs.length)

/-! ## The functions -/

/-- **Running a built-in function.** -/
def run (call : Caller) : Builtin → List Value → Run RuntimeError Value
  | contains, [collection, v] =>
    match collection with
    | .list vs => return .bool (among vs v)
    | .map es => return .bool (among (es.map Prod.snd) v)
    | other => bad contains 0 .collection other
  | contains, args => arity contains 2 args
  | count, [collection] =>
    match collection with
    | .list vs => return .int (Int64.ofNat vs.length)
    | .map es => return .int (Int64.ofNat es.length)
    | other => bad count 0 .collection other
  | count, args => arity count 1 args
  | filter, [collection, f] => do
    let predicate ← expectCallable filter 1 f
    match collection with
    | .list vs => return .list (← keepItems (test call filter predicate) vs)
    | .map es => return .map (← keepEntries (test call filter predicate) es)
    | other => bad filter 0 .collection other
  | filter, args => arity filter 2 args
  | isSome, [v] =>
    match v with
    | .none => return .bool false
    | _ => return .bool true
  | isSome, args => arity isSome 1 args
  | map, [collection, f] => do
    let image ← expectCallable map 1 f
    match collection with
    | .list vs => return .list (← mapItems (fun v => call image [v]) vs)
    | .map es => return .map (← mapEntries (fun v => call image [v]) es)
    | other => bad map 0 .collection other
  | map, args => arity map 2 args
  | some, [list, f] => do
    let vs ← expectList some 0 list
    let predicate ← expectCallable some 1 f
    return .bool (← anyItem (test call some predicate) vs)
  | some, args => arity some 2 args
  | substr, [text, start, amount] => do
    let s ← expectString substr 0 text
    let start ← expectInt substr 1 start
    let amount ← expectInt substr 2 amount
    return .string (String.ofList (slice s.toList start amount))
  | substr, args => arity substr 3 args
  | take, [list, n] => do
    let vs ← expectList take 0 list
    let n ← expectInt take 1 n
    return .list (front vs n)
  | take, args => arity take 2 args
  | unique, [list] => do
    let vs ← expectList unique 0 list
    return .list (distinctFrom [] vs)
  | unique, args => arity unique 1 args

end Builtin

end Ascription
