import Ascription.Lowering
import Ascription.Text.Quoted

/-!
# Lowering/Rust — expressions as Rust source

Calls become function calls with the target as first argument, lists become vectors, and indices are
converted for lists and borrowed for maps.  Operands that are operations, lambdas or negative
numbers stand in parentheses.  Struct literals have no equivalent: the first one is the error.
-/

namespace Ascription

namespace Rust

/-- A literal as Rust source, numbers with their type. -/
def literal : Literal → String
  | .string s => quoted s
  | .int n => toString n.toInt ++ "i64"
  | .float x => Notation.value.text x ++ "f64"
  | .bool b => if b then "true" else "false"
  | .none => "None"

/-- How a binary operator is spelled. -/
def operator : BinaryOp → String
  | .eq => "=="
  | .or => "||"
  | .gt => ">"
  | .subtract => "-"

/-- Does an operand need parentheses? -/
def needsParens : Expr → Bool
  | .binary _ _ _ _ | .negative _ _ | .lambda _ _ _ => true
  | .literal _ (.int n) => n < 0
  | .literal _ (.float x) => x.negative
  | _ => false

/-- The text of an operand. -/
def operand (e : Expr) (text : String) : String :=
  if needsParens e then "(" ++ text ++ ")" else text

/-- The name of the language in messages. -/
def name : String := "rust"

/-- Is the expression's static type a map type? -/
def isMap (e : Expr) : Bool := (e.type?.map Ty.isMap).getD false

mutual

/-- **An expression as Rust source.** -/
def emit : Expr → Except LowerError String
  | .get _ n _ => .ok n
  | .literal _ v => .ok (literal v)
  | .binary _ op l r => do
    let left ← emit l
    let right ← emit r
    .ok (operand l left ++ " " ++ operator op ++ " " ++ operand r right)
  | .negative _ e => do
    let text ← emit e
    .ok ("-" ++ operand e text)
  | .call _ t n _ as => do
    let target ← emit t
    let args ← emitAll as
    .ok (n ++ "(" ++ ", ".intercalate (target :: args) ++ ")")
  | .lambda _ ps b => do
    let body ← emit b
    .ok ("|" ++ ", ".intercalate ps ++ "| " ++ body)
  | .list _ es => do
    let items ← emitAll es
    .ok ("vec![" ++ ", ".intercalate items ++ "]")
  | .struct s _ => .error ⟨name, .struct, s⟩
  | .field _ t n _ => do
    let target ← emit t
    .ok (operand t target ++ "." ++ n)
  | .offset _ t k => do
    let target ← emit t
    let key ← emit k
    if isMap t then .ok (operand t target ++ "[&" ++ operand k key ++ "]")
    else .ok (operand t target ++ "[" ++ operand k key ++ " as usize]")

/-- A list of expressions as Rust source. -/
def emitAll : List Expr → Except LowerError (List String)
  | [] => .ok []
  | e :: es => do
    let text ← emit e
    let texts ← emitAll es
    .ok (text :: texts)

end

/-- The forms that Rust source is written for: all but struct literals. -/
def supported : List Form :=
  [.get, .literal, .eq, .or, .gt, .subtract, .negative, .call, .lambda, .list, .field, .offset]

/-- **The backend for Rust source.** -/
def backend : Backend String := ⟨name, supported, emit⟩

end Rust

end Ascription
