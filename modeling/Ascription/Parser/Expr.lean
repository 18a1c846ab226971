import Ascription.Expr
import Ascription.Parser.Type
import Ascription.Rule

/-!
# Parser/Expr — the grammar of expressions

    expr    := 'declare' name ':' type expr | operand (operator operand)*
    operand := '-' operand | primary step*
    step    := '.' name | '.' name ':' type [ '(' exprs ')' ] | '[' expr ']'
    primary := literal | name [ ':' type ] | '|' names '|' expr | '||' expr
             | '(' expr ')' | '[' exprs ']' | '{' fields '}'

The operators `===`, `||`, `-` and `>` have one strength and associate to the left; a lambda reaches
as far to the right as it can.  Types are looked up and the static rules applied while reading, so
the first fault in the text decides.

Each function takes the parser `expr` of the expressions inside; `exprFrom` ties the knot.
-/

namespace Ascription

namespace Parser

/-- The static type of an expression, which must not be a lambda. -/
def staticType (e : Expr) : Except TypeError Ty :=
  match e.type? with
  | some t => .ok t
  | none => .error (.lambdaHasNoType e.span)

/-- An expression's static type with its span. -/
def typed (e : Expr) : Parser Typed := do
  let t ← judge (staticType e)
  return ⟨t, e.span⟩

/-! ## Primaries -/

/-- A variable whose name has been read: annotated, or declared. -/
def reference (registry : Registry) (name : String) (span : Span) : Parser Expr := do
  if ← accept .colon then
    let annotated ← type registry
    let span := Span.merge span (← previousSpan)
    let s ← state
    let t ← judge (s.declarations.checkAnnotated name annotated span)
    return .get span name t
  else
    let s ← state
    match s.declarations.find? name with
    | some d => return .get span name d.type
    | none => failForm (.undeclared name) span

/-- A literal. -/
def literal (value : Literal) : Parser Expr := do
  let t ← advance
  return .literal t.span value

/-- The body of a lambda. -/
def lambda (expr : Parser Expr) (start : Span) (params : List String) : Parser Expr := do
  let body ← expr
  return .lambda (Span.merge start body.span) params body

/-- The elements of a list literal have to be subtypes of the first. -/
def checkElements : List Expr → Parser Unit
  | [] => pure ()
  | first :: others => do
    let t ← judge (staticType first)
    others.forM fun e => do judge (Rule.listElement t (← typed e))

/-- A list literal. -/
def listLiteral (expr : Parser Expr) : Parser Expr := do
  let start ← expect .leftBracket
  let elements ← items (fun _ => expr) .rightBracket
  checkElements elements
  return .list (Span.merge start (← previousSpan)) elements

/-- A field of a struct literal, whose name must not be among those before it. -/
def fieldLiteral (expr : Parser Expr) (before : List (String × Expr)) :
    Parser (String × Expr) := do
  let (name, span) ← expectName
  if Entries.contains before name then fail (.illTyped (.duplicateField name span))
  else
    let _ ← expect .colon
    let value ← expr
    let _ ← typed value
    return (name, value)

/-- A struct literal. -/
def structLiteral (expr : Parser Expr) : Parser Expr := do
  let start ← expect .leftBrace
  let fields ← items (fieldLiteral expr) .rightBrace
  return .struct (Span.merge start (← previousSpan)) fields

/-- The innermost expressions. -/
def primary (registry : Registry) (expr : Parser Expr) : Parser Expr := do
  match ← peek with
  | some (.int n) => literal (.int n)
  | some (.float x) => literal (.float x)
  | some (.string s) => literal (.string s)
  | some (.name _) =>
    let (name, span) ← expectName
    reference registry name span
  | some (.punct .pipe) =>
    let start ← expect .pipe
    let params ← items (fun _ => expectName) .pipe
    lambda expr start (params.map Prod.fst)
  | some (.punct .doublePipe) =>
    let start ← expect .doublePipe
    lambda expr start []
  | some (.punct .leftParen) =>
    let _ ← expect .leftParen
    let inner ← expr
    let _ ← expect .rightParen
    return inner
  | some (.punct .leftBracket) => listLiteral expr
  | some (.punct .leftBrace) => structLiteral expr
  | _ => expected .expression

/-! ## Steps behind a primary -/

/-- A call or a field access. -/
def member (registry : Registry) (expr : Parser Expr) (target : Expr) : Parser Expr := do
  let _ ← expect .dot
  let (name, nameSpan) ← expectName
  if ← looksAt .leftParen then failForm (.untypedCall name) (← here)
  else
    let annotated ← if ← accept .colon then some <$> type registry else pure none
    match annotated, ← looksAt .leftParen with
    | some result, true =>
      let _ ← expect .leftParen
      let args ← items (fun _ => expr) .rightParen
      return .call (Span.merge target.span (← previousSpan)) target name result args
    | annotated, _ =>
      let targetType ← judge (staticType target)
      let t ← judge (Rule.fieldType targetType name annotated nameSpan)
      return .field (Span.merge target.span (← previousSpan)) target name t

/-- An index. -/
def offset (expr : Parser Expr) (target : Expr) : Parser Expr := do
  let _ ← expect .leftBracket
  let key ← expr
  let stop ← expect .rightBracket
  let targetType ← typed target
  let keyType ← typed key
  let _ ← judge (Rule.offsetType targetType keyType)
  return .offset (Span.merge target.span stop) target key

/-- The steps behind an expression. -/
def stepsFrom (registry : Registry) (expr : Parser Expr) : Nat → Expr → Parser Expr
  | 0, _ => exhausted
  | fuel + 1, e => do
    match ← peek with
    | some (.punct .dot) => stepsFrom registry expr fuel (← member registry expr e)
    | some (.punct .leftBracket) => stepsFrom registry expr fuel (← offset expr e)
    | _ => return e

/-- The steps behind an expression, with fuel for every token to come. -/
def steps (registry : Registry) (expr : Parser Expr) (e : Expr) : Parser Expr := fun s =>
  stepsFrom registry expr (s.tokens.length + 1) e s

/-! ## Operators -/

/-- Operands: negations of operands, or a primary with its steps. -/
def operandFrom (registry : Registry) (expr : Parser Expr) : Nat → Parser Expr
  | 0 => exhausted
  | fuel + 1 => do
    if ← looksAt .minus then
      let start ← expect .minus
      let operand ← operandFrom registry expr fuel
      judge (Rule.negation (← typed operand))
      return .negative (Span.merge start operand.span) operand
    else steps registry expr (← primary registry expr)

/-- An operand, with fuel for every token to come. -/
def operand (registry : Registry) (expr : Parser Expr) : Parser Expr := fun s =>
  operandFrom registry expr (s.tokens.length + 1) s

/-- The binary operator a token spells. -/
def operator? : Option TokenKind → Option BinaryOp
  | some (.punct .tripleEquals) => some .eq
  | some (.punct .doublePipe) => some .or
  | some (.punct .greater) => some .gt
  | some (.punct .minus) => some .subtract
  | _ => none

/-- The static rule of a binary operator. -/
def operatorRule : BinaryOp → Typed → Typed → Except TypeError Unit
  | .eq => Rule.equality
  | .or => Rule.disjunction
  | .gt => Rule.arithmetic .greater
  | .subtract => Rule.arithmetic .minus

/-- Two operands joined by an operator. -/
def join (op : BinaryOp) (left right : Expr) : Parser Expr := do
  let leftType ← typed left
  let rightType ← typed right
  judge (operatorRule op leftType rightType)
  return .binary (Span.merge left.span right.span) op left right

/-- The operators behind an operand, the left ones first. -/
def operatorsFrom (next : Parser Expr) : Nat → Expr → Parser Expr
  | 0, _ => exhausted
  | fuel + 1, left => do
    match operator? (← peek) with
    | none => return left
    | some op =>
      let _ ← advance
      let right ← next
      operatorsFrom next fuel (← join op left right)

/-- The operators behind an operand, with fuel for every token to come. -/
def operators (next : Parser Expr) (left : Expr) : Parser Expr := fun s =>
  operatorsFrom next (s.tokens.length + 1) left s

/-! ## Expressions -/

/-- Is a declaration next? The word `declare` before a name is one. -/
def looksAtDeclaration : Parser Bool := fun s =>
  .done (match s.tokens with
    | ⟨.name "declare", _⟩ :: ⟨.name _, _⟩ :: _ => true
    | _ => false) s

/-- A declaration. -/
def declaration (registry : Registry) : Parser Unit := do
  let _ ← expectName
  let (name, span) ← expectName
  let _ ← expect .colon
  let t ← type registry
  let s ← state
  let declarations ← judge (s.declarations.declare name t span)
  fun s => .done () { s with declarations }

/-- One step of the grammar of expressions; `expr` reads the expressions inside. -/
def exprStep (registry : Registry) (expr : Parser Expr) : Parser Expr := do
  if ← looksAtDeclaration then
    declaration registry
    expr
  else
    let first ← operand registry expr
    operators (operand registry expr) first

/-- Expressions nested no deeper than the fuel. -/
def exprFrom (registry : Registry) : Nat → Parser Expr
  | 0 => exhausted
  | fuel + 1 => exprStep registry (exprFrom registry fuel)

/-- **An expression**, with fuel for every token to come. -/
def expr (registry : Registry) : Parser Expr := fun s =>
  exprFrom registry (s.tokens.length + 1) s

end Parser

end Ascription
