import Ascription.Parser.Expr

/-!
# Proofs/Parser/Traced — the grammar with a record of its calls

    reply    what the parser replies
    record   for each call, the tokens that were to come when it began

What a parser replies does not tell how often it was called.  Here the grammar is written once more
for parsers that keep a record: each call leaves an entry in it, each round of a loop, and each look
at the tokens or at the static rules.
-/

namespace Ascription

namespace Parser

/-- **A parser with a record** of the calls in its run, also in one that fails: of each call the
tokens to come when it began. -/
def Traced (α : Type) : Type := ParserState → Reply α × List (List Token)

namespace Traced

variable {α β : Type}

instance : Monad Traced where
  pure a := fun s => (.done a s, [])
  bind p f := fun s =>
    match p s with
    | (.done a s', t) => ((f a s').1, t ++ (f a s').2)
    | (.failed e, t) => (.failed e, t)
    | (.exhausted, t) => (.exhausted, t)

/-- What looks at the tokens or at the static rules, and takes one token at most, is one entry. -/
instance : MonadLift Parser Traced where
  monadLift p := fun s => (p s, [s.tokens])

/-- **A call**, or a round of a loop. -/
def call (p : Traced α) : Traced α := fun s => ((p s).1, s.tokens :: (p s).2)

/-! ## Lists -/

def itemsFrom (item : List α → Traced α) (close : Punct) : Nat → List α → Traced (List α)
  | 0, _ => exhausted
  | fuel + 1, items => call do
    if ← looksAt close then
      let _ ← expect close
      return items
    else
      let x ← item items
      if ← accept .comma then itemsFrom item close fuel (items ++ [x])
      else
        let _ ← expect close
        return items ++ [x]

def items (item : List α → Traced α) (close : Punct) : Traced (List α) := call fun s =>
  itemsFrom item close (s.tokens.length + 1) [] s

/-! ## Types -/

def typeField (type : Traced TypeExpr) : Traced (String × TypeExpr × Span) := call do
  let (name, span) ← expectName
  let _ ← expect .colon
  let t ← type
  return (name, t, Span.merge span t.span)

def structType (type : Traced TypeExpr) : Traced TypeExpr := call do
  let start ← expect .leftBrace
  let fields ← items (fun _ => typeField type) .rightBrace
  return .struct (Span.merge start (← previousSpan)) fields

def funcType (type : Traced TypeExpr) (start : Span) : Traced TypeExpr := call do
  let _ ← expect .leftParen
  let params ← items (fun _ => type) .rightParen
  let _ ← expect .arrow
  let result ← type
  return .func (Span.merge start result.span) params result

def typeArgs (type : Traced TypeExpr) (name : String) (span : Span) : Traced TypeExpr := call do
  if ← accept .less then
    let args ← items (fun _ => type) .greater
    if args.isEmpty then return .named span name []
    else return .named (Span.merge span (← previousSpan)) name args
  else return .named span name []

def typeStep (type : Traced TypeExpr) : Traced TypeExpr := call do
  match ← peek with
  | some (.punct .leftBrace) => structType type
  | some (.name _) =>
    let (name, span) ← expectName
    if name == "fn" && (← looksAt .leftParen) then funcType type span
    else typeArgs type name span
  | _ => expected .type

def typeFrom : Nat → Traced TypeExpr
  | 0 => exhausted
  | fuel + 1 => typeStep (typeFrom fuel)

def typeExpr : Traced TypeExpr := fun s => typeFrom (s.tokens.length + 1) s

def type (registry : Registry) : Traced Ty := call do
  let written ← typeExpr
  judge (registry.resolve written)

/-! ## Primaries -/

def reference (registry : Registry) (name : String) (span : Span) : Traced Expr := call do
  if ← accept .colon then
    let annotated ← type registry
    let span := Span.merge span (← previousSpan)
    let s ← state
    let t ← judge (s.declarations.checkAnnotated name annotated span)
    return .get span name t
  else
    let s ← state
    match s.declarations.find? name with
    | some d => return .get span name d.type
    | none => failForm (.undeclared name) span

def literal (value : Literal) : Traced Expr := call do
  let t ← advance
  return .literal t.span value

def lambda (expr : Traced Expr) (start : Span) (params : List String) : Traced Expr := call do
  let body ← expr
  return .lambda (Span.merge start body.span) params body

def checkElements : List Expr → Traced Unit
  | [] => pure ()
  | first :: others => do
    let t ← judge (staticType first)
    others.forM fun e => liftM (do judge (Rule.listElement t (← typed e)) : Parser Unit)

def listLiteral (expr : Traced Expr) : Traced Expr := call do
  let start ← expect .leftBracket
  let elements ← items (fun _ => expr) .rightBracket
  checkElements elements
  return .list (Span.merge start (← previousSpan)) elements

def fieldLiteral (expr : Traced Expr) (before : List (String × Expr)) :
    Traced (String × Expr) := call do
  let (name, span) ← expectName
  if Entries.contains before name then fail (.illTyped (.duplicateField name span))
  else
    let _ ← expect .colon
    let value ← expr
    let _ ← typed value
    return (name, value)

def structLiteral (expr : Traced Expr) : Traced Expr := call do
  let start ← expect .leftBrace
  let fields ← items (fieldLiteral expr) .rightBrace
  return .struct (Span.merge start (← previousSpan)) fields

def primary (registry : Registry) (expr : Traced Expr) : Traced Expr := call do
  match ← peek with
  | some (.int n) => literal (.int n)
  | some (.float x) => literal (.float x)
  | some (.string s) => literal (.string s)
  | some (.name _) =>
    let (name, span) ← expectName
    reference registry name span
  | some (.punct .pipe) =>
    let start ← expect .pipe
    let params ← items (fun _ => expectName) .pipe
    lambda expr start (params.map Prod.fst)
  | some (.punct .doublePipe) =>
    let start ← expect .doublePipe
    lambda expr start []
  | some (.punct .leftParen) =>
    let _ ← expect .leftParen
    let inner ← expr
    let _ ← expect .rightParen
    return inner
  | some (.punct .leftBracket) => listLiteral expr
  | some (.punct .leftBrace) => structLiteral expr
  | _ => expected .expression

/-! ## Steps behind a primary -/

/-- What follows a member's name and its annotation: the arguments of a call, or nothing. -/
def access (expr : Traced Expr) (target : Expr) (name : String) (nameSpan : Span)
    (annotated : Option Ty) : Traced Expr := do
  match annotated, ← looksAt .leftParen with
  | some result, true =>
    let _ ← expect .leftParen
    let args ← items (fun _ => expr) .rightParen
    return .call (Span.merge target.span (← previousSpan)) target name result args
  | annotated, _ =>
    let targetType ← judge (staticType target)
    let t ← judge (Rule.fieldType targetType name annotated nameSpan)
    return .field (Span.merge target.span (← previousSpan)) target name t

def member (registry : Registry) (expr : Traced Expr) (target : Expr) : Traced Expr := call do
  let _ ← expect .dot
  let (name, nameSpan) ← expectName
  if ← looksAt .leftParen then failForm (.untypedCall name) (← here)
  else
    let annotated ← if ← accept .colon then some <$> type registry else pure none
    access expr target name nameSpan annotated

def offset (expr : Traced Expr) (target : Expr) : Traced Expr := call do
  let _ ← expect .leftBracket
  let key ← expr
  let stop ← expect .rightBracket
  let targetType ← typed target
  let keyType ← typed key
  let _ ← judge (Rule.offsetType targetType keyType)
  return .offset (Span.merge target.span stop) target key

def stepsFrom (registry : Registry) (expr : Traced Expr) : Nat → Expr → Traced Expr
  | 0, _ => exhausted
  | fuel + 1, e => call do
    match ← peek with
    | some (.punct .dot) => stepsFrom registry expr fuel (← member registry expr e)
    | some (.punct .leftBracket) => stepsFrom registry expr fuel (← offset expr e)
    | _ => return e

def steps (registry : Registry) (expr : Traced Expr) (e : Expr) : Traced Expr := call fun s =>
  stepsFrom registry expr (s.tokens.length + 1) e s

/-! ## Operators -/

def operandFrom (registry : Registry) (expr : Traced Expr) : Nat → Traced Expr
  | 0 => exhausted
  | fuel + 1 => call do
    if ← looksAt .minus then
      let start ← expect .minus
      let operand ← operandFrom registry expr fuel
      judge (Rule.negation (← typed operand))
      return .negative (Span.merge start operand.span) operand
    else steps registry expr (← primary registry expr)

def operand (registry : Registry) (expr : Traced Expr) : Traced Expr := call fun s =>
  operandFrom registry expr (s.tokens.length + 1) s

def operatorsFrom (next : Traced Expr) : Nat → Expr → Traced Expr
  | 0, _ => exhausted
  | fuel + 1, left => call do
    match operator? (← peek) with
    | none => return left
    | some op =>
      let _ ← advance
      let right ← next
      operatorsFrom next fuel (← join op left right)

def operators (next : Traced Expr) (left : Expr) : Traced Expr := call fun s =>
  operatorsFrom next (s.tokens.length + 1) left s

/-! ## Expressions -/

/-- Going on with other declarations. -/
def goOnWith (declarations : Declarations) : Parser Unit :=
  fun s => .done () { s with declarations }

def declaration (registry : Registry) : Traced Unit := call do
  let _ ← expectName
  let (name, span) ← expectName
  let _ ← expect .colon
  let t ← type registry
  let s ← state
  let declarations ← judge (s.declarations.declare name t span)
  goOnWith declarations

def exprStep (registry : Registry) (expr : Traced Expr) : Traced Expr := call do
  if ← looksAtDeclaration then
    declaration registry
    expr
  else
    let first ← operand registry expr
    operators (operand registry expr) first

def exprFrom (registry : Registry) : Nat → Traced Expr
  | 0 => exhausted
  | fuel + 1 => exprStep registry (exprFrom registry fuel)

/-- **An expression**, with a record of how it was read. -/
def expr (registry : Registry) : Traced Expr := fun s =>
  exprFrom registry (s.tokens.length + 1) s

end Traced

end Parser

end Ascription
