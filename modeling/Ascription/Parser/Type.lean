import Ascription.Parser.Cursor
import Ascription.Registry

/-!
# Parser/Type — the grammar of types

    type := name [ '<' types '>' ]
          | 'fn' '(' types ')' '->' type
          | '{' fields '}'

The word `fn` starts a function type only right before a parenthesis.
-/

namespace Ascription

namespace Parser

/-- A field of a struct type. -/
def typeField (type : Parser TypeExpr) : Parser (String × TypeExpr × Span) := do
  let (name, span) ← expectName
  let _ ← expect .colon
  let t ← type
  return (name, t, Span.merge span t.span)

/-- A struct type. -/
def structType (type : Parser TypeExpr) : Parser TypeExpr := do
  let start ← expect .leftBrace
  let fields ← items (fun _ => typeField type) .rightBrace
  return .struct (Span.merge start (← previousSpan)) fields

/-- A function type behind its `fn`. -/
def funcType (type : Parser TypeExpr) (start : Span) : Parser TypeExpr := do
  let _ ← expect .leftParen
  let params ← items (fun _ => type) .rightParen
  let _ ← expect .arrow
  let result ← type
  return .func (Span.merge start result.span) params result

/-- The arguments behind a type name, if there are any. -/
def typeArgs (type : Parser TypeExpr) (name : String) (span : Span) : Parser TypeExpr := do
  if ← accept .less then
    let args ← items (fun _ => type) .greater
    if args.isEmpty then return .named span name []
    else return .named (Span.merge span (← previousSpan)) name args
  else return .named span name []

/-- One step of the grammar of types; `type` reads the types inside. -/
def typeStep (type : Parser TypeExpr) : Parser TypeExpr := do
  match ← peek with
  | some (.punct .leftBrace) => structType type
  | some (.name _) =>
    let (name, span) ← expectName
    if name == "fn" && (← looksAt .leftParen) then funcType type span
    else typeArgs type name span
  | _ => expected .type

/-- Types nested no deeper than the fuel. -/
def typeFrom : Nat → Parser TypeExpr
  | 0 => exhausted
  | fuel + 1 => typeStep (typeFrom fuel)

/-- **A written type**, with fuel for every token to come. -/
def typeExpr : Parser TypeExpr := fun s => typeFrom (s.tokens.length + 1) s

/-- **A type**: read, then looked up. -/
def type (registry : Registry) : Parser Ty := do
  let written ← typeExpr
  judge (registry.resolve written)

end Parser

end Ascription
