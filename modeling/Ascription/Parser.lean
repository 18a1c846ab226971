import Ascription.Parser.Expr
import Ascription.Token.Lexer

/-!
# Parser — reading whole texts

`parseWith` reads one expression, given the variables a host has declared; `parse` starts without
any.  `parseTyped` also asks for a static type, and `parseType` reads a type on its own.
-/

namespace Ascription

namespace Parser

/-- Refusing what is left behind a complete text. -/
def finish : Parser Unit := do
  match ← peek with
  | none => return ()
  | some found => failForm (.trailing found) (← here)

/-- The state before a text. -/
def begin (lexed : Lexed) (declarations : Declarations) : ParserState :=
  ⟨lexed.tokens, lexed.failure, Span.point Position.first, declarations⟩

/-- **Reading a whole text.** A text without any token fails at once with the failure of the lexer.
The fuel covers every token, so the last reply does not arise. -/
def readAll {α : Type} (p : Parser α) (source : String) (declarations : Declarations) :
    Except ParseError (α × Declarations) :=
  let start := begin (lex source) declarations
  match start.tokens, start.failure with
  | [], some e => .error (.malformed e)
  | _, _ =>
    match (do let a ← p; finish; return a : Parser α) start with
    | .done a rest => .ok (a, rest.declarations)
    | .failed e => .error e
    | .exhausted => .error (.malformed ⟨.unexpectedEnd, endOfInput source⟩)

end Parser

/-- **Reading an expression** and the declarations made on the way. -/
def parseProgram (source : String) (registry : Registry) (declarations : Declarations) :
    Except ParseError (Expr × Declarations) :=
  Parser.readAll (Parser.expr registry) source declarations

/-- Reading an expression over given declarations. -/
def parseWith (source : String) (registry : Registry) (declarations : Declarations) :
    Except ParseError Expr :=
  (parseProgram source registry declarations).map Prod.fst

/-- Reading an expression. -/
def parse (source : String) (registry : Registry) : Except ParseError Expr :=
  parseWith source registry []

/-- Reading an expression whose static type has to equal the expected one. -/
def parseTyped (source : String) (expected : Ty) (registry : Registry) :
    Except ParseError Expr := do
  let e ← parse source registry
  match Parser.staticType e with
  | .error err => .error (.illTyped err)
  | .ok found =>
    match Rule.expectEqual expected ⟨found, e.span⟩ with
    | .error err => .error (.illTyped err)
    | .ok () => .ok e

/-- **Reading a type.** -/
def parseType (source : String) (registry : Registry) : Except ParseError Ty :=
  (Parser.readAll (Parser.type registry) source []).map Prod.fst

end Ascription
