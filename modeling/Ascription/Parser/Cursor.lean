import Ascription.Declarations
import Ascription.ParseError

/-!
# Parser/Cursor — reading tokens one at a time

A `Parser` takes the tokens still to come and the variables declared so far.  It looks one token
ahead, so the failure that ends a token list is reported as soon as the last token before it is
taken.

The grammar recurses under a fuel argument; a reply tells **exhausted** fuel apart from an error.
-/

namespace Ascription

/-- What is left of a text, and what is known of it. -/
structure ParserState where
  /-- The tokens to come. -/
  tokens : List Token
  /-- Why the tokens end, if not with the text. -/
  failure : Option SyntaxError
  /-- The span of the token taken last. -/
  previous : Span
  /-- The variables declared so far. -/
  declarations : Declarations

/-- The outcome of a parser. -/
inductive Reply (α : Type)
  | done (value : α) (rest : ParserState)
  | failed (e : ParseError)
  | exhausted

/-- **A parser** of values of type `α`. -/
def Parser (α : Type) : Type := ParserState → Reply α

namespace Parser

variable {α β : Type}

instance : Monad Parser where
  pure a := fun s => .done a s
  bind p f := fun s =>
    match p s with
    | .done a rest => f a rest
    | .failed e => .failed e
    | .exhausted => .exhausted

/-- The parser that has run out of fuel. -/
def exhausted : Parser α := fun _ => .exhausted

/-- Refusing a text. -/
def fail (e : ParseError) : Parser α := fun _ => .failed e

/-- Refusing a text for its form. -/
def failForm (fault : SyntaxFault) (span : Span) : Parser α := fail (.malformed ⟨fault, span⟩)

/-- The verdict of a static rule. -/
def judge : Except TypeError α → Parser α
  | .ok a => pure a
  | .error e => fail (.illTyped e)

/-- The state itself. -/
def state : Parser ParserState := fun s => .done s s

/-! ## The next token -/

/-- What the next token is. -/
def peek : Parser (Option TokenKind) := fun s => .done (s.tokens.head?.map Token.kind) s

/-- Is the next token the mark `p`? -/
def looksAt (p : Punct) : Parser Bool := do
  return (← peek) == some (.punct p)

/-- The span of the token taken last. -/
def previousSpan : Parser Span := fun s => .done s.previous s

/-- The span of the next token; behind the last token it is the empty span at its end. -/
def here : Parser Span := fun s =>
  .done ((s.tokens.head?.map Token.span).getD (Span.point s.previous.stop)) s

/-- **Taking a token.** -/
def advance : Parser Token := fun s =>
  match s.tokens with
  | [] => .failed (.malformed ⟨.unexpectedEnd, Span.point s.previous.stop⟩)
  | t :: rest =>
    match rest, s.failure with
    | [], some e => .failed (.malformed e)
    | rest, _ => .done t { s with tokens := rest, previous := t.span }

/-- Refusing the next token where the grammar asks for something else. -/
def expected (what : Expectation) : Parser α := do
  let found ← peek
  failForm (.expected what found) (← here)

/-- Taking the mark `p` if it is next. -/
def accept (p : Punct) : Parser Bool := do
  if ← looksAt p then
    let _ ← advance
    return true
  else return false

/-- Taking the mark `p`, which has to be next. -/
def expect (p : Punct) : Parser Span := do
  if ← looksAt p then return (← advance).span else expected (.punct p)

/-- Taking a name, which has to be next. -/
def expectName : Parser (String × Span) := do
  match ← peek with
  | some (.name name) => return (name, (← advance).span)
  | _ => expected .name

/-! ## Lists

A list runs up to its closing mark, its items separated by commas; the last may be followed by
one. -/

/-- The rest of a list whose first items are `items`; an item may look at those before it. -/
def itemsFrom (item : List α → Parser α) (close : Punct) : Nat → List α → Parser (List α)
  | 0, _ => exhausted
  | fuel + 1, items => do
    if ← looksAt close then
      let _ ← expect close
      return items
    else
      let x ← item items
      if ← accept .comma then itemsFrom item close fuel (items ++ [x])
      else
        let _ ← expect close
        return items ++ [x]

/-- **A list** behind its opening mark, with fuel for every token to come. -/
def items (item : List α → Parser α) (close : Punct) : Parser (List α) := fun s =>
  itemsFrom item close (s.tokens.length + 1) [] s

end Parser

end Ascription
