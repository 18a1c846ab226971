import Ascription.Token

/-!
# SyntaxError — what can be wrong with the form of a text

An error is its cause and its span; the wording is computed from the cause.
-/

namespace Ascription

/-- What the grammar asked for. -/
inductive Expectation
  | punct (p : Punct)
  | name
  | expression
  | type
  deriving DecidableEq

namespace Expectation

/-- The expectation as messages name it. -/
def title : Expectation → String
  | punct p => p.title
  | name => "name"
  | expression => "expression"
  | type => "type"

end Expectation

/-- The causes of syntax errors. -/
inductive SyntaxFault
  /-- A character that starts no token. -/
  | unexpectedCharacter (c : Char)
  /-- Nothing left where a token had to start. -/
  | unexpectedEnd
  /-- An opening quote without a closing one. -/
  | unterminatedString
  /-- An equals sign that does not begin `===`. -/
  | incompleteEquality
  /-- An integer outside the 64-bit range. -/
  | integerOutOfRange
  /-- The grammar asked for one thing and found another, or nothing at all. -/
  | expected (what : Expectation) (found : Option TokenKind)
  /-- A token behind a complete text. -/
  | trailing (found : TokenKind)
  /-- A name without annotation and without declaration. -/
  | undeclared (name : String)
  /-- A call that does not say what it returns. -/
  | untypedCall (name : String)
  deriving DecidableEq

namespace SyntaxFault

/-- What was found, as messages name it. -/
def foundTitle (found : Option TokenKind) : String :=
  (found.map TokenKind.title).getD "end of input"

/-- The wording of an unmet expectation; an opening bracket that is never closed is named. -/
def expectedMessage (what : Expectation) (found : Option TokenKind) : String :=
  match what, found with
  | .punct .rightParen, none => "Unclosed '(' - missing ')'"
  | .punct .rightBracket, none => "Unclosed '[' - missing ']'"
  | .punct .rightBrace, none => "Unclosed '\x7b' - missing '\x7d'"
  | .punct .pipe, none => "Unclosed lambda parameter list - missing '|'"
  | what, found => "Expected " ++ what.title ++ ", found " ++ foundTitle found

/-- **The message of an error.** -/
def message : SyntaxFault → String
  | unexpectedCharacter c => "Unexpected character '" ++ String.singleton c ++ "'"
  | unexpectedEnd => "Unexpected end of input"
  | unterminatedString => "Unterminated string"
  | incompleteEquality => "Expected '==' after '='"
  | integerOutOfRange => "Invalid number"
  | expected what found => expectedMessage what found
  | trailing found => "Unexpected token: " ++ found.title
  | undeclared name => "'" ++ name ++ "' is not declared"
  | untypedCall name => "Call to '" ++ name ++ "' needs a return type"

/-- Is the token a negative integer, the likely trace of a subtraction without a blank? -/
def isNegativeInt : TokenKind → Bool
  | .int n => n < 0
  | _ => false

/-- The advice for a subtraction that was read as a negative literal. -/
def subtractionHint : String := "write '- 5' with a space to subtract a literal"

/-- The advice that goes with an unmet expectation. -/
def expectedHint (what : Expectation) (found : Option TokenKind) : Option String :=
  match what, found with
  | .punct .rightParen, none => some "add ')' to close the parenthesis"
  | .punct .rightBracket, none => some "add ']' to close the bracket"
  | .punct .rightBrace, none => some "add '\x7d' to close the struct literal"
  | .punct .pipe, _ => some "lambda parameters are bare names: |a, b| body"
  | .punct .greater, _ => some "close the type argument list with '>'"
  | .punct .arrow, _ => some "function types are written fn(params) -> Return"
  | .punct .colon, _ => some "syntax: name: Type"
  | .expression, none => some "the expression is incomplete"
  | .expression, some (.punct .rightParen)
  | .expression, some (.punct .rightBracket)
  | .expression, some (.punct .rightBrace) => some "remove the extra closing delimiter"
  | .expression, some kind =>
    some (if isNegativeInt kind then subtractionHint
      else "try a literal, a variable like `name:Type`, or a lambda")
  | .name, some (.int _) | .name, some (.float _) => some "names can't start with a number"
  | .type, _ => some "try a type like 'int', 'list<string>', or 'fn(int) -> bool'"
  | _, _ => none

/-- **The advice of an error**, where there is any. -/
def hint : SyntaxFault → Option String
  | unexpectedCharacter _ | unexpectedEnd => none
  | unterminatedString => some "Add a closing '\"'"
  | incompleteEquality => some "equality is written '==='"
  | integerOutOfRange => some "integers must fit in 64 bits"
  | expected what found => expectedHint what found
  | trailing found =>
    some (if isNegativeInt found then subtractionHint else "only one expression is allowed")
  | undeclared name =>
    some ("annotate it as `" ++ name ++ ":Type` or declare it first")
  | untypedCall name => some ("write `." ++ name ++ ":ReturnType(...)`")

end SyntaxFault

/-- A syntax error: its cause and the text it is about. -/
structure SyntaxError where
  fault : SyntaxFault
  span : Span
  deriving DecidableEq

namespace SyntaxError

def message (e : SyntaxError) : String := e.fault.message

def hint (e : SyntaxError) : Option String := e.fault.hint

end SyntaxError

end Ascription
