import Ascription.SyntaxError
import Ascription.TypeError

/-!
# ParseError — why a text is refused

A text is refused for its form or for its types.
-/

namespace Ascription

/-- The error of a refused text. -/
inductive ParseError
  | malformed (e : SyntaxError)
  | illTyped (e : TypeError)

namespace ParseError

def message : ParseError → String
  | malformed e => e.message
  | illTyped e => e.message

def span : ParseError → Span
  | malformed e => e.span
  | illTyped e => e.span

def hint : ParseError → Option String
  | malformed e => e.hint
  | illTyped e => e.hint

end ParseError

end Ascription
