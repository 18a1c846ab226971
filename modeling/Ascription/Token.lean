import Ascription.Number.Notation
import Ascription.Source.Span
import Ascription.Text.Quoted

/-!
# Token — the words of the expression language

A token is a number, a string, a name or one of sixteen punctuation marks, with its span.
-/

namespace Ascription

/-- The punctuation marks. -/
inductive Punct
  | tripleEquals
  | doublePipe
  | pipe
  | minus
  | arrow
  | dot
  | less
  | greater
  | leftParen
  | rightParen
  | leftBracket
  | rightBracket
  | leftBrace
  | rightBrace
  | colon
  | comma
  deriving DecidableEq

namespace Punct

/-- How a mark is spelled. -/
def text : Punct → String
  | tripleEquals => "==="
  | doublePipe => "||"
  | pipe => "|"
  | minus => "-"
  | arrow => "->"
  | dot => "."
  | less => "<"
  | greater => ">"
  | leftParen => "("
  | rightParen => ")"
  | leftBracket => "["
  | rightBracket => "]"
  | leftBrace => "\x7b"
  | rightBrace => "\x7d"
  | colon => ":"
  | comma => ","

/-- A mark as messages name it, between single quotes. -/
def title (p : Punct) : String := "\x27" ++ p.text ++ "\x27"

end Punct

/-- What a token is. -/
inductive TokenKind
  | int (n : Int64)
  | float (x : Binary64)
  | string (s : String)
  | name (s : String)
  | punct (p : Punct)
  deriving DecidableEq

namespace TokenKind

/-- A token as messages name it. -/
def title : TokenKind → String
  | int _ | float _ => "a number"
  | string _ => "a string"
  | name _ => "a name"
  | punct p => p.title

/-- A token as listings show it. -/
def listing : TokenKind → String
  | int n => "Int(" ++ toString n.toInt ++ ")"
  | float x => "Float(" ++ Notation.value.text x ++ ")"
  | string s => "String(" ++ quoted s ++ ")"
  | name s => "Ident(" ++ s ++ ")"
  | punct p => p.text

end TokenKind

/-- A token and where it stands. -/
structure Token where
  kind : TokenKind
  span : Span
  deriving DecidableEq

end Ascription
