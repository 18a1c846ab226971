import Ascription.Source.LineMap
import Ascription.SyntaxError

/-!
# Token/Lexer — cutting a text into tokens

`scan` reads one token from the front of a text that does not start with a blank: the longest
prefix that is spelled like a token.  `lex` walks over the whole text, skipping blanks, and stops at
the first place where no token can be read.

A character is **blank**, **reserved** (it ends a name), a digit, or part of a name; names are made
of all characters that are not reserved and do not start with a digit.
-/

namespace Ascription

namespace Lexer

/-! ## Character classes -/

/-- The characters between tokens. -/
def isBlank (c : Char) : Bool :=
  c == ' ' || c == '\t' || c == '\r' || c == '\n' || c == '\x0c'

/-- The characters that end a name. -/
def isReserved (c : Char) : Bool :=
  isBlank c || c == '.' || c == '[' || c == ']' || c == '(' || c == ')' || c == '\x7b' ||
    c == '\x7d' || c == '<' || c == '>' || c == '\"' || c == '=' || c == '|' || c == ':' ||
    c == ',' || c == '-'

/-- The characters a name may start with. -/
def startsName (c : Char) : Bool := !isReserved c && !Numeral.isDigit c

/-- Does a number without its sign start here? -/
def startsNumeral : List Char → Bool
  | [] => false
  | c :: _ => Numeral.isDigit c

/-! ## One token -/

/-- What stands at the front of a text: a token with its spelling and the text behind it, or a fault
with the characters it is about. -/
inductive Scan
  | lexeme (text : List Char) (kind : TokenKind) (rest : List Char)
  | fault (fault : SyntaxFault) (text : List Char)

/-- The mark at the front of a text, the longer of two where one begins the other. -/
def mark? : List Char → Option Punct
  | '=' :: '=' :: '=' :: _ => some .tripleEquals
  | '|' :: '|' :: _ => some .doublePipe
  | '-' :: '>' :: _ => some .arrow
  | '|' :: _ => some .pipe
  | '-' :: _ => some .minus
  | '.' :: _ => some .dot
  | '<' :: _ => some .less
  | '>' :: _ => some .greater
  | '(' :: _ => some .leftParen
  | ')' :: _ => some .rightParen
  | '[' :: _ => some .leftBracket
  | ']' :: _ => some .rightBracket
  | '\x7b' :: _ => some .leftBrace
  | '\x7d' :: _ => some .rightBrace
  | ':' :: _ => some .colon
  | ',' :: _ => some .comma
  | _ => none

/-- A number, its sign already split off: digits, and a fraction where a point follows. -/
def scanNumber (negative : Bool) (cs : List Char) : Scan :=
  let sign := if negative then ['-'] else []
  let whole := cs.takeWhile Numeral.isDigit
  match cs.dropWhile Numeral.isDigit with
  | '.' :: rest =>
    let fraction := rest.takeWhile Numeral.isDigit
    .lexeme (sign ++ whole ++ '.' :: fraction) (.float (Numeral.decimal negative whole fraction))
      (rest.dropWhile Numeral.isDigit)
  | rest =>
    match Numeral.int64? negative (Numeral.natural whole) with
    | some n => .lexeme (sign ++ whole) (.int n) rest
    | none => .fault .integerOutOfRange (sign ++ whole)

/-- A string, its opening quote already read: everything up to the next quote. -/
def scanString (cs : List Char) : Scan :=
  let content := cs.takeWhile (· != '\"')
  match cs.dropWhile (· != '\"') with
  | _ :: rest => .lexeme ('\"' :: (content ++ ['\"'])) (.string (String.ofList content)) rest
  | [] => .fault .unterminatedString ('\"' :: cs)

/-- A name: everything up to the next reserved character. -/
def scanName (cs : List Char) : Scan :=
  let name := cs.takeWhile (! isReserved ·)
  .lexeme name (.name (String.ofList name)) (cs.dropWhile (! isReserved ·))

/-- **The token at the front of a text** that does not start with a blank. -/
def scan : List Char → Scan
  | [] => .fault .unexpectedEnd []
  | c :: cs =>
    if c = '\"' then scanString cs
    else if Numeral.isDigit c then scanNumber false (c :: cs)
    else if c = '-' && startsNumeral cs then scanNumber true cs
    else if startsName c then scanName (c :: cs)
    else match mark? (c :: cs) with
      | some p =>
        let length := p.text.toList.length
        .lexeme ((c :: cs).take length) (.punct p) ((c :: cs).drop length)
      | none => .fault (if c = '=' then .incompleteEquality else .unexpectedCharacter c) [c]

end Lexer

/-! ## A whole text -/

/-- A token together with its spelling. -/
structure Lexeme where
  text : List Char
  token : Token

/-- The tokens of a text up to its end, or up to the first failure. -/
structure Lexed where
  lexemes : List Lexeme
  failure : Option SyntaxError

namespace Lexed

/-- The tokens alone. -/
def tokens (l : Lexed) : List Token := l.lexemes.map Lexeme.token

/-- The lexemes of a text behind one that starts with `lexeme`. -/
def cons (lexeme : Lexeme) (l : Lexed) : Lexed := ⟨lexeme :: l.lexemes, l.failure⟩

end Lexed

namespace Lexer

/-- The lexemes of the text `cs` that starts at a byte offset, their spans being what the line map
makes of their offsets; each step takes at least one character, so as much fuel as there are
characters, and one more for the end, is enough. -/
def lexFrom (m : LineMap) : Nat → Nat → List Char → Lexed
  | 0, _, _ => ⟨[], none⟩
  | fuel + 1, offset, cs =>
    let start := offset + byteLength (cs.takeWhile isBlank)
    match cs.dropWhile isBlank with
    | [] => ⟨[], none⟩
    | c :: body =>
      match scan (c :: body) with
      | .lexeme text kind rest =>
        let stop := start + byteLength text
        Lexed.cons ⟨text, ⟨kind, m.span start stop⟩⟩ (lexFrom m fuel stop rest)
      | .fault fault text => ⟨[], some ⟨fault, m.span start (start + byteLength text)⟩⟩

end Lexer

/-- **The tokens of a text**, or those before the first place where there is none. -/
def lex (source : String) : Lexed :=
  Lexer.lexFrom (.ofSource source) (source.toList.length + 1) 0 source.toList

/-- All tokens of a text, if the whole text can be read. -/
def tokenize (source : String) : Except SyntaxError (List Token) :=
  match (lex source).failure with
  | some e => .error e
  | none => .ok (lex source).tokens

/-- The place just past a text. -/
def endOfInput (source : String) : Span :=
  Span.point ((LineMap.ofSource source).position source.utf8ByteSize)

end Ascription
