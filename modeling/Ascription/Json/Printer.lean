import Ascription.Json

/-!
# Json/Printer — JSON documents as text

Two layouts: `compact` on one line without blanks, and `pretty` with one member or item a line,
indented by two blanks a level.  Both list the members of an object in the order they have.
-/

namespace Ascription

namespace Json

/-- The lower-case hexadecimal digits of a control character, four places. -/
def controlCode (c : Char) : List Char :=
  let digits := Nat.toDigits 16 c.toNat
  List.replicate (4 - digits.length) '0' ++ digits

/-- One character inside a JSON string. -/
def escape (c : Char) : List Char :=
  if c = '\"' then ['\\', '\"']
  else if c = '\\' then ['\\', '\\']
  else if c = '\x08' then ['\\', 'b']
  else if c = '\x0c' then ['\\', 'f']
  else if c = '\n' then ['\\', 'n']
  else if c = '\r' then ['\\', 'r']
  else if c = '\t' then ['\\', 't']
  else if c.toNat < 0x20 then '\\' :: 'u' :: controlCode c
  else [c]

/-- **A string as JSON text.** -/
def quote (s : String) : String :=
  String.ofList ('\"' :: (s.toList.flatMap escape ++ ['\"']))

mutual

/-- **A document on one line.** -/
def compact : Json → String
  | null => "null"
  | bool b => if b then "true" else "false"
  | number n => n.text
  | string s => quote s
  | array items => "[" ++ ",".intercalate (compactItems items) ++ "]"
  | object members => "\x7b" ++ ",".intercalate (compactMembers members) ++ "\x7d"

def compactItems : List Json → List String
  | [] => []
  | j :: js => compact j :: compactItems js

def compactMembers : List (String × Json) → List String
  | [] => []
  | (name, j) :: rest => (quote name ++ ":" ++ compact j) :: compactMembers rest

end

/-- A line break and the indentation of a level. -/
def newline (level : Nat) : String := String.ofList ('\n' :: List.replicate (2 * level) ' ')

/-- Lines between two brackets, one level deeper than the brackets. -/
def bracketed (level : Nat) (left right : String) (lines : List String) : String :=
  if lines.isEmpty then left ++ right
  else left ++ newline (level + 1) ++ ("," ++ newline (level + 1)).intercalate lines ++
    newline level ++ right

mutual

/-- A document with one member or item a line, at a level of indentation. -/
def prettyAt (level : Nat) : Json → String
  | array items => bracketed level "[" "]" (prettyItems (level + 1) items)
  | object members => bracketed level "\x7b" "\x7d" (prettyMembers (level + 1) members)
  | null => "null"
  | bool b => if b then "true" else "false"
  | number n => n.text
  | string s => quote s

def prettyItems (level : Nat) : List Json → List String
  | [] => []
  | j :: js => prettyAt level j :: prettyItems level js

def prettyMembers (level : Nat) : List (String × Json) → List String
  | [] => []
  | (name, j) :: rest => (quote name ++ ": " ++ prettyAt level j) :: prettyMembers level rest

end

/-- **A document with one member or item a line.** -/
def pretty (j : Json) : String := prettyAt 0 j

end Json

end Ascription
