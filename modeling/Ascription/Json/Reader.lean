import Ascription.Json
import Ascription.Source.LineMap
import Ascription.Text.Quoted

/-!
# Json/Reader — JSON documents from text

The reader accepts the JSON grammar, with two limits: brackets nest less than 128 deep, and numbers
stay within the range of doubles.  It stops at the first fault and reports its place as a line and
the number of bytes read of that line.

A double is read in two roundings: its leading digits, as many as fit 64 bits, become a double, and
one multiplication or division by a power of ten gives the result.
-/

namespace Ascription

/-- What a document holds where a table of strings needed something else. -/
inductive JsonShape
  | null
  | bool (b : Bool)
  | number (n : JsonNumber)
  | string (s : String)
  | array
  | object

namespace JsonShape

/-- The shape as messages name it. -/
def title : JsonShape → String
  | null => "null"
  | bool b => "boolean `" ++ (if b then "true" else "false") ++ "`"
  | number (.float x _) => "floating point `" ++ Notation.json.text x ++ "`"
  | number n => "integer `" ++ n.text ++ "`"
  | string s => "string " ++ quoted s
  | array => "sequence"
  | object => "map"

end JsonShape

/-- The causes of a refused document. -/
inductive JsonFault
  | endInList
  | endInObject
  | endInString
  | endInValue
  | expectedColon
  | expectedListCommaOrEnd
  | expectedObjectCommaOrEnd
  | expectedIdent
  | expectedValue
  | invalidEscape
  | invalidNumber
  | numberOutOfRange
  | controlCharacter
  | keyMustBeString
  | loneSurrogate
  | trailingComma
  | trailingCharacters
  | endOfHexEscape
  | nestedTooDeep
  | wrongShape (found : JsonShape) (expected : String)

namespace JsonFault

def message : JsonFault → String
  | endInList => "EOF while parsing a list"
  | endInObject => "EOF while parsing an object"
  | endInString => "EOF while parsing a string"
  | endInValue => "EOF while parsing a value"
  | expectedColon => "expected `:`"
  | expectedListCommaOrEnd => "expected `,` or `]`"
  | expectedObjectCommaOrEnd => "expected `,` or `\x7d`"
  | expectedIdent => "expected ident"
  | expectedValue => "expected value"
  | invalidEscape => "invalid escape"
  | invalidNumber => "invalid number"
  | numberOutOfRange => "number out of range"
  | controlCharacter => "control character (\\u0000-\\u001F) found while parsing a string"
  | keyMustBeString => "key must be a string"
  | loneSurrogate => "lone leading surrogate in hex escape"
  | trailingComma => "trailing comma"
  | trailingCharacters => "trailing characters"
  | endOfHexEscape => "unexpected end of hex escape"
  | nestedTooDeep => "recursion limit exceeded"
  | wrongShape found expected => "invalid type: " ++ found.title ++ ", expected " ++ expected

end JsonFault

/-- A refused document: the cause and the byte offset of its place. -/
structure JsonError where
  fault : JsonFault
  offset : Nat

namespace JsonError

/-- The message of an error in `source`: the line of its place, and the bytes of that line before
it. -/
def message (e : JsonError) (source : String) : String :=
  let before := (LineMap.bytes source).take e.offset
  let line := before.count LineMap.lineBreak + 1
  let column := (before.reverse.takeWhile (· != LineMap.lineBreak)).length
  e.fault.message ++ " at line " ++ toString line ++ " column " ++ toString column

end JsonError

/-- The text to come and the bytes read so far. -/
structure JsonCursor where
  rest : List Char
  offset : Nat

/-- A reader of parts of documents. -/
abbrev JsonReader (α : Type) := StateT JsonCursor (Except JsonError) α

namespace JsonReader

variable {α : Type}

/-! ## Characters -/

/-- A fault at a byte offset. -/
def failAt (fault : JsonFault) (offset : Nat) : JsonReader α := throw ⟨fault, offset⟩

/-- A fault behind what has been read. -/
def fail (fault : JsonFault) : JsonReader α := do failAt fault (← get).offset

/-- A fault at the next byte, which counts as read. -/
def failNext (fault : JsonFault) : JsonReader α := do
  let s ← get
  failAt fault (if s.rest.isEmpty then s.offset else s.offset + 1)

/-- The next character. -/
def peek : JsonReader (Option Char) := do return (← get).rest.head?

/-- Passing the next character. -/
def skip : JsonReader Unit :=
  modify fun s => match s.rest with
    | [] => s
    | c :: rest => ⟨rest, s.offset + c.utf8Size⟩

/-- Taking the next character. -/
def next : JsonReader (Option Char) := do
  let c ← peek
  skip
  return c

/-- Taking the longest run of characters of a class. -/
def takeWhile (p : Char → Bool) : JsonReader (List Char) := do
  let run := (← get).rest.takeWhile p
  modify fun s => ⟨s.rest.dropWhile p, run.foldl (fun n c => n + c.utf8Size) s.offset⟩
  return run

/-- Passing blanks, up to the next character. -/
def blanks : JsonReader (Option Char) := do
  let _ ← takeWhile fun c => c == ' ' || c == '\n' || c == '\t' || c == '\r'
  peek

/-- The rest of a word whose first letter has been read. -/
def word : List Char → JsonReader Unit
  | [] => pure ()
  | c :: cs => do
    match ← peek with
    | none => fail .endInValue
    | some d =>
      if c = d then
        skip
        word cs
      else failNext .expectedIdent

/-! ## Numbers -/

/-- The largest significand that is kept whole. -/
def largestSignificand : Nat := 18446744073709551615

/-- Appending digits to a significand while it fits 64 bits; what remains of the digits. -/
def appendDigits (significand : Nat) : List Char → Nat × List Char
  | [] => (significand, [])
  | d :: ds =>
    let longer := significand * 10 + Numeral.digitValue d
    if largestSignificand < longer then (significand, d :: ds) else appendDigits longer ds

/-- Division by powers of ten, the largest one first; nothing is left of a number after a few. -/
def divideDown : Nat → Binary64 → Nat → Binary64
  | 0, x, _ => x
  | fuel + 1, x, exponent =>
    if x.isZero then x
    else if exponent ≤ 308 then x.divFinite (Binary64.ofDecimal false 1 exponent)
    else divideDown fuel (x.divFinite (Binary64.ofDecimal false 1 308)) (exponent - 308)

/-- The double `± significand · 10 ^ exponent`. -/
def double (negative : Bool) (significand : Nat) (exponent : Int) : JsonReader JsonNumber := do
  let x := Binary64.ofNat significand
  let magnitude :=
    if x.isZero then x
    else if exponent < 0 then divideDown (exponent.natAbs / 308 + 1) x exponent.natAbs
    else if exponent ≤ 308 then x.mulFinite (Binary64.ofDecimal false 1 exponent)
    else Binary64.infinity false
  match JsonNumber.ofBinary64? (if negative then magnitude.neg else magnitude) with
  | some n => return n
  | none => fail .numberOutOfRange

/-- The exponent of a number, behind its letter: whether it is positive, and its value.  A value
outside 32 bits settles the number at once: it is out of range, or zero. -/
def exponentPart (negative : Bool) (significand : Nat) (start : Int) : JsonReader JsonNumber := do
  skip
  let positive ← match ← peek with
    | some '+' => do skip; pure true
    | some '-' => do skip; pure false
    | _ => pure true
  match ← peek with
  | none => fail .endInValue
  | some c =>
    if !Numeral.isDigit c then failNext .invalidNumber
    else
      let before ← get
      let digits ← takeWhile Numeral.isDigit
      let read := (List.range digits.length).find? fun i =>
        2147483647 < Numeral.natural (digits.take (i + 1))
      match read with
      | some i =>
        if significand ≠ 0 && positive then failAt .numberOutOfRange (before.offset + i + 1)
        else double negative 0 0
      | none =>
        let e : Int := Numeral.natural digits
        double negative significand (if positive then start + e else start - e)

/-- The fraction of a number, behind its point. -/
def fractionPart (negative : Bool) (significand : Nat) (start : Int) : JsonReader JsonNumber := do
  skip
  let digits ← takeWhile Numeral.isDigit
  if digits.isEmpty then
    match ← peek with
    | some _ => failNext .invalidNumber
    | none => failNext .endInValue
  else
    let (significand, dropped) := appendDigits significand digits
    let exponent := start - ((digits.length - dropped.length : Nat) : Int)
    match ← peek with
    | some 'e' | some 'E' => exponentPart negative significand exponent
    | _ => double negative significand exponent

/-- An integer that fits, or the double nearest to it; zero with a sign is a double. -/
def integer (negative : Bool) (significand : Nat) : JsonReader JsonNumber :=
  if !negative then return .natural significand.toUInt64
  else
    let n := Int64.ofInt (-(significand : Int))
    if h : n < 0 ∧ significand ≤ 9223372036854775808 then return .negative n h.1
    else double true significand 0

/-- A number, behind its sign. -/
def number (negative : Bool) : JsonReader JsonNumber := do
  match ← peek with
  | none => fail .endInValue
  | some c =>
    if !Numeral.isDigit c then failNext .invalidNumber
    else
      let digits ← if c = '0' then do skip; pure ['0'] else takeWhile Numeral.isDigit
      let (significand, dropped) := appendDigits 0 digits
      match ← peek with
      | some '.' => fractionPart negative significand dropped.length
      | some 'e' | some 'E' => exponentPart negative significand dropped.length
      | some d =>
        if c = '0' && Numeral.isDigit d then failNext .invalidNumber
        else if dropped.isEmpty then integer negative significand
        else double negative significand dropped.length
      | none =>
        if dropped.isEmpty then integer negative significand
        else double negative significand dropped.length

/-! ## Strings -/

/-- The value of a hexadecimal digit. -/
def hexValue? (c : Char) : Option Nat :=
  if '0' ≤ c && c ≤ '9' then some (c.toNat - '0'.toNat)
  else if 'a' ≤ c && c ≤ 'f' then some (c.toNat - 'a'.toNat + 10)
  else if 'A' ≤ c && c ≤ 'F' then some (c.toNat - 'A'.toNat + 10)
  else none

/-- Four hexadecimal digits. -/
def hexEscape : JsonReader Nat := do
  let s ← get
  let size := (s.rest.take 4).foldl (fun n c => n + c.utf8Size) 0
  match (s.rest.take 4).mapM hexValue? with
  | some [a, b, c, d] =>
    set (⟨s.rest.drop 4, s.offset + 4⟩ : JsonCursor)
    return ((a * 16 + b) * 16 + c) * 16 + d
  | _ =>
    if size < 4 then failAt .endInString (s.offset + size) else failAt .invalidEscape (s.offset + 4)

/-- Passing the character `c` inside an escape for the second half of a pair. -/
def escapePart (c : Char) : JsonReader Unit := do
  match ← peek with
  | none => fail .endInString
  | some d => if c = d then skip else failNext .endOfHexEscape

/-- A character given by number, as one escape or as a pair of surrogates. -/
def unicodeEscape : JsonReader Char := do
  let n ← hexEscape
  if 0xDC00 ≤ n && n ≤ 0xDFFF then fail .loneSurrogate
  else if n < 0xD800 || 0xDBFF < n then return Char.ofNat n
  else
    escapePart '\\'
    escapePart 'u'
    let m ← hexEscape
    if m < 0xDC00 || 0xDFFF < m then fail .loneSurrogate
    else return Char.ofNat ((n - 0xD800) * 0x400 + (m - 0xDC00) + 0x10000)

/-- A character behind a backslash. -/
def escaped : JsonReader Char := do
  match ← peek with
  | none => fail .endInString
  | some c =>
    match c with
    | '\"' | '\\' | '/' => do skip; return c
    | 'b' => do skip; return '\x08'
    | 'f' => do skip; return '\x0c'
    | 'n' => do skip; return '\n'
    | 'r' => do skip; return '\r'
    | 't' => do skip; return '\t'
    | 'u' => do skip; unicodeEscape
    | _ => failNext .invalidEscape

/-- The characters of a string up to its closing quote. -/
def stringFrom : Nat → List Char → JsonReader String
  | 0, _ => fail .endInString
  | fuel + 1, done => do
    match ← peek with
    | none => fail .endInString
    | some c =>
      if c = '\"' then
        skip
        return String.ofList done.reverse
      else if c = '\\' then
        skip
        stringFrom fuel ((← escaped) :: done)
      else if c.toNat < 0x20 then failNext .controlCharacter
      else
        skip
        stringFrom fuel (c :: done)

/-- **A string**, at its opening quote. -/
def string : JsonReader String := do
  skip
  stringFrom ((← get).rest.length + 1) []

/-! ## Lists and objects -/

/-- The items of a list behind its bracket or an earlier item. -/
def itemsFrom (value : JsonReader Json) : Nat → Bool → List Json → JsonReader (List Json)
  | 0, _, _ => fail .endInList
  | fuel + 1, first, done => do
    match ← blanks with
    | none => failNext .endInList
    | some c =>
      if c = ']' then
        skip
        return done.reverse
      else if first then
        let v ← value
        itemsFrom value fuel false (v :: done)
      else if c = ',' then
        skip
        match ← blanks with
        | none => failNext .endInValue
        | some d =>
          if d = ']' then failNext .trailingComma
          else
            let v ← value
            itemsFrom value fuel false (v :: done)
      else failNext .expectedListCommaOrEnd

/-- A member: its name, a colon and its value. -/
def member {β : Type} (value : JsonReader β) : JsonReader (String × β) := do
  let name ← string
  match ← blanks with
  | none => failNext .endInObject
  | some c =>
    if c = ':' then
      skip
      return (name, ← value)
    else failNext .expectedColon

/-- The members of an object behind its bracket or an earlier member. -/
def membersFrom {β : Type} (value : JsonReader β) :
    Nat → Bool → List (String × β) → JsonReader (List (String × β))
  | 0, _, _ => fail .endInObject
  | fuel + 1, first, done => do
    match ← blanks with
    | none => failNext .endInObject
    | some c =>
      if c = '\x7d' then
        skip
        return done.reverse
      else if first then
        if c = '\"' then
          let m ← member value
          membersFrom value fuel false (m :: done)
        else failNext .keyMustBeString
      else if c = ',' then
        skip
        match ← blanks with
        | none => failNext .endInValue
        | some d =>
          if d = '\"' then
            let m ← member value
            membersFrom value fuel false (m :: done)
          else if d = '\x7d' then failNext .trailingComma
          else failNext .keyMustBeString
      else failNext .expectedObjectCommaOrEnd

/-! ## Documents -/

/-- One step of the grammar; `inner` reads the values inside brackets, unless they
would be nested too deep. -/
def step (inner : Option (JsonReader Json)) : JsonReader Json := do
  match ← blanks with
  | none => failNext .endInValue
  | some c =>
    if c = 'n' then do skip; word ['u', 'l', 'l']; return .null
    else if c = 't' then do skip; word ['r', 'u', 'e']; return .bool true
    else if c = 'f' then do skip; word ['a', 'l', 's', 'e']; return .bool false
    else if c = '-' then do skip; return .number (← number true)
    else if Numeral.isDigit c then return .number (← number false)
    else if c = '\"' then return .string (← string)
    else if c = '[' || c = '\x7b' then
      match inner with
      | none => failNext .nestedTooDeep
      | some inner =>
        skip
        let fuel := (← get).rest.length + 1
        if c = '[' then return .array (← itemsFrom inner fuel true [])
        else return .sorted (← membersFrom inner fuel true [])
    else failNext .expectedValue

/-- A value whose brackets nest no deeper than `depth`. -/
def valueAt : Nat → JsonReader Json
  | 0 => step none
  | depth + 1 => step (some (valueAt depth))

/-- Running a reader over a whole text. -/
def run (r : JsonReader α) (source : String) : Except JsonError α := do
  let (a, s) ← StateT.run r ⟨source.toList, 0⟩
  let (c, s) ← StateT.run blanks s
  match c with
  | none => return a
  | some _ => throw ⟨.trailingCharacters, s.offset + 1⟩

/-! ## Tables of strings -/

/-- What stands in place of something else; scalars are read to the end. -/
def shape : JsonReader JsonShape := do
  match ← peek with
  | none => failNext .expectedValue
  | some c =>
    if c = 'n' then do skip; word ['u', 'l', 'l']; return .null
    else if c = 't' then do skip; word ['r', 'u', 'e']; return .bool true
    else if c = 'f' then do skip; word ['a', 'l', 's', 'e']; return .bool false
    else if c = '-' then do skip; return .number (← number true)
    else if Numeral.isDigit c then return .number (← number false)
    else if c = '\"' then return .string (← string)
    else if c = '[' then return .array
    else if c = '\x7b' then return .object
    else failNext .expectedValue

/-- A string, and nothing else. -/
def stringOnly : JsonReader String := do
  match ← blanks with
  | none => failNext .endInValue
  | some c =>
    if c = '\"' then string
    else
      let found ← shape
      fail (.wrongShape found "a string")

/-- An object whose members are strings. -/
def table : JsonReader (List (String × String)) := do
  match ← blanks with
  | none => failNext .endInValue
  | some c =>
    if c = '\x7b' then
      skip
      return Entries.ofList (← membersFrom stringOnly ((← get).rest.length + 1) true [])
    else
      let found ← shape
      fail (.wrongShape found "a map")

end JsonReader

/-- **Reading a document.** -/
def Json.read (source : String) : Except JsonError Json :=
  (JsonReader.valueAt 127).run source

/-- **Reading an object of strings**, its members in the order of the text. -/
def Json.readTable (source : String) : Except JsonError (List (String × String)) :=
  JsonReader.table.run source

end Ascription
