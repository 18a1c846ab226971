import Ascription.Number.Shortest

/-!
# Number/Notation — writing and reading numbers

A number is written from its shortest decimal in one of three notations, which differ in four
decisions: which decimal is taken for a number halfway between two, which magnitudes are
written without an exponent, whether an integral number shows its `.0`, and whether a positive
exponent shows its sign.
-/

namespace Ascription

/-- The decisions of one notation for doubles. -/
structure Notation where
  /-- Which decimal is taken for a number halfway between two? -/
  halfway : Halfway
  /-- Is a number whose leading digit stands for `10 ^ e` written without an exponent? -/
  positional : Int → Bool
  /-- Does an integral number written without an exponent end in `.0`? -/
  pointZero : Bool
  /-- Does a positive exponent carry a plus sign? -/
  plusSign : Bool

namespace Notation

/-- The notation of runtime values and token listings: `1.0`, `1e16`, `1e-5`. -/
def value : Notation := ⟨.upper, fun e => decide (-4 ≤ e ∧ e < 16), true, false⟩

/-- The notation of literals: every digit, never an exponent. -/
def plain : Notation := ⟨.upper, fun _ => true, false, false⟩

/-- The notation of JSON documents: `1.0`, `1e+16`, `1e-6`. -/
def json : Notation := ⟨.even, fun e => decide (-5 ≤ e ∧ e < 16), true, true⟩

/-- The decimal digits of `n`. -/
def digits (n : Nat) : List Char := Nat.toDigits 10 n

/-- `digits · 10 ^ k` without an exponent. -/
def spread (pointZero : Bool) (ds : List Char) (k : Int) : List Char :=
  if 0 ≤ k then ds ++ List.replicate k.toNat '0' ++ (if pointZero then ['.', '0'] else [])
  else
    let whole := (ds.length : Int) + k
    if 0 < whole then ds.take whole.toNat ++ '.' :: ds.drop whole.toNat
    else '0' :: '.' :: (List.replicate (-whole).toNat '0' ++ ds)

/-- One digit, the others after a point, and the exponent `e` of the leading digit. -/
def scientific (plusSign : Bool) (ds : List Char) (e : Int) : List Char :=
  let fraction := ds.drop 1
  ds.take 1 ++ (if fraction.isEmpty then [] else '.' :: fraction) ++ 'e' ::
    (if e < 0 then '-' :: digits e.natAbs
      else if plusSign then '+' :: digits e.natAbs
      else digits e.natAbs)

/-- The magnitude of a finite number. -/
def magnitude (n : Notation) (x : Binary64) : List Char :=
  let d := x.shortest n.halfway
  let ds := digits d.digits
  let e := (ds.length : Int) + d.exponent - 1
  if n.positional e then spread n.pointZero ds d.exponent else scientific n.plusSign ds e

/-- **The text of a double.** -/
def text (n : Notation) (x : Binary64) : String :=
  if x.isNaN then "NaN"
  else
    let magnitude := if x.isInfinite then "inf" else String.ofList (n.magnitude x)
    if x.negative then "-" ++ magnitude else magnitude

end Notation

/-! ## Reading -/

namespace Numeral

def isDigit (c : Char) : Bool := '0' ≤ c && c ≤ '9'

def digitValue (c : Char) : Nat := c.toNat - '0'.toNat

/-- The natural number a run of digits denotes. -/
def natural (ds : List Char) : Nat := ds.foldl (fun n c => 10 * n + digitValue c) 0

/-- `± n` as a 64-bit integer, if it is one. -/
def int64? (negative : Bool) (n : Nat) : Option Int64 :=
  if negative then
    if n ≤ 9223372036854775808 then some (Int64.ofInt (-(n : Int))) else none
  else if n < 9223372036854775808 then some (Int64.ofNat n)
  else none

/-- A sign and what follows it. -/
def splitSign : List Char → Bool × List Char
  | '-' :: rest => (true, rest)
  | '+' :: rest => (false, rest)
  | rest => (false, rest)

/-- **An integer in text**: an optional sign and digits, within 64 bits. -/
def readInt64 (text : List Char) : Option Int64 :=
  let (negative, ds) := splitSign text
  if ds.isEmpty || !ds.all isDigit then none else int64? negative (natural ds)

/-- The double nearest to a numeral `whole.fraction`. -/
def decimal (negative : Bool) (whole fraction : List Char) : Binary64 :=
  Binary64.ofDecimal negative (natural (whole ++ fraction)) (-(fraction.length : Int))

/-- An exponent part: nothing, or `e` with an optional sign and at least one digit. -/
def readExponent : List Char → Option Int
  | [] => some 0
  | c :: rest =>
    let (negative, ds) := splitSign rest
    if !(c == 'e' || c == 'E') || ds.isEmpty || !ds.all isDigit then none
    else some (if negative then -(natural ds : Int) else natural ds)

/-- **A double in text**: an optional sign, then `inf`, `infinity` or `nan` in any case, or digits
with an optional point and exponent, at least one digit around the point. -/
def readBinary64 (text : String) : Option Binary64 :=
  let (negative, body) := splitSign text.toList
  let word := String.ofList (body.map Char.toLower)
  if word = "inf" || word = "infinity" then some (Binary64.infinity negative)
  else if word = "nan" then some (Binary64.nan negative)
  else
    let whole := body.takeWhile isDigit
    let rest := body.dropWhile isDigit
    let (fraction, rest) := match rest with
      | '.' :: rest => (rest.takeWhile isDigit, rest.dropWhile isDigit)
      | rest => ([], rest)
    if whole.isEmpty && fraction.isEmpty then none
    else (readExponent rest).map fun e =>
      Binary64.ofDecimal negative (natural (whole ++ fraction)) (e - fraction.length)

end Numeral

end Ascription
