/-!
# Number/Binary64 — double-precision numbers in exact arithmetic

A `Binary64` is a sign and a **magnitude code**: the 63 bits below the sign bit, read as one natural
number.  Codes grow with the magnitudes they stand for, so `infinityCode` separates the finite
magnitudes (below) from the not-a-number codes (above), and comparing magnitudes is comparing codes.

Every operation that can be inexact ends in one rounding, `ofQuotient`: the double nearest to a
quotient of two naturals, a tie going to the even neighbour.  Nothing here uses the machine's own
floating point, so each result is a computation on integers.
-/

namespace Ascription

/-- **A double-precision number**, as its sign and magnitude code.  Every pair is a number. -/
structure Binary64 where
  negative : Bool
  code : Fin 9223372036854775808
  deriving DecidableEq, Inhabited

namespace Binary64

/-! ## Reading the code -/

/-- `2 ^ 52`: the code distance between the powers of two of two neighbouring binades. -/
def binade : Nat := 4503599627370496

/-- The code of infinity; the codes above it are not numbers. -/
def infinityCode : Nat := 2047 * binade

def isNaN (x : Binary64) : Bool := infinityCode < x.code.val

def isInfinite (x : Binary64) : Bool := x.code.val == infinityCode

def isFinite (x : Binary64) : Bool := x.code.val < infinityCode

def isZero (x : Binary64) : Bool := x.code.val == 0

/-- **The significand** `m` of a finite number `± m · 2 ^ q`. -/
def significand (x : Binary64) : Nat :=
  if x.code.val < binade then x.code.val else x.code.val % binade + binade

/-- **The exponent** `q` of a finite number `± m · 2 ^ q`; the smallest is that of the
subnormals. -/
def exponent (x : Binary64) : Int :=
  if x.code.val < binade then -1074 else (x.code.val / binade : Nat) - 1075

/-! ## Constants -/

def zero (negative : Bool) : Binary64 := ⟨negative, 0⟩

def infinity (negative : Bool) : Binary64 := ⟨negative, ⟨infinityCode, by decide⟩⟩

def nan (negative : Bool) : Binary64 := ⟨negative, ⟨infinityCode + binade / 2, by decide⟩⟩

/-! ## Rounding -/

/-- The integer nearest to `num / den`, a tie going to the even one. -/
def nearestEven (num den : Nat) : Nat :=
  if 2 * (num % den) < den then num / den
  else if den < 2 * (num % den) then num / den + 1
  else num / den + num / den % 2

/-- `num / (den · 2 ^ q)` as a pair of naturals. -/
def scaleDown (num den : Nat) (q : Int) : Nat × Nat :=
  if 0 ≤ q then (num, den * Nat.pow 2 q.toNat) else (num * Nat.pow 2 (-q).toNat, den)

/-- The exponent of the binade that holds `num / den`: there the quotient keeps 53 binary digits, or
fewer at the subnormal end. -/
def scaleOf (num den : Nat) : Int :=
  let q := max (-1074) ((Nat.log2 num : Int) - Nat.log2 den - 53)
  let (n, d) := scaleDown num den q
  if n / d < 2 * binade then q else q + 1

/-- The code of the number nearest to `num / den`.  The formula covers subnormal and normal numbers
and the carry into the next binade alike; what lies past the last binade is infinite. -/
def codeOf (num den : Nat) : Nat :=
  if num = 0 then 0
  else
    let q := scaleOf num den
    let (n, d) := scaleDown num den q
    min infinityCode ((q + 1074).toNat * binade + nearestEven n d)

theorem codeOf_le (num den : Nat) : codeOf num den ≤ infinityCode := by
  unfold codeOf
  split
  · exact Nat.zero_le _
  · exact Nat.min_le_left _ _

/-- **Rounding**: the number nearest to `± num / den`. -/
def ofQuotient (negative : Bool) (num den : Nat) : Binary64 :=
  ⟨negative, ⟨codeOf num den,
    Nat.lt_of_le_of_lt (codeOf_le num den) (by decide)⟩⟩

/-- The number nearest to `± m · 2 ^ q`. -/
def ofScaled (negative : Bool) (m : Nat) (q : Int) : Binary64 :=
  if 0 ≤ q then ofQuotient negative (m * Nat.pow 2 q.toNat) 1
  else ofQuotient negative m (Nat.pow 2 (-q).toNat)

/-- The number nearest to `± digits · 10 ^ exponent`.  Exponents far outside the range of doubles
are settled before any power is formed. -/
def ofDecimal (negative : Bool) (digits : Nat) (exponent : Int) : Binary64 :=
  if digits = 0 then zero negative
  else if 400 < exponent then infinity negative
  else if exponent + Nat.log2 digits < -400 then zero negative
  else if 0 ≤ exponent then ofQuotient negative (digits * Nat.pow 10 exponent.toNat) 1
  else ofQuotient negative digits (Nat.pow 10 (-exponent).toNat)

/-! ## Conversions -/

def ofNat (n : Nat) : Binary64 := ofQuotient false n 1

def ofInt (n : Int) : Binary64 := ofQuotient (n < 0) n.natAbs 1

/-! ## Order and equality

Not-a-number is unordered and differs from everything, itself included; the two zeros are equal. -/

/-- Equality of numbers. -/
def equal (x y : Binary64) : Bool :=
  !x.isNaN && !y.isNaN && x.code == y.code && (x.negative == y.negative || x.isZero)

/-- The order key of a number that is not a NaN: its code, negated below zero. -/
def key (x : Binary64) : Int := if x.negative then -(x.code.val : Int) else x.code.val

/-- Strict order of numbers. -/
def greater (x y : Binary64) : Bool := !x.isNaN && !y.isNaN && decide (y.key < x.key)

/-! ## Arithmetic -/

def neg (x : Binary64) : Binary64 := ⟨!x.negative, x.code⟩

/-- The value of a finite number as an integer multiple of `2 ^ q`, for `q` at most its exponent. -/
def multiple (x : Binary64) (q : Int) : Int :=
  let m : Int := (x.significand * Nat.pow 2 (x.exponent - q).toNat : Nat)
  if x.negative then -m else m

/-- Difference: exact, then rounded.  An exact zero is positive, unless `-0 - 0` is asked for. -/
def sub (x y : Binary64) : Binary64 :=
  if x.isNaN then x
  else if y.isNaN then y
  else if x.isInfinite then
    if y.isInfinite && x.negative == y.negative then nan true else x
  else if y.isInfinite then y.neg
  else
    let q := min x.exponent y.exponent
    let d := x.multiple q - y.multiple q
    if d = 0 then zero (x.negative && !y.negative && x.isZero) else ofScaled (d < 0) d.natAbs q

/-- Product of two finite numbers, rounded. -/
def mulFinite (x y : Binary64) : Binary64 :=
  ofScaled (x.negative != y.negative) (x.significand * y.significand) (x.exponent + y.exponent)

/-- Quotient of two finite numbers, the second not zero, rounded. -/
def divFinite (x y : Binary64) : Binary64 :=
  let negative := x.negative != y.negative
  let q := x.exponent - y.exponent
  if 0 ≤ q then ofQuotient negative (x.significand * Nat.pow 2 q.toNat) y.significand
  else ofQuotient negative x.significand (y.significand * Nat.pow 2 (-q).toNat)

end Binary64

end Ascription
