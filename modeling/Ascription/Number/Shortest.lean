import Ascription.Number.Binary64

/-!
# Number/Shortest — the fewest digits that read back

The doubles cut the line into intervals: those reals that round to one double.  `shortest` picks,
among the decimals `d · 10 ^ k` inside the interval of a double, one on the coarsest grid `10 ^ k`,
and of two on that grid the nearer one.  A double may lie halfway between the two, as
`100000000000000.125` does between `.12` and `.13`; a `Halfway` decides there.
-/

namespace Ascription

/-- A decimal `digits · 10 ^ exponent`. -/
structure Decimal where
  digits : Nat
  exponent : Int
  deriving DecidableEq, Inhabited

/-- Which of two neighbours on a grid is taken for a number halfway between them. -/
inductive Halfway
  | upper
  | even
  deriving DecidableEq

/-- Is the lower neighbour `d` taken? -/
def Halfway.takesLower : Halfway → Nat → Bool
  | upper, _ => false
  | even, d => d % 2 == 0

namespace Binary64

/-- The rounding interval of a positive finite number in quarters of its last place: the value sits
at `4 · m`, and below a power of two the neighbour is only half as far. -/
structure Interval where
  low : Nat
  high : Nat
  closed : Bool

/-- The interval of the reals that round to `x`; its ends belong to it when `m` is even. -/
def interval (x : Binary64) : Interval :=
  let m := x.significand
  ⟨4 * m - (if m = binade ∧ -1074 < x.exponent then 1 else 2), 4 * m + 2, m % 2 == 0⟩

/-- Both `n` quarters of the last place and `d · 10 ^ k`, as naturals on one common scale. -/
def onScale (q : Int) (k : Int) (n d : Nat) : Nat × Nat :=
  let n := if 2 ≤ q then n * Nat.pow 2 (q - 2).toNat else n
  let d := if 2 ≤ q then d else d * Nat.pow 2 (2 - q).toNat
  if 0 ≤ k then (n, d * Nat.pow 10 k.toNat) else (n * Nat.pow 10 (-k).toNat, d)

/-- Does `d · 10 ^ k` round to `x`? -/
def admits (x : Binary64) (k : Int) (d : Nat) : Bool :=
  let i := x.interval
  let (low, a) := onScale x.exponent k i.low d
  let (high, _) := onScale x.exponent k i.high d
  if i.closed then low ≤ a && a ≤ high else low < a && a < high

/-- The point of the grid `10 ^ k` that rounds to `x` and is nearest to it, if there is one. -/
def onGrid (halfway : Halfway) (x : Binary64) (k : Int) : Option Decimal :=
  let (v, unit) := onScale x.exponent k (4 * x.significand) 1
  let d := v / unit
  let below := admits x k d
  let above := admits x k (d + 1)
  let lower := 2 * (v % unit) < unit || (2 * (v % unit) == unit && halfway.takesLower d)
  if below && (!above || lower) then some ⟨d, k⟩
  else if above then some ⟨d + 1, k⟩
  else none

/-- A power of ten above every finite number of the size of `x`: grids coarser than it have no
point to offer. -/
def coarsest (x : Binary64) : Int :=
  ((x.exponent + Nat.log2 x.significand + 1) * 30103) / 100000 + 2

/-- The exact value of a finite number, as a decimal. -/
def exactDecimal (x : Binary64) : Decimal :=
  if 0 ≤ x.exponent then ⟨x.significand * Nat.pow 2 x.exponent.toNat, 0⟩
  else ⟨x.significand * Nat.pow 5 (-x.exponent).toNat, x.exponent⟩

/-- **The shortest decimal** that reads back as the magnitude of the finite number `x`.  Seventeen
digits always suffice; the exact value stands behind the search so that none can be missed. -/
def shortest (halfway : Halfway) (x : Binary64) : Decimal :=
  if x.isZero then ⟨0, 0⟩
  else ((List.range 24).findSome? fun (i : Nat) =>
    x.onGrid halfway (x.coarsest - i)).getD x.exactDecimal

end Binary64

end Ascription
