/-!
# Number/Checked — 64-bit arithmetic that does not wrap

Results are computed on unbounded integers first; what does not fit 64 bits is missing or, for
`saturatingAdd`, stops at the nearest end of the range.
-/

namespace Ascription

namespace Checked

/-- An integer as a 64-bit integer, if it fits. -/
def ofInt? (n : Int) : Option Int64 :=
  if -9223372036854775808 ≤ n ∧ n ≤ 9223372036854775807 then some (Int64.ofInt n) else none

/-- The difference, if it fits. -/
def sub? (a b : Int64) : Option Int64 := ofInt? (a.toInt - b.toInt)

/-- The negation, if it fits. -/
def neg? (a : Int64) : Option Int64 := ofInt? (-a.toInt)

/-- The sum, or the end of the range it runs past. -/
def saturatingAdd (a b : Int64) : Int64 :=
  match ofInt? (a.toInt + b.toInt) with
  | some n => n
  | none => if a.toInt + b.toInt < 0 then Int64.minValue else Int64.maxValue

end Checked

end Ascription
