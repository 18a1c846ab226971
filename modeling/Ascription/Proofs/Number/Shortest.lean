import Ascription.Proofs.Number.Rounding

/-!
# Proofs/Number/Shortest — the shortest decimal rounds to its number

The search compares on natural scales; dividing the scale out, it asks whether a point of a decimal
grid is among the reals that round to the number.
-/

namespace Ascription

/-- What a decimal denotes. -/
def Decimal.value (d : Decimal) : ℚ := d.digits * 10 ^ d.exponent

namespace Binary64

variable {x : Binary64}

theorem pow_toNat {p : Int} {a : ℚ} (h : 0 ≤ p) : a ^ p.toNat = a ^ p := by
  rw [← zpow_natCast, Int.toNat_of_nonneg h]

/-- Both sides are put on one scale. -/
theorem onScale_spec (q k : Int) : ∃ c : ℚ, 0 < c ∧ ∀ n d : Nat,
    ((onScale q k n d).1 : ℚ) = n * 2 ^ (q - 2) * c ∧
      ((onScale q k n d).2 : ℚ) = d * 10 ^ k * c := by
  have htwo : (2 : ℚ) ^ (q - 2) * 2 ^ (2 - q) = 1 := by
    rw [← zpow_add₀ two_ne_zero, show q - 2 + (2 - q) = 0 by ring, zpow_zero]
  have hten : (10 : ℚ) ^ k * 10 ^ (-k) = 1 := by
    rw [← zpow_add₀ (by norm_num), add_neg_cancel, zpow_zero]
  refine ⟨(if 2 ≤ q then 1 else 2 ^ (2 - q)) * (if 0 ≤ k then 1 else 10 ^ (-k)), ?_, fun n d => ?_⟩
  · split_ifs <;> positivity
  · simp only [onScale, Nat.pow_eq]
    by_cases hk : 0 ≤ k <;> by_cases hq : 2 ≤ q
    · rw [if_pos hk, if_pos hk, if_pos hq, if_pos hq, if_pos hq]
      push_cast
      rw [pow_toNat (by omega), pow_toNat hk]
      exact ⟨by ring, by ring⟩
    · rw [if_pos hk, if_pos hk, if_neg hq, if_neg hq, if_neg hq]
      push_cast
      rw [pow_toNat (by omega), pow_toNat hk]
      exact ⟨by rw [mul_one, mul_assoc, htwo, mul_one], by ring⟩
    · rw [if_neg hk, if_neg hk, if_pos hq, if_pos hq, if_pos hq]
      push_cast
      rw [pow_toNat (by omega), pow_toNat (by omega)]
      exact ⟨by ring, by rw [one_mul, mul_assoc, hten, mul_one]⟩
    · rw [if_neg hk, if_neg hk, if_neg hq, if_neg hq, if_neg hq]
      push_cast
      rw [pow_toNat (by omega), pow_toNat (by omega)]
      refine ⟨?_, ?_⟩
      · rw [← mul_assoc, mul_assoc (n : ℚ), htwo, mul_one]
      · rw [mul_comm (2 ^ (2 - q) : ℚ), ← mul_assoc, mul_assoc (d : ℚ), hten, mul_one]

theorem admits_iff {k : Int} {d : Nat} : x.admits k d = true ↔ x.Covers (d * 10 ^ k) := by
  obtain ⟨c, hc, hscale⟩ := onScale_spec x.exponent k
  have hlow : ∀ n m : Nat, (onScale x.exponent k n d).1 ≤ (onScale x.exponent k m d).2 ↔
      (n : ℚ) * 2 ^ (x.exponent - 2) ≤ d * 10 ^ k := by
    intro n m
    rw [← mul_le_mul_iff_of_pos_right hc, ← (hscale n d).1, ← (hscale m d).2]
    exact_mod_cast Iff.rfl
  have hhigh : ∀ n m : Nat, (onScale x.exponent k n d).2 ≤ (onScale x.exponent k m d).1 ↔
      (d : ℚ) * 10 ^ k ≤ m * 2 ^ (x.exponent - 2) := by
    intro n m
    rw [← mul_le_mul_iff_of_pos_right hc, ← (hscale n d).2, ← (hscale m d).1]
    exact_mod_cast Iff.rfl
  rw [admits, Covers]
  cases x.interval.closed with
  | true => simp [hlow, hhigh]
  | false => simp [← not_le, hlow, hhigh]

/-- What the search takes from a grid rounds to the number. -/
theorem onGrid_covers {halfway : Halfway} {k : Int} {d : Decimal}
    (h : x.onGrid halfway k = some d) : x.Covers d.value := by
  rw [onGrid] at h
  generalize onScale x.exponent k (4 * x.significand) 1 = v at h
  obtain ⟨v, unit⟩ := v
  simp only at h
  split at h
  case isTrue hbelow =>
    cases h
    exact admits_iff.mp (Bool.and_eq_true_iff.mp hbelow).1
  case isFalse =>
    split at h
    case isTrue habove =>
      cases h
      exact admits_iff.mp habove
    case isFalse => cases h

theorem significand_pos (hx : x.isZero = false) : 0 < x.significand := by
  have hcode : x.code.val ≠ 0 := by simpa [isZero] using hx
  rw [significand]
  split
  · omega
  · exact Nat.lt_of_lt_of_le (by decide) (Nat.le_add_left binade _)

theorem exactDecimal_value : x.exactDecimal.value = x.significand * 2 ^ x.exponent := by
  rw [exactDecimal]
  split
  case isTrue hq =>
    rw [Decimal.value, zpow_zero, mul_one, Nat.pow_eq]
    push_cast
    rw [pow_toNat hq]
  case isFalse hq =>
    have hten : (10 : ℚ) ^ x.exponent = 5 ^ x.exponent * 2 ^ x.exponent := by
      rw [← mul_zpow]
      norm_num
    have hfive : (5 : ℚ) ^ (-x.exponent) * 5 ^ x.exponent = 1 := by
      rw [← zpow_add₀ (by norm_num), neg_add_cancel, zpow_zero]
    rw [Decimal.value, Nat.pow_eq, hten]
    push_cast
    rw [pow_toNat (by omega), ← mul_assoc, mul_assoc (x.significand : ℚ), hfive, mul_one]

/-- The number itself rounds to the number. -/
theorem exactDecimal_covers (hx : x.isZero = false) : x.Covers x.exactDecimal.value := by
  have hm := significand_pos hx
  have hvalue : x.exactDecimal.value = (4 * x.significand : Nat) * 2 ^ (x.exponent - 2) := by
    rw [exactDecimal_value, zpow_sub₀ two_ne_zero]
    push_cast
    ring
  have hunit : (0 : ℚ) < 2 ^ (x.exponent - 2) := by positivity
  have hlow : x.interval.low < 4 * x.significand := by
    simp only [interval]
    split <;> omega
  have hhigh : 4 * x.significand < x.interval.high := by
    simp only [interval]
    omega
  have hlow : (x.interval.low : ℚ) * 2 ^ (x.exponent - 2) <
      (4 * x.significand : Nat) * 2 ^ (x.exponent - 2) := by gcongr
  have hhigh : ((4 * x.significand : Nat) : ℚ) * 2 ^ (x.exponent - 2) <
      x.interval.high * 2 ^ (x.exponent - 2) := by gcongr
  rw [Covers, hvalue]
  split
  · exact ⟨hlow.le, hhigh.le⟩
  · exact ⟨hlow, hhigh⟩

/-- **The shortest decimal rounds to its number.** -/
theorem shortest_covers {halfway : Halfway} (hx : x.isZero = false) :
    x.Covers (x.shortest halfway).value := by
  rw [shortest, if_neg (by simp [hx])]
  cases hfound : (List.range 24).findSome? fun (i : Nat) => x.onGrid halfway (x.coarsest - i) with
  | none => exact exactDecimal_covers hx
  | some d =>
    obtain ⟨i, -, hd⟩ := List.exists_of_findSome?_eq_some hfound
    exact onGrid_covers hd

/-- Numbers that differ in sign only have one shortest decimal. -/
theorem shortest_congr {halfway : Halfway} {y : Binary64} (h : x.code = y.code) :
    x.shortest halfway = y.shortest halfway := by
  have hzero : x.isZero = y.isZero := by rw [isZero, isZero, h]
  have hm : x.significand = y.significand := by rw [significand, significand, h]
  have hq : x.exponent = y.exponent := by rw [exponent, exponent, h]
  have hinterval : x.interval = y.interval := by rw [interval, interval, hm, hq]
  have hadmits : x.admits = y.admits := by
    funext k d
    rw [admits, admits, hinterval, hq]
  have hgrid : x.onGrid halfway = y.onGrid halfway := by
    funext k
    rw [onGrid, onGrid, hm, hq, hadmits]
  rw [shortest, shortest, coarsest, coarsest, exactDecimal, exactDecimal, hzero, hm, hq, hgrid]

end Binary64

end Ascription
