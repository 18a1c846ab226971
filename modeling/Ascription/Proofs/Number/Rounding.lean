import Ascription.Number.Shortest
import Mathlib.Algebra.Order.Field.Power
import Mathlib.Algebra.Order.Ring.Rat
import Mathlib.Tactic.FieldSimp
import Mathlib.Tactic.Linarith
import Mathlib.Tactic.NormNum
import Mathlib.Tactic.Positivity
import Mathlib.Tactic.Ring

/-!
# Proofs/Number/Rounding — what rounds to a double

A quotient is scaled into a binade, where it keeps 53 binary digits before the point, and goes to
the nearest integer there.  The reals that round to a finite number are those within half of its
last place, with one exception: below a power of two the last place is half as big.
-/

namespace Ascription

namespace Binary64

/-! ## Rounding a quotient -/

theorem nearestEven_eq {n d m : Nat} (hd : 0 < d) (hlow : 2 * m * d ≤ 2 * n + d)
    (hhigh : 2 * n ≤ 2 * m * d + d)
    (heven : m % 2 = 0 ∨ (2 * m * d < 2 * n + d ∧ 2 * n < 2 * m * d + d)) :
    nearestEven n d = m := by
  have hn := Nat.div_add_mod n d
  have hr := Nat.mod_lt n hd
  rw [nearestEven]
  generalize n / d = k at *
  generalize n % d = j at *
  subst hn
  -- the quotient is the number or the one below it
  have hle : k ≤ m := by
    by_contra h
    have : (m + 1) * d ≤ k * d := Nat.mul_le_mul_right d (by omega)
    nlinarith
  have hge : m ≤ k + 1 := by
    by_contra h
    have : (k + 2) * d ≤ m * d := Nat.mul_le_mul_right d (by omega)
    nlinarith
  obtain rfl | rfl : k = m ∨ k + 1 = m := by omega
  · have : 2 * k * d = 2 * (d * k) := by ring
    split_ifs <;> omega
  · have : 2 * (k + 1) * d = 2 * (d * k) + 2 * d := by ring
    split_ifs <;> omega

/-- Scaling divides by a power of two. -/
theorem scaleDown_spec {num den : Nat} (hden : 0 < den) (q : Int) :
    0 < (scaleDown num den q).2 ∧
      ((scaleDown num den q).1 : ℚ) / (scaleDown num den q).2 = num / den / 2 ^ q := by
  have hden' : (den : ℚ) ≠ 0 := by positivity
  rw [scaleDown]
  split
  case isTrue hq =>
    obtain ⟨k, rfl⟩ := Int.eq_ofNat_of_zero_le hq
    refine ⟨Nat.mul_pos hden (Nat.pow_pos (by decide)), ?_⟩
    simp
    field_simp
  case isFalse hq =>
    obtain ⟨k, rfl⟩ : ∃ k : Nat, q = -k := ⟨(-q).toNat, by omega⟩
    refine ⟨hden, ?_⟩
    simp
    field_simp

theorem log2_bounds {n : Nat} (hn : n ≠ 0) :
    (2 : ℚ) ^ (n.log2 : ℤ) ≤ n ∧ (n : ℚ) < 2 ^ ((n.log2 : ℤ) + 1) := by
  refine ⟨?_, ?_⟩
  · rw [zpow_natCast]
    exact_mod_cast Nat.log2_self_le hn
  · have h := Nat.lt_log2_self (n := n)
    exact_mod_cast h

/-- **The binade of a quotient.** -/
theorem scaleOf_spec {num den : Nat} (hnum : num ≠ 0) (hden : 0 < den) :
    -1074 ≤ scaleOf num den ∧ (num : ℚ) / den < 2 ^ (scaleOf num den + 53) ∧
      (scaleOf num den = -1074 ∨ (2 : ℚ) ^ (scaleOf num den + 52) ≤ num / den) := by
  obtain ⟨hnl, hnu⟩ := log2_bounds hnum
  obtain ⟨hdl, hdu⟩ := log2_bounds hden.ne'
  have hden' : (0 : ℚ) < den := by exact_mod_cast hden
  have hlower : (2 : ℚ) ^ ((num.log2 : ℤ) - den.log2 - 1) ≤ num / den := by
    rw [le_div_iff₀ hden']
    calc (2 : ℚ) ^ ((num.log2 : ℤ) - den.log2 - 1) * den
        ≤ 2 ^ ((num.log2 : ℤ) - den.log2 - 1) * 2 ^ ((den.log2 : ℤ) + 1) := by gcongr
      _ = 2 ^ (num.log2 : ℤ) := by
          rw [← zpow_add₀ two_ne_zero]
          congr 1
          ring
      _ ≤ num := hnl
  have hupper : (num : ℚ) / den < 2 ^ ((num.log2 : ℤ) - den.log2 + 1) := by
    rw [div_lt_iff₀ hden']
    calc (num : ℚ) < 2 ^ ((num.log2 : ℤ) + 1) := hnu
      _ = 2 ^ ((num.log2 : ℤ) - den.log2 + 1) * 2 ^ (den.log2 : ℤ) := by
          rw [← zpow_add₀ two_ne_zero]
          congr 1
          ring
      _ ≤ 2 ^ ((num.log2 : ℤ) - den.log2 + 1) * den := by gcongr
  rw [scaleOf]
  generalize hq : max (-1074) ((num.log2 : ℤ) - den.log2 - 53) = q
  obtain ⟨hd, hratio⟩ := @scaleDown_spec num den hden q
  have hd' : (0 : ℚ) < (scaleDown num den q).2 := by exact_mod_cast hd
  have hpow : (2 : ℚ) ^ (q + 53) = (2 * binade : Nat) * 2 ^ q := by
    rw [zpow_add₀ two_ne_zero, binade]
    norm_num
    ring
  have hfloor : (scaleDown num den q).1 / (scaleDown num den q).2 < 2 * binade ↔
      (num : ℚ) / den < 2 ^ (q + 53) := by
    rw [Nat.div_lt_iff_lt_mul hd, hpow, ← div_lt_iff₀ (by positivity), ← hratio, div_lt_iff₀ hd']
    exact_mod_cast Iff.rfl
  simp only [hfloor]
  split
  case isTrue hlt =>
    refine ⟨by omega, hlt, ?_⟩
    obtain h | h : q = -1074 ∨ q = (num.log2 : ℤ) - den.log2 - 53 := by omega
    · exact .inl h
    · exact .inr (hlower.trans' (zpow_le_zpow_right₀ one_le_two (by omega)))
  case isFalse hge =>
    refine ⟨by omega, hupper.trans_le (zpow_le_zpow_right₀ one_le_two (by omega)), .inr ?_⟩
    rw [add_assoc]
    exact not_lt.mp hge

/-- There is only one such binade. -/
theorem scaleOf_eq {num den : Nat} {q : Int} (hnum : num ≠ 0) (hden : 0 < den) (hq : -1074 ≤ q)
    (hupper : (num : ℚ) / den < 2 ^ (q + 53))
    (hlower : q = -1074 ∨ (2 : ℚ) ^ (q + 52) ≤ num / den) : scaleOf num den = q := by
  obtain ⟨hq', hupper', hlower'⟩ := scaleOf_spec hnum hden
  have hle : ∀ {p p' : Int}, (2 : ℚ) ^ (p + 52) ≤ num / den → (num : ℚ) / den < 2 ^ (p' + 53) →
      p ≤ p' := by
    intro p p' h h'
    have := (zpow_lt_zpow_iff_right₀ (one_lt_two (α := ℚ))).mp (h.trans_lt h')
    omega
  have hge : q ≤ scaleOf num den := by
    obtain rfl | h := hlower
    · exact hq'
    · exact hle h hupper'
  have hge' : scaleOf num den ≤ q := by
    obtain h | h := hlower'
    · omega
    · exact hle h hupper
  omega

/-- The code of a quotient in a binade, from the integer nearest to it there. -/
theorem codeOf_eq_of_scaleOf {num den m : Nat} {q : Int} (hnum : num ≠ 0) (hden : 0 < den)
    (hq : scaleOf num den = q) (hlow : (2 * m - 1) * (2 : ℚ) ^ (q - 1) ≤ num / den)
    (hhigh : (num : ℚ) / den ≤ (2 * m + 1) * 2 ^ (q - 1))
    (heven : m % 2 = 0 ∨ (2 * m - 1) * (2 : ℚ) ^ (q - 1) < num / den ∧
      (num : ℚ) / den < (2 * m + 1) * 2 ^ (q - 1)) :
    codeOf num den = min infinityCode ((q + 1074).toNat * binade + m) := by
  obtain ⟨hd, hratio⟩ := @scaleDown_spec num den hden q
  generalize hx : scaleDown num den q = x at hd hratio
  obtain ⟨n, d⟩ := x
  have hd' : (0 : ℚ) < d := by exact_mod_cast hd
  have hn : (2 : ℚ) * n = num / den / 2 ^ (q - 1) * d := by
    have hratio : (n : ℚ) = num / den / 2 ^ q * d := (div_eq_iff hd'.ne').mp hratio
    rw [hratio, zpow_sub_one₀ two_ne_zero]
    field_simp
  have hpow : (0 : ℚ) < 2 ^ (q - 1) := by positivity
  rw [← le_div_iff₀ hpow] at hlow
  rw [← div_le_iff₀ hpow] at hhigh
  rw [← lt_div_iff₀ hpow, ← div_lt_iff₀ hpow] at heven
  have hnearest : nearestEven n d = m := by
    refine nearestEven_eq hd ?_ ?_ (heven.imp_right fun ⟨hl, hh⟩ => ⟨?_, ?_⟩)
    · have := mul_le_mul_of_nonneg_right hlow hd'.le
      have : (2 * m * d : ℚ) ≤ 2 * n + d := by linarith
      exact_mod_cast this
    · have := mul_le_mul_of_nonneg_right hhigh hd'.le
      have : (2 * n : ℚ) ≤ 2 * m * d + d := by linarith
      exact_mod_cast this
    · have := mul_lt_mul_of_pos_right hl hd'
      have : (2 * m * d : ℚ) < 2 * n + d := by linarith
      exact_mod_cast this
    · have := mul_lt_mul_of_pos_right hh hd'
      have : (2 * n : ℚ) < 2 * m * d + d := by linarith
      exact_mod_cast this
  rw [codeOf, if_neg hnum, hq]
  simp only [hx, hnearest]

/-! ## The interval of a number -/

section

variable {x : Binary64}

theorem exponent_ge : -1074 ≤ x.exponent := by
  rw [exponent]
  split
  · exact le_refl _
  · have : 1 ≤ x.code.val / binade := (Nat.one_le_div_iff (by decide)).mpr (by omega)
    omega

theorem significand_lt : x.significand < 2 * binade := by
  rw [significand]
  split
  · omega
  · have := Nat.mod_lt x.code.val (y := binade) (by decide)
    omega

theorem binade_le_significand (h : -1074 < x.exponent) : binade ≤ x.significand := by
  rw [significand]
  rw [exponent] at h
  split
  case isTrue hx =>
    rw [if_pos hx] at h
    omega
  case isFalse => exact Nat.le_add_left _ _

/-- **The code of a number**, from its exponent and significand. -/
theorem code_eq : (x.exponent + 1074).toNat * binade + x.significand = x.code.val := by
  rw [significand, exponent]
  split
  · simp
  case isFalse h =>
    have hdiv := Nat.div_add_mod x.code.val binade
    have hone : 1 ≤ x.code.val / binade := (Nat.one_le_div_iff (by decide)).mpr (by omega)
    obtain ⟨k, hk⟩ := Nat.exists_eq_add_of_le hone
    have hexp : (((x.code.val / binade : Nat) : Int) - 1075 + 1074).toNat = k := by omega
    rw [hexp]
    rw [hk] at hdiv
    linarith

/-- **The reals that round to a number**, in quarters of its last place. -/
def Covers (x : Binary64) (v : ℚ) : Prop :=
  if x.interval.closed then
    x.interval.low * 2 ^ (x.exponent - 2) ≤ v ∧ v ≤ x.interval.high * 2 ^ (x.exponent - 2)
  else x.interval.low * 2 ^ (x.exponent - 2) < v ∧ v < x.interval.high * 2 ^ (x.exponent - 2)

theorem low_ge : 4 * x.significand ≤ x.interval.low + 2 := by
  simp only [interval]
  split <;> omega

theorem low_binade (hm : x.significand = binade) (hq : -1074 < x.exponent) :
    x.interval.low = 4 * binade - 1 := by
  simp only [interval]
  rw [if_pos ⟨hm, hq⟩, hm]

theorem Covers.bounds {v : ℚ} (h : x.Covers v) : x.interval.low * 2 ^ (x.exponent - 2) ≤ v ∧
    v ≤ x.interval.high * 2 ^ (x.exponent - 2) := by
  rw [Covers] at h
  split at h
  · exact h
  · exact ⟨h.1.le, h.2.le⟩

/-- What rounds to a number is within half of its last place. -/
theorem Covers.near {v : ℚ} (h : x.Covers v) :
    (2 * x.significand - 1) * (2 : ℚ) ^ (x.exponent - 1) ≤ v ∧
      v ≤ (2 * x.significand + 1) * 2 ^ (x.exponent - 1) ∧
      (x.significand % 2 = 0 ∨ (2 * x.significand - 1) * (2 : ℚ) ^ (x.exponent - 1) < v ∧
        v < (2 * x.significand + 1) * 2 ^ (x.exponent - 1)) := by
  have hpow : (2 : ℚ) ^ (x.exponent - 1) = 2 * 2 ^ (x.exponent - 2) := by
    rw [← zpow_one_add₀ two_ne_zero]
    congr 1
    ring
  have hlow : (2 * x.significand - 1) * (2 : ℚ) ^ (x.exponent - 1) ≤
      x.interval.low * 2 ^ (x.exponent - 2) := by
    have hlow : (4 * x.significand : ℚ) ≤ x.interval.low + 2 := by exact_mod_cast low_ge
    rw [hpow, ← mul_assoc]
    gcongr
    linarith
  have hhigh : x.interval.high * (2 : ℚ) ^ (x.exponent - 2) =
      (2 * x.significand + 1) * 2 ^ (x.exponent - 1) := by
    rw [hpow, interval]
    push_cast
    ring
  obtain ⟨hl, hh⟩ := h.bounds
  refine ⟨hlow.trans hl, hhigh ▸ hh, ?_⟩
  rw [Covers] at h
  split at h
  case isTrue hclosed => exact .inl (by simpa [interval] using hclosed)
  case isFalse => exact .inr ⟨hlow.trans_lt h.1, hhigh ▸ h.2⟩

/-- Powers of two in quarters of the last place. -/
theorem zpow_eq_quarters (x : Binary64) {p : Int} (k : Nat) (hp : p = x.exponent - 2 + k) :
    (2 : ℚ) ^ p = 2 ^ k * 2 ^ (x.exponent - 2) := by
  rw [hp, zpow_add₀ two_ne_zero, zpow_natCast, mul_comm]

/-- What rounds to a number is below the end of its binade. -/
theorem Covers.lt_binade {v : ℚ} (h : x.Covers v) : v < 2 ^ (x.exponent + 53) := by
  have hunit : (0 : ℚ) < 2 ^ (x.exponent - 2) := by positivity
  have hm : (x.significand : ℚ) + 1 ≤ 2 ^ 53 := by exact_mod_cast x.significand_lt
  have hhigh := h.near.2.1
  rw [x.zpow_eq_quarters 1 (by omega)] at hhigh
  rw [x.zpow_eq_quarters 55 (by omega)]
  nlinarith

/-- What rounds to a number from before its binade rounds to a power of two. -/
theorem Covers.significand_eq {v : ℚ} (h : x.Covers v) (hq : -1074 < x.exponent)
    (hlt : v < 2 ^ (x.exponent + 52)) : x.significand = binade := by
  have hunit : (0 : ℚ) < 2 ^ (x.exponent - 2) := by positivity
  have hge := x.binade_le_significand hq
  by_contra hm
  have hm : (2 : ℚ) ^ 52 + 1 ≤ x.significand := by
    have : binade + 1 ≤ x.significand := by omega
    exact_mod_cast this
  have hlow := h.near.1
  rw [x.zpow_eq_quarters 1 (by omega)] at hlow
  rw [x.zpow_eq_quarters 54 (by omega)] at hlt
  nlinarith

/-- **Below a power of two** a quotient is in the binade below, where it rounds to the end of it. -/
theorem codeOf_eq_of_lt (hx : x.isFinite = true) {num den : Nat} (hnum : num ≠ 0) (hden : 0 < den)
    (h : x.Covers (num / den)) (hq : -1074 < x.exponent)
    (hlt : (num : ℚ) / den < 2 ^ (x.exponent + 52)) : codeOf num den = x.code.val := by
  have hm := h.significand_eq hq hlt
  have hfinite : x.code.val < infinityCode := of_decide_eq_true hx
  have hquarter := h.bounds.1
  rw [low_binade hm hq] at hquarter
  have hscale : scaleOf num den = x.exponent - 1 := by
    refine scaleOf_eq hnum hden (by omega)
      (by rwa [show x.exponent - 1 + 53 = x.exponent + 52 by ring])
      (.inr (hquarter.trans' ?_))
    rw [x.zpow_eq_quarters 53 (by omega)]
    gcongr
    norm_num [binade]
  have hhalf : x.exponent - 1 - 1 = x.exponent - 2 := by ring
  rw [x.zpow_eq_quarters 54 (by omega)] at hlt
  rw [codeOf_eq_of_scaleOf (m := 2 * binade) hnum hden hscale ?_ ?_ (.inl rfl)]
  · have hshift : (x.exponent + 1074).toNat = (x.exponent - 1 + 1074).toNat + 1 := by omega
    have hsum : (x.exponent - 1 + 1074).toNat * binade + 2 * binade = x.code.val := by
      rw [← x.code_eq, hshift, hm]
      ring
    rw [hsum]
    exact Nat.min_eq_right hfinite.le
  · rw [hhalf]
    refine hquarter.trans' ?_
    gcongr
    norm_num [binade]
  · rw [hhalf]
    refine hlt.le.trans ?_
    gcongr
    norm_num [binade]

/-- **A quotient rounds to the number that covers it.** -/
theorem codeOf_eq (hx : x.isFinite = true) {num den : Nat} (hnum : num ≠ 0) (hden : 0 < den)
    (h : x.Covers (num / den)) : codeOf num den = x.code.val := by
  have hfinite : x.code.val < infinityCode := of_decide_eq_true hx
  by_cases hscale : x.exponent = -1074 ∨ (2 : ℚ) ^ (x.exponent + 52) ≤ num / den
  · obtain ⟨hlow, hhigh, heven⟩ := h.near
    have hbinade := scaleOf_eq hnum hden x.exponent_ge h.lt_binade hscale
    rw [codeOf_eq_of_scaleOf hnum hden hbinade hlow hhigh heven, x.code_eq]
    exact Nat.min_eq_right hfinite.le
  · obtain ⟨hne, hlt⟩ := not_or.mp hscale
    have hq := x.exponent_ge
    exact codeOf_eq_of_lt hx hnum hden h (by omega) (not_le.mp hlt)

end

end Binary64

end Ascription
