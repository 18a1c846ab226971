import Ascription.Proofs.Number.Digits
import Ascription.Proofs.Number.Shortest

/-!
# Proofs/Number/Plain — a double reads back from its text

    number ──shortest──▸ decimal ──spread──▸ whole.fraction ──decimal──▸ number

The digits on both sides of the point denote the shortest decimal, which rounds to the number.
-/

namespace Ascription

namespace Binary64

variable {x : Binary64}

/-- What rounds to a number that is not zero is not too small to be read. -/
theorem Covers.ge {v : ℚ} (hx : x.isZero = false) (h : x.Covers v) : (2 : ℚ) ^ (-1075 : ℤ) ≤ v := by
  have hlow : (2 : ℚ) ≤ x.interval.low := by
    have hm := significand_pos hx
    have hlow := x.low_ge
    exact_mod_cast (by omega : 2 ≤ x.interval.low)
  have hq := x.exponent_ge
  calc (2 : ℚ) ^ (-1075 : ℤ) = 2 * 2 ^ (-1076 : ℤ) := by
        rw [← zpow_one_add₀ two_ne_zero]
        rfl
    _ ≤ 2 * 2 ^ (x.exponent - 2) := by
        gcongr
        · exact one_le_two
        · omega
    _ ≤ x.interval.low * 2 ^ (x.exponent - 2) := by gcongr
    _ ≤ v := h.bounds.1

theorem log2_of_covers (hx : x.isZero = false) {n j : Nat} (hn : n ≠ 0)
    (h : x.Covers (n / 10 ^ j)) : 3 * j < n.log2 + 1076 := by
  have hpow : (2 : ℚ) ^ ((3 * j : ℤ) - 1075) < 2 ^ ((n.log2 : ℤ) + 1) := by
    calc (2 : ℚ) ^ ((3 * j : ℤ) - 1075) = 8 ^ j * 2 ^ (-1075 : ℤ) := by
          rw [sub_eq_add_neg, zpow_add₀ two_ne_zero, zpow_mul, zpow_natCast]
          norm_num
      _ ≤ 10 ^ j * 2 ^ (-1075 : ℤ) := by
          gcongr
          norm_num
      _ ≤ 10 ^ j * (n / 10 ^ j) := by
          gcongr
          exact h.ge hx
      _ = n := by field_simp
      _ < 2 ^ ((n.log2 : ℤ) + 1) := (log2_bounds hn).2
  have := (zpow_lt_zpow_iff_right₀ (one_lt_two (α := ℚ))).mp hpow
  omega

/-- **A decimal that rounds to a number is read as the number.** -/
theorem ofDecimal_eq (hx : x.isFinite = true) (hzero : x.isZero = false) {n j : Nat} (hj : 0 < j)
    (h : x.Covers (n / 10 ^ j)) : ofDecimal x.negative n (-(j : Int)) = x := by
  have hn : n ≠ 0 := by
    rintro rfl
    have hpos : (0 : ℚ) < 2 ^ (-1075 : ℤ) := by positivity
    have hle := h.ge hzero
    rw [Nat.cast_zero, zero_div] at hle
    exact absurd hle (not_le.mpr hpos)
  have hlog := log2_of_covers hzero hn h
  have hexp : (- -(j : Int)).toNat = j := by omega
  have hden : ((10 ^ j : Nat) : ℚ) = 10 ^ j := by push_cast; rfl
  have hcode : codeOf n (10 ^ j) = x.code.val :=
    codeOf_eq hx hn (by positivity) (by rwa [hden])
  rw [ofDecimal, if_neg hn, if_neg (by omega), if_neg (by omega), if_neg (by omega), hexp]
  exact congrArg (Binary64.mk x.negative) (Fin.ext hcode)

end Binary64

namespace Numeral

/-- A numeral without a point gets one. -/
def pointed (cs : List Char) : List Char := if cs.contains '.' then cs else cs ++ ['.', '0']

theorem isDigit_zero : ∀ c ∈ ['0'], isDigit c = true := List.forall_mem_singleton.mpr rfl

theorem isDigit_zeros {n : Nat} : ∀ c ∈ List.replicate n '0', isDigit c = true := by
  intro c hc
  rw [List.eq_of_mem_replicate hc]
  rfl

theorem isDigit_append {ds es : List Char} (hds : ∀ c ∈ ds, isDigit c = true)
    (hes : ∀ c ∈ es, isDigit c = true) : ∀ c ∈ ds ++ es, isDigit c = true := fun c hc =>
  (List.mem_append.mp hc).elim (hds c) (hes c)

theorem pointed_of_mem (ds es : List Char) : pointed (ds ++ '.' :: es) = ds ++ '.' :: es := by
  rw [pointed, if_pos (by simp)]

theorem natural_zeros_append {n : Nat} {ds : List Char} :
    natural (List.replicate n '0' ++ ds) = natural ds := by
  rw [natural_append, natural_replicate_zero, Nat.mul_zero, Nat.zero_add]

/-- **The digits around a point** are digits on both sides and denote a decimal. -/
structure Point (d : Decimal) (ds es : List Char) : Prop where
  whole : ds ≠ []
  fraction : es ≠ []
  whole_digits : ∀ c ∈ ds, isDigit c = true
  fraction_digits : ∀ c ∈ es, isDigit c = true
  value : (natural (ds ++ es) : ℚ) / 10 ^ es.length = d.value

/-- Without a fraction the digits are filled up with zeros. -/
theorem point_of_nonneg {n : Nat} {k : Int} (hk : 0 ≤ k) :
    ∃ ds es, Notation.spread true (Notation.digits n) k = ds ++ '.' :: es ∧ Point ⟨n, k⟩ ds es := by
  refine ⟨Notation.digits n ++ List.replicate k.toNat '0', ['0'], ?_, ?_⟩
  · rw [Notation.spread, if_pos hk, if_pos rfl]
  · refine ⟨by simp [digits_ne_nil], by simp, isDigit_append isDigit_digits isDigit_zeros,
      isDigit_zero, ?_⟩
    have hnatural : natural (Notation.digits n ++ List.replicate k.toNat '0' ++ ['0']) =
        10 * (10 ^ k.toNat * n) := by
      rw [natural_append, natural_append, natural_replicate_zero, natural_digits,
        List.length_replicate]
      rfl
    rw [hnatural, Decimal.value, ← Binary64.pow_toNat hk]
    push_cast
    rw [List.length_singleton, pow_one]
    field_simp

/-- With a fraction the point stands among the digits, or before them behind zeros. -/
theorem point_of_neg {n : Nat} {k : Int} (hk : k < 0) (pointZero : Bool) :
    ∃ ds es, Notation.spread pointZero (Notation.digits n) k = ds ++ '.' :: es ∧
      Point ⟨n, k⟩ ds es := by
  have hvalue : ∀ {ds es : List Char}, natural (ds ++ es) = n → (es.length : Int) = -k →
      (natural (ds ++ es) : ℚ) / 10 ^ es.length = (Decimal.mk n k).value := by
    intro ds es hn hlength
    obtain rfl : k = -(es.length : Int) := by omega
    rw [hn, Decimal.value, zpow_neg, zpow_natCast, div_eq_mul_inv]
  have hlength : (Notation.digits n).length ≠ 0 := by simp [digits_ne_nil]
  have hdigits := isDigit_digits (n := n)
  rw [Notation.spread, if_neg (by omega)]
  by_cases hwhole : 0 < ((Notation.digits n).length : Int) + k
  · obtain ⟨w, hw⟩ := Int.eq_ofNat_of_zero_le hwhole.le
    simp only [hw, Int.toNat_natCast]
    rw [if_pos (by omega)]
    refine ⟨_, _, rfl, ?_, ?_, fun c hc => hdigits c (List.mem_of_mem_take hc),
      fun c hc => hdigits c (List.mem_of_mem_drop hc), hvalue ?_ ?_⟩
    · rw [Ne, List.take_eq_nil_iff]
      exact not_or.mpr ⟨by omega, digits_ne_nil⟩
    · rw [Ne, List.drop_eq_nil_iff]
      omega
    · rw [List.take_append_drop, natural_digits]
    · rw [List.length_drop]
      omega
  · simp only [if_neg hwhole]
    have hzero : natural ['0'] = 0 := rfl
    refine ⟨['0'], _, rfl, by simp, by simp [digits_ne_nil], isDigit_zero,
      isDigit_append isDigit_zeros hdigits, hvalue ?_ ?_⟩
    · rw [natural_append, hzero, natural_zeros_append, natural_digits, Nat.mul_zero, Nat.zero_add]
    · rw [List.length_append, List.length_replicate]
      omega

/-- **Digits with a point** denote a decimal. -/
theorem point_spread (n : Nat) (k : Int) :
    ∃ ds es, Notation.spread true (Notation.digits n) k = ds ++ '.' :: es ∧ Point ⟨n, k⟩ ds es := by
  obtain hk | hk := le_or_gt 0 k
  · exact point_of_nonneg hk
  · exact point_of_neg hk true

/-- The point that is added is the one of an integral number. -/
theorem pointed_spread (n : Nat) (k : Int) :
    pointed (Notation.spread false (Notation.digits n) k) =
      Notation.spread true (Notation.digits n) k := by
  obtain hk | hk := le_or_gt 0 k
  · have hpoint : (Notation.digits n ++ List.replicate k.toNat '0').contains '.' = false := by
      rw [List.contains_eq_mem, decide_eq_false_iff_not]
      exact fun h => nomatch isDigit_append isDigit_digits isDigit_zeros _ h
    rw [Notation.spread, if_pos hk, if_neg (by decide), List.append_nil, pointed, hpoint,
      Notation.spread, if_pos hk]
    rfl
  · have hspread : Notation.spread true (Notation.digits n) k =
        Notation.spread false (Notation.digits n) k := by
      simp only [Notation.spread, if_neg (Int.not_le.mpr hk)]
    obtain ⟨ds, es, htext, -⟩ := point_of_neg (n := n) hk false
    rw [hspread, htext, pointed_of_mem]

/-- The text of a finite number: its sign and its magnitude. -/
theorem text_of_isFinite {n : Notation} {x : Binary64} (hx : x.isFinite = true) :
    n.text x = String.ofList (sign x.negative ++ n.magnitude x) := by
  have hlt : x.code.val < Binary64.infinityCode := of_decide_eq_true hx
  have hinfinite : x.isInfinite = false := beq_false_of_ne (Nat.ne_of_lt hlt)
  rw [Notation.text, Binary64.isNaN_eq_false_of_isFinite hx, hinfinite]
  cases x.negative with
  | true => exact (@String.ofList_append ['-'] (n.magnitude x)).symm
  | false => rfl

/-- The text of a finite double: its sign, and digits with a point. -/
theorem float_toList {x : Binary64} (hx : x.isFinite = true) : (Literal.float x).text.toList =
    sign x.negative ++ pointed (Notation.plain.magnitude x) := by
  have htext : (Notation.plain.text x).toList = sign x.negative ++ Notation.plain.magnitude x := by
    rw [text_of_isFinite hx, String.toList_ofList]
  have hpoint : (sign x.negative ++ Notation.plain.magnitude x).contains '.' =
      (Notation.plain.magnitude x).contains '.' := by
    cases x.negative <;> simp [sign]
  rw [Literal.text, htext, hpoint, hx, Bool.not_true, Bool.or_false, pointed]
  split
  · exact htext
  · rw [String.toList_append, htext, List.append_assoc]
    rfl

/-- **A double reads back from its text.** -/
theorem float_text {x : Binary64} (hx : x.isFinite = true) : ∃ ds es,
    (Literal.float x).text.toList = sign x.negative ++ ds ++ '.' :: es ∧ ds ≠ [] ∧
      (∀ c ∈ ds, isDigit c = true) ∧ (∀ c ∈ es, isDigit c = true) ∧
      decimal x.negative ds es = x := by
  obtain ⟨ds, es, htext, h⟩ := point_spread (x.shortest .upper).digits (x.shortest .upper).exponent
  have hmagnitude : pointed (Notation.plain.magnitude x) = ds ++ '.' :: es :=
    (pointed_spread _ _).trans htext
  refine ⟨ds, es, by rw [float_toList hx, hmagnitude, List.append_assoc], h.whole, h.whole_digits,
    h.fraction_digits, ?_⟩
  cases hzero : x.isZero with
  | true =>
    have hcode : x.code.val = 0 := by simpa [Binary64.isZero] using hzero
    have hnatural : natural (ds ++ es) = 0 := by
      have hvalue := h.value
      rw [Binary64.shortest, if_pos hzero, Decimal.value, Nat.cast_zero, zero_mul] at hvalue
      simpa using hvalue
    rw [decimal, hnatural]
    exact congrArg (Binary64.mk x.negative) (Fin.ext hcode.symm)
  | false =>
    refine Binary64.ofDecimal_eq hx hzero (List.length_pos_iff.mpr h.fraction) ?_
    rw [h.value]
    exact Binary64.shortest_covers hzero

end Numeral

end Ascription
