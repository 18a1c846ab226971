import Ascription.Expr
import Ascription.Number.Notation
import Mathlib.Algebra.Group.Nat.Defs

/-!
# Proofs/Number/Digits — numbers from their digits

The digits of a natural number denote it, and a 64-bit integer reads back from its text.
-/

namespace Ascription

namespace Binary64

theorem isNaN_eq_false_of_isFinite {x : Binary64} (h : x.isFinite = true) : x.isNaN = false := by
  have hlt : x.code.val < infinityCode := of_decide_eq_true h
  exact decide_eq_false (Nat.not_lt.mpr (Nat.le_of_lt hlt))

/-- What is rounded is a number. -/
theorem isNaN_ofQuotient {negative : Bool} {num den : Nat} :
    (ofQuotient negative num den).isNaN = false :=
  decide_eq_false (Nat.not_lt.mpr (codeOf_le num den))

theorem isNaN_ofDecimal {negative : Bool} {digits : Nat} {exponent : Int} :
    (ofDecimal negative digits exponent).isNaN = false := by
  rw [ofDecimal]
  split
  · rfl
  · split
    · rfl
    · split
      · rfl
      · split <;> exact isNaN_ofQuotient

end Binary64

namespace Numeral

theorem natural_eq_ofDigitChars {ds : List Char} : natural ds = Nat.ofDigitChars 10 ds 0 := by
  rw [natural, Nat.ofDigitChars_eq_foldl]
  rfl

theorem natural_append {ds es : List Char} :
    natural (ds ++ es) = 10 ^ es.length * natural ds + natural es := by
  simp only [natural_eq_ofDigitChars]
  rw [Nat.ofDigitChars_append, Nat.ofDigitChars_eq_ofDigitChars_zero]

theorem natural_replicate_zero {n : Nat} : natural (List.replicate n '0') = 0 := by
  rw [natural_eq_ofDigitChars, Nat.ofDigitChars_replicate_zero, Nat.mul_zero]

/-- **The digits of a number denote it.** -/
theorem natural_digits {n : Nat} : natural (Notation.digits n) = n := by
  rw [natural_eq_ofDigitChars, Notation.digits, Nat.ofDigitChars_ten_toDigits]

theorem isDigit_digits {n : Nat} : ∀ c ∈ Notation.digits n, isDigit c = true := by
  intro c hc
  have h : c.isDigit = true := Nat.isDigit_of_mem_toDigits (by decide) (by decide) hc
  simpa [isDigit, Char.isDigit, Char.le_def] using h

theorem digits_ne_nil {n : Nat} : Notation.digits n ≠ [] := Nat.toDigits_ne_nil

/-- The sign before a numeral. -/
def sign (negative : Bool) : List Char := if negative then ['-'] else []

theorem toList_toString (i : Int) :
    (toString i).toList = sign (i < 0) ++ Notation.digits i.natAbs := by
  cases i with
  | ofNat m =>
    have hnonneg : ¬ Int.ofNat m < 0 := Int.not_lt.mpr (Int.natCast_nonneg m)
    rw [Int.toString_eq_repr, Int.repr, Nat.toList_repr, decide_eq_false hnonneg]
    rfl
  | negSucc m =>
    have hneg := Int.negSucc_lt_zero m
    rw [Int.toString_eq_repr, Int.repr_eq_if, if_neg (Int.not_le.mpr hneg), String.toList_append,
      Nat.toList_repr, decide_eq_true hneg]
    rfl

/-- **An integer reads back from its text.** -/
theorem int_text (n : Int64) : ∃ negative ds, (Literal.int n).text.toList = sign negative ++ ds ∧
    ds ≠ [] ∧ (∀ c ∈ ds, isDigit c = true) ∧ int64? negative (natural ds) = some n := by
  have hle : n.toInt ≤ 9223372036854775807 := n.toInt_le
  have hge : -9223372036854775808 ≤ n.toInt := n.le_toInt
  refine ⟨_, _, toList_toString n.toInt, digits_ne_nil, isDigit_digits, ?_⟩
  rw [natural_digits, int64?]
  split
  case isTrue hneg =>
    have hneg := of_decide_eq_true hneg
    rw [if_pos (by omega), show -(n.toInt.natAbs : Int) = n.toInt by omega, Int64.ofInt_toInt]
  case isFalse hnonneg =>
    have hnonneg := of_decide_eq_false (Bool.eq_false_iff.mpr hnonneg)
    rw [if_pos (by omega), ← Int64.ofInt_eq_ofNat, show (n.toInt.natAbs : Int) = n.toInt by omega,
      Int64.ofInt_toInt]

theorem isDigit_ne {c d : Char} (hc : isDigit c = true) (hd : isDigit d = false) : c ≠ d := by
  rintro rfl
  rw [hc] at hd
  cases hd

theorem splitSign_sign {negative : Bool} {c : Char} {cs : List Char} (hc : isDigit c = true) :
    splitSign (sign negative ++ c :: cs) = (negative, c :: cs) := by
  have hminus : c ≠ '-' := isDigit_ne hc rfl
  have hplus : c ≠ '+' := isDigit_ne hc rfl
  cases negative <;> simp [sign, splitSign, hminus, hplus]

/-- **An integer reads back from its digits.** -/
theorem readInt64_toString {n : Int64} :
    readInt64 (toString n.toInt).toList = some n := by
  obtain ⟨negative, ds, htext, hne, hdigits, hn⟩ := int_text n
  have hsplit : splitSign (toString n.toInt).toList = (negative, ds) := by
    rw [show (toString n.toInt).toList = sign negative ++ ds from htext]
    obtain ⟨c, cs, rfl⟩ := List.exists_cons_of_ne_nil hne
    exact splitSign_sign (hdigits c List.mem_cons_self)
  have hall : ds.all isDigit = true := List.all_eq_true.mpr hdigits
  rw [readInt64, hsplit]
  simp [hall, hne, hn]

end Numeral

end Ascription
