import Ascription.Proofs.Number.Digits

/-!
# Proofs/Number/Integer — which integer a text denotes

    7   +7   007  ──▸  7          -7   -007  ──▸  -7

An integer of 64 bits is read from exactly the texts that denote it, and there is more than one.
-/

namespace Ascription

namespace Numeral

/-- **The integer that a text denotes**: decimal digits, at least one, behind at most one sign. -/
inductive Denotes : List Char → Int → Prop
  | bare {ds : List Char} (ne_nil : ds ≠ []) (digits : ∀ c ∈ ds, isDigit c = true) :
      Denotes ds (natural ds)
  | plus {ds : List Char} (ne_nil : ds ≠ []) (digits : ∀ c ∈ ds, isDigit c = true) :
      Denotes ('+' :: ds) (natural ds)
  | minus {ds : List Char} (ne_nil : ds ≠ []) (digits : ∀ c ∈ ds, isDigit c = true) :
      Denotes ('-' :: ds) (-(natural ds : Int))

theorem ofInt_eq_iff {i : Int} {n : Int64} (hlow : -9223372036854775808 ≤ i)
    (hhigh : i ≤ 9223372036854775807) : Int64.ofInt i = n ↔ n.toInt = i := by
  constructor
  · rintro rfl
    exact Int64.toInt_ofInt_of_le hlow (Int.lt_add_one_of_le hhigh)
  · rintro rfl
    exact Int64.ofInt_toInt n

theorem int64?_eq_some {negative : Bool} {m : Nat} {n : Int64} :
    int64? negative m = some n ↔ n.toInt = if negative then -(m : Int) else m := by
  have hle : n.toInt ≤ 9223372036854775807 := n.toInt_le
  have hge : -9223372036854775808 ≤ n.toInt := n.le_toInt
  cases negative with
  | true =>
    rw [int64?, if_pos rfl, if_pos rfl, Option.ite_none_right_eq_some, Option.some.injEq]
    constructor
    · rintro ⟨_, h⟩
      exact (ofInt_eq_iff (by omega) (by omega)).mp h
    · intro h
      exact ⟨by omega, (ofInt_eq_iff (by omega) (by omega)).mpr h⟩
  | false =>
    rw [int64?, if_neg Bool.false_ne_true, if_neg Bool.false_ne_true, Option.ite_none_right_eq_some,
      Option.some.injEq, ← Int64.ofInt_eq_ofNat]
    constructor
    · rintro ⟨_, h⟩
      exact (ofInt_eq_iff (by omega) (by omega)).mp h
    · intro h
      exact ⟨by omega, (ofInt_eq_iff (by omega) (by omega)).mpr h⟩

theorem readInt64_of_splitSign {cs ds : List Char} {negative : Bool} {n : Int64}
    (hsplit : splitSign cs = (negative, ds)) (hne : ds ≠ []) (hall : ∀ c ∈ ds, isDigit c = true)
    (hn : n.toInt = if negative then -(natural ds : Int) else natural ds) :
    readInt64 cs = some n := by
  have hdigits : ds.all isDigit = true := List.all_eq_true.mpr hall
  rw [readInt64, hsplit, ← int64?_eq_some.mpr hn]
  simp [hne, hdigits]

/-- **A text is read as the integer it denotes**, where that has 64 bits. -/
theorem readInt64_eq_some {cs : List Char} {n : Int64} :
    readInt64 cs = some n ↔ Denotes cs n.toInt := by
  constructor
  · intro h
    rw [readInt64] at h
    cases hsplit : splitSign cs with
    | mk negative ds =>
    rw [hsplit] at h
    obtain ⟨hvalid, h⟩ := Option.ite_none_left_eq_some.mp h
    obtain ⟨hne, hall⟩ : ds ≠ [] ∧ ∀ c ∈ ds, isDigit c = true := by simpa using hvalid
    rw [int64?_eq_some.mp h]
    rw [splitSign.eq_def] at hsplit
    split at hsplit <;> cases hsplit
    case h_1 => exact .minus hne hall
    case h_2 => exact .plus hne hall
    case h_3 => exact .bare hne hall
  · generalize hn : n.toInt = i
    intro h
    cases h with
    | bare hne hall =>
      obtain ⟨c, ds, rfl⟩ := List.exists_cons_of_ne_nil hne
      exact readInt64_of_splitSign (@splitSign_sign false c ds (hall c List.mem_cons_self)) hne hall
        hn
    | plus hne hall => exact readInt64_of_splitSign rfl hne hall hn
    | minus hne hall => exact readInt64_of_splitSign rfl hne hall hn

end Numeral

end Ascription
