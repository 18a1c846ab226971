import Ascription.Json
import Mathlib.Data.List.Perm.Basic

/-!
# Proofs/Json — documents

Sorting rearranges members of distinct names and loses none, and an integer reads back from the
number it is written as.
-/

namespace Ascription

/-! ## Numbers -/

namespace JsonNumber

/-- **An integer is read back from its number.** -/
theorem toInt64?_ofInt64 {n : Int64} : (ofInt64 n).toInt64? = some n := by
  rw [ofInt64]
  split
  case isTrue => rfl
  case isFalse hn =>
    have hle : n.toInt ≤ 9223372036854775807 := n.toInt_le
    have hge : 0 ≤ n.toInt := by simpa [Int64.lt_iff_toInt_lt] using hn
    have hnat : n.toInt.toNat.toUInt64.toNat = n.toInt.toNat := by
      change n.toInt.toNat % 2 ^ 64 = _
      omega
    rw [toInt64?, hnat, if_pos (by omega), ← Int64.ofInt_eq_ofNat, Int.toNat_of_nonneg hge,
      Int64.ofInt_toInt]

/-- No integer is written as a float. -/
theorem ofInt64_ne_float {n : Int64} {x : Binary64} {h : x.isFinite = true} :
    ofInt64 n ≠ float x h := by
  rw [ofInt64]
  split <;> exact nofun

end JsonNumber

/-! ## Sorted members -/

namespace Json

theorem insertSorted_perm {name : String} {value : Json} : ∀ {members : List (String × Json)},
    name ∉ members.map Prod.fst → (insertSorted name value members).Perm ((name, value) :: members)
  | [], _ => .refl _
  | (name', value') :: rest, h => by
    obtain ⟨hne, hrest⟩ : name ≠ name' ∧ name ∉ rest.map Prod.fst := by simpa using h
    rw [insertSorted, if_neg hne]
    split
    case isTrue => exact .refl _
    case isFalse => exact ((insertSorted_perm hrest).cons _).trans (.swap ..)

theorem foldl_insertSorted_perm {members done : List (String × Json)}
    (h : ((done ++ members).map Prod.fst).Nodup) :
    (members.foldl (fun acc m => insertSorted m.1 m.2 acc) done).Perm (done ++ members) := by
  induction members generalizing done with
  | nil => simp
  | cons m ms ih =>
    have hmiddle : ((m :: (done ++ ms)).map Prod.fst).Nodup :=
      ((List.perm_middle.map Prod.fst).nodup_iff).mp h
    have hnew : m.1 ∉ done.map Prod.fst := by
      obtain ⟨hnotMem, -⟩ := List.nodup_cons.mp hmiddle
      exact fun hm => hnotMem (by simpa using .inl (by simpa using hm))
    have hinsert : (insertSorted m.1 m.2 done).Perm (m :: done) := insertSorted_perm hnew
    have happend : (insertSorted m.1 m.2 done ++ ms).Perm (m :: (done ++ ms)) :=
      hinsert.append_right ms
    exact (ih (((happend.map Prod.fst).nodup_iff).mpr hmiddle)).trans
      (happend.trans List.perm_middle.symm)

/-- **Sorting keeps members of distinct names**, in another order. -/
theorem sortMembers_perm {members : List (String × Json)} (h : (members.map Prod.fst).Nodup) :
    (sortMembers members).Perm members := foldl_insertSorted_perm h

/-- Members made from parts, when sorted, are made from the parts in another order. -/
theorem sortMembers_map {α : Type} {part : α → String × Json} {parts : List α}
    (h : ((parts.map part).map Prod.fst).Nodup) :
    ∃ reordered : List α, reordered.Perm parts ∧
      sortMembers (parts.map part) = reordered.map part := by
  obtain ⟨reordered, heq, hperm⟩ :=
    (congrFun₂ (List.eq_map_comp_perm part) _ _).mpr (sortMembers_perm h)
  exact ⟨reordered, hperm, heq⟩

end Json

end Ascription
