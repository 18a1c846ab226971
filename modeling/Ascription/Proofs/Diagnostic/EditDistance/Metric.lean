import Ascription.Proofs.Diagnostic.EditDistance
import Mathlib.Data.List.Infix
import Mathlib.Order.Bounds.Defs

/-!
# Proofs/Diagnostic/EditDistance/Metric — the distance is the least cost of an edit

    as  ──edited at cost n──▸  bs  ──edited at cost m──▸  cs
    as  ──edited at cost no more than n + m──▸  cs

An edit goes through both texts at once and leaves out, puts in or replaces one character
after the other; the recursive distance is the least cost of one.  Edits can be turned round,
read backwards and followed by others, and what this does to their cost is what the distance
obeys: it is symmetric, the same for the texts read backwards, zero for equal texts alone,
and no detour is shorter.
-/

namespace Ascription

namespace EditDistance

/-! ## The cost of a replacement -/

section

variable {a b : Char}

@[simp] theorem cost_self (a : Char) : cost a a = 0 := if_pos rfl

theorem cost_eq_zero : cost a b = 0 ↔ a = b := by
  rw [cost]
  split <;> simpa

theorem cost_comm (a b : Char) : cost a b = cost b a := by
  simp only [cost, eq_comm]

/-- A replacement by way of a third character costs no less. -/
theorem cost_triangle (a b c : Char) : cost a c ≤ cost a b + cost b c := by
  by_cases hab : a = b
  · rw [hab, cost_self, Nat.zero_add]
  · have hone : cost a b = 1 := if_neg hab
    have hle : cost a c ≤ 1 := by rw [cost]; split <;> decide
    omega

end

/-! ## Edits -/

/-- **An edit of one text into another, at a cost**: from the front of both, one character is left
out, put in, or replaced by another. -/
inductive Edits : List Char → List Char → Nat → Prop
  | done : Edits [] [] 0
  | delete (a : Char) {as bs : List Char} {n : Nat} : Edits as bs n → Edits (a :: as) bs (n + 1)
  | insert (b : Char) {as bs : List Char} {n : Nat} : Edits as bs n → Edits as (b :: bs) (n + 1)
  | replace (a b : Char) {as bs : List Char} {n : Nat} :
      Edits as bs n → Edits (a :: as) (b :: bs) (n + cost a b)

variable {as bs cs as' bs' : List Char} {a b : Char} {n m : Nat}

namespace Edits

/-- What stays as it is costs nothing. -/
theorem refl : ∀ as : List Char, Edits as as 0
  | [] => done
  | a :: as => by simpa using (refl as).replace a a

/-- **Only what stays as it is costs nothing.** -/
theorem eq_of_cost_eq_zero (h : Edits as bs n) (hn : n = 0) : as = bs := by
  induction h with
  | done => rfl
  | delete => cases hn
  | insert => cases hn
  | replace a b _ ih =>
    obtain ⟨hn, hcost⟩ := Nat.add_eq_zero_iff.mp hn
    rw [ih hn, cost_eq_zero.mp hcost]

/-- **An edit turned round**: what was left out is put in. -/
theorem symm (h : Edits as bs n) : Edits bs as n := by
  induction h with
  | done => exact done
  | delete a _ ih => exact ih.insert a
  | insert b _ ih => exact ih.delete b
  | replace a b _ ih => exact cost_comm a b ▸ ih.replace b a

theorem nil_left : ∀ bs : List Char, Edits [] bs bs.length
  | [] => done
  | b :: bs => (nil_left bs).insert b

theorem append (h : Edits as bs n) (h' : Edits as' bs' m) :
    Edits (as ++ as') (bs ++ bs') (n + m) := by
  induction h with
  | done => rwa [Nat.zero_add]
  | delete a _ ih => rw [Nat.add_right_comm]; exact ih.delete a
  | insert b _ ih => rw [Nat.add_right_comm]; exact ih.insert b
  | replace a b _ ih => rw [Nat.add_right_comm]; exact ih.replace a b

/-- **An edit read backwards**: each step of it moves from the front to the end. -/
theorem reverse (h : Edits as bs n) : Edits as.reverse bs.reverse n := by
  induction h with
  | done => exact done
  | delete a _ ih => simpa using ih.append (done.delete a)
  | insert b _ ih => simpa using ih.append (done.insert b)
  | replace a b _ ih => simpa using ih.append (done.replace a b)

/-- **An edit followed by another**: what the one puts in the other may leave out or replace, so
that both together cost no less than the edit at once. -/
theorem trans {as bs cs : List Char} {n m : Nat} :
    Edits as bs n → Edits bs cs m → ∃ k ≤ n + m, Edits as cs k
  -- Steps that leave the middle text alone go into the edit at once; the others meet in pairs
  -- at its first character.
  | h, .insert c h' =>
    have ⟨k, hk, hac⟩ := h.trans h'
    ⟨k + 1, by omega, hac.insert c⟩
  | .delete a h, h' =>
    have ⟨k, hk, hac⟩ := h.trans h'
    ⟨k + 1, by omega, hac.delete a⟩
  | .done, .done => ⟨0, Nat.le_refl 0, .done⟩
  | .insert _ h, .delete _ h' =>
    have ⟨k, hk, hac⟩ := h.trans h'
    ⟨k, by omega, hac⟩
  | .insert _ h, .replace _ c h' =>
    have ⟨k, hk, hac⟩ := h.trans h'
    ⟨k + 1, by omega, hac.insert c⟩
  | .replace a _ h, .delete _ h' =>
    have ⟨k, hk, hac⟩ := h.trans h'
    ⟨k + 1, by omega, hac.delete a⟩
  | .replace a b h, .replace _ c h' =>
    have ⟨k, hk, hac⟩ := h.trans h'
    have hcost := cost_triangle a b c
    ⟨k + cost a c, by omega, hac.replace a c⟩
termination_by as.length + bs.length + cs.length

end Edits

/-! ## The least cost -/

theorem between_cons_left_le : between (a :: as) bs ≤ between as bs + 1 := by
  cases bs with
  | nil => rw [between_nil_right, between_nil_right, List.length_cons]
  | cons b bs => rw [between_cons]; omega

theorem between_cons_right_le : between as (b :: bs) ≤ between as bs + 1 := by
  cases as with
  | nil => rw [between_nil_left, between_nil_left, List.length_cons]
  | cons a as => rw [between_cons]; omega

/-- **No edit costs less than the distance.** -/
theorem Edits.between_le (h : Edits as bs n) : between as bs ≤ n := by
  induction h with
  | done => exact Nat.le_of_eq between_nil_left
  | delete a _ ih => exact Nat.le_trans between_cons_left_le (Nat.add_le_add_right ih 1)
  | insert b _ ih => exact Nat.le_trans between_cons_right_le (Nat.add_le_add_right ih 1)
  | replace a b _ ih => rw [between_cons]; omega

/-- **There is an edit at the cost of the distance**: each step takes what is least. -/
theorem edits_between (as bs : List Char) : Edits as bs (between as bs) := by
  induction as, bs using between.induct with
  | case1 bs => rw [between_nil_left]; exact .nil_left bs
  | case2 as => rw [between_nil_right]; exact (Edits.nil_left as).symm
  | case3 a as b bs ihDelete ihInsert ihReplace =>
    have hleast : between (a :: as) (b :: bs) = between as (b :: bs) + 1 ∨
        between (a :: as) (b :: bs) = between (a :: as) bs + 1 ∨
        between (a :: as) (b :: bs) = between as bs + cost a b := by
      rw [between_cons]
      omega
    obtain h | h | h := hleast <;> rw [h]
    · exact ihDelete.delete a
    · exact ihInsert.insert b
    · exact ihReplace.replace a b

/-- **The recursive distance is the least cost of an edit.** -/
theorem isLeast_between : IsLeast {n | Edits as bs n} (between as bs) :=
  ⟨edits_between as bs, fun _ h => h.between_le⟩

theorem between_comm (as bs : List Char) : between as bs = between bs as :=
  Nat.le_antisymm (edits_between bs as).symm.between_le (edits_between as bs).symm.between_le

theorem between_eq_zero : between as bs = 0 ↔ as = bs := by
  constructor
  · exact (edits_between as bs).eq_of_cost_eq_zero
  · rintro rfl
    exact Nat.le_zero.mp (Edits.refl as).between_le

theorem between_triangle (as bs cs : List Char) :
    between as cs ≤ between as bs + between bs cs := by
  obtain ⟨k, hk, h⟩ := (edits_between as bs).trans (edits_between bs cs)
  exact Nat.le_trans h.between_le hk

/-- **The distance is the same for the texts read backwards.** -/
theorem between_reverse (as bs : List Char) : between as.reverse bs.reverse = between as bs := by
  refine Nat.le_antisymm (edits_between as bs).reverse.between_le ?_
  simpa using (edits_between as.reverse bs.reverse).reverse.between_le

/-! ## Rows of the texts as they are read -/

theorem row_eq_map_inits {ras rbs : List Char} :
    row ras rbs bs = bs.inits.map fun front => between ras (front.reverse ++ rbs) := by
  induction bs generalizing rbs with
  | nil => rfl
  | cons b bs ih => simp [row, ih, Function.comp_def]

theorem row_reverse : row as.reverse [] bs = bs.inits.map (between as) := by
  simp only [row_eq_map_inits, List.append_nil, between_reverse]

/-- **One more character makes the next row of the table**, whatever the texts: from the distances
of a text to what the other begins with come those of the text with the character behind it. -/
theorem nextRow_map_inits :
    nextRow bs (bs.inits.map (between as)) a = bs.inits.map (between (as ++ [a])) := by
  rw [← row_reverse, nextRow_row, ← row_reverse, List.reverse_append]
  rfl

/-- **The last row holds the distances to all that the second text begins with.** -/
theorem lastRow_eq_map_inits : lastRow as bs = bs.inits.map (between as) := by
  rw [lastRow_eq_row, row_reverse]

end EditDistance

open EditDistance

/-- **The distance that is computed is the recursive one.** -/
theorem editDistance_eq_between (s t : String) : editDistance s t = between s.toList t.toList := by
  rw [editDistance_eq_between_reverse, between_reverse]

/-- **The distance of two texts is the least cost of an edit of the one into the other.** -/
theorem isLeast_editDistance (s t : String) :
    IsLeast {n | Edits s.toList t.toList n} (editDistance s t) := by
  rw [editDistance_eq_between]
  exact isLeast_between

/-- **The distance that is computed is the recursive one, and a metric**: it is symmetric, it is
zero exactly for equal texts, and the way by a third text is no shorter. -/
theorem editDistance_metric (s t u : String) :
    editDistance s t = between s.toList t.toList ∧
    editDistance s t = editDistance t s ∧
    (editDistance s t = 0 ↔ s = t) ∧
    editDistance s u ≤ editDistance s t + editDistance t u := by
  simp only [editDistance_eq_between]
  refine ⟨trivial, between_comm .., ?_, between_triangle ..⟩
  rw [between_eq_zero, String.toList_inj]

end Ascription
