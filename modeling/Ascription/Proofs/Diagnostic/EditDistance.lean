import Ascription.Diagnostic.Suggestion

/-!
# Proofs/Diagnostic/EditDistance — the rows of the table

            b₁       b₂     …     bₙ
       r₀   r₁       r₂           rₙ      row above
    a  …    ▾        ▾            ▾
       s₀   s₁       s₂           sₙ      next row

The distances between the prefixes of two texts make a table.  A prefix grows at its end, so the
table is read by the reversed prefixes: there the last characters come first and the recursion is on
them.  Each row that is computed holds the entries of one prefix of the first text.
-/

namespace Ascription

namespace EditDistance

/-- **The distance by recursion on the first characters**: what remains of one text where the other
is empty, else the least of leaving out the first character of the one, that of the other, and
putting the one in the place of the other. -/
def between : List Char → List Char → Nat
  | [], bs => bs.length
  | as, [] => as.length
  | a :: as, b :: bs =>
    min (min (between as (b :: bs) + 1) (between (a :: as) bs + 1)) (between as bs + cost a b)

variable {a b : Char} {as bs : List Char}

@[simp] theorem between_nil_left : between [] bs = bs.length := by rw [between]

@[simp] theorem between_nil_right : between as [] = as.length := by
  cases as <;> simp [between]

theorem between_cons : between (a :: as) (b :: bs) =
    min (min (between as (b :: bs) + 1) (between (a :: as) bs + 1)) (between as bs + cost a b) := by
  rw [between]

/-- **The lengths of two texts differ by no more than their distance**: a step of the recursion
leaves out at most one character of each. -/
theorem length_le_between (as bs : List Char) :
    as.length ≤ bs.length + between as bs ∧ bs.length ≤ as.length + between as bs := by
  induction as, bs using between.induct with
  | case1 bs => simp
  | case2 as => simp
  | case3 a as b bs ihLeft ihRight ihBoth =>
    rw [between_cons]
    simp only [List.length_cons] at ihLeft ihRight ihBoth ⊢
    omega

/-! ## Rows -/

/-- **A row of the table**: the distances of a text to those that `rbs` becomes as the characters
are added, all texts read backwards. -/
def row (ras rbs : List Char) : List Char → List Nat
  | [] => [between ras rbs]
  | b :: bs => between ras rbs :: row ras (b :: rbs) bs

variable {ras rbs : List Char}

/-- The head of a row and what is behind it. -/
theorem row_eq : row ras rbs bs = between ras rbs :: (row ras rbs bs).tail := by
  cases bs <;> rfl

/-- **The rest of a row is computed from the row above**, from the place of its first entry. -/
theorem rowFrom_row :
    rowFrom a (between (a :: ras) rbs) (row ras rbs bs) bs = (row (a :: ras) rbs bs).tail := by
  induction bs generalizing rbs with
  | nil => rfl
  | cons b bs ih =>
    have hup : row ras (b :: rbs) bs = between ras (b :: rbs) :: (row ras (b :: rbs) bs).tail :=
      row_eq
    rw [row, hup, rowFrom, ← hup, ← between_cons, ih, ← row_eq]
    rfl

/-- **One more character makes the next row.** -/
theorem nextRow_row : nextRow bs (row ras [] bs) a = row (a :: ras) [] bs := by
  have hfirst : (row ras [] bs).headD 0 + 1 = between (a :: ras) [] := by
    rw [row_eq, List.headD_cons, between_nil_right, between_nil_right, List.length_cons]
  rw [nextRow, hfirst, rowFrom_row, ← row_eq]

/-- The first row counts the characters. -/
theorem row_nil : row [] rbs bs = List.range' rbs.length (bs.length + 1) := by
  induction bs generalizing rbs with
  | nil => simp [row]
  | cons b bs ih =>
    rw [row, ih, between_nil_left, List.length_cons, List.length_cons, ← List.range'_succ]

theorem foldl_nextRow_row :
    as.foldl (nextRow bs) (row ras [] bs) = row (as.reverse ++ ras) [] bs := by
  induction as generalizing ras with
  | nil => rfl
  | cons a as ih => rw [List.foldl_cons, nextRow_row, ih, List.reverse_cons, List.append_assoc]; rfl

/-- **The last row holds the distances of the whole first text.** -/
theorem lastRow_eq_row : lastRow as bs = row as.reverse [] bs := by
  have hstart : List.range (bs.length + 1) = row [] [] bs := by
    rw [row_nil, List.length_nil, ← List.range_eq_range']
  rw [lastRow, hstart, foldl_nextRow_row, List.append_nil]

theorem getLastD_row {d : Nat} : (row ras rbs bs).getLastD d = between ras (bs.reverse ++ rbs) := by
  induction bs generalizing rbs d with
  | nil => rfl
  | cons b bs ih => rw [row, List.getLastD_cons, ih, List.reverse_cons, List.append_assoc]; rfl

end EditDistance

open EditDistance

variable {s t : String}

/-- **The distance that is computed is the recursive one of the texts read backwards.** -/
theorem editDistance_eq_between_reverse :
    editDistance s t = between s.toList.reverse t.toList.reverse := by
  rw [editDistance, lastRow_eq_row, getLastD_row, List.append_nil]

/-- **The numbers of characters of two texts differ by no more than their distance.** -/
theorem length_le_editDistance (s t : String) :
    s.length ≤ t.length + editDistance s t ∧ t.length ≤ s.length + editDistance s t := by
  have h := length_le_between s.toList.reverse t.toList.reverse
  simpa only [← editDistance_eq_between_reverse, List.length_reverse, String.length_toList] using h

end Ascription
