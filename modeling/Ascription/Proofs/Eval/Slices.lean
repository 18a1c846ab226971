import Ascription.Eval.Builtin
import Mathlib.Algebra.Group.Nat.Defs

/-!
# Proofs/Eval/Slices — what `substr` and `take` cut out

    substr    the characters at the places  first ≤ i < last
    take      the items at the places       0 ≤ i < kept

Which places those are is said with integers of any size.  The functions count in 64 bits: where
each of their steps is checked to stay within its type, and each place to be one of the text or
list, no check ever fails.
-/

namespace Ascription

/-! ## Checked arithmetic -/

namespace Checked

/-- The sum, if it fits. -/
def add? (a b : Int64) : Option Int64 := ofInt? (a.toInt + b.toInt)

/-- An integer as a natural number of 64 bits, if it is one. -/
def word? (n : Int) : Option Nat := if 0 ≤ n ∧ n < 18446744073709551616 then some n.toNat else none

theorem word?_eq_some {n : Int} (hlow : 0 ≤ n) (hhigh : n < 18446744073709551616) :
    word? n = some n.toNat := if_pos ⟨hlow, hhigh⟩

theorem ofInt?_eq_some {n : Int} (hlow : -9223372036854775808 ≤ n)
    (hhigh : n ≤ 9223372036854775807) : ofInt? n = some (Int64.ofInt n) := if_pos ⟨hlow, hhigh⟩

theorem toInt_ofInt {n : Int} (hlow : -9223372036854775808 ≤ n) (hhigh : n ≤ 9223372036854775807) :
    (Int64.ofInt n).toInt = n := Int64.toInt_ofInt_of_le hlow (Int.lt_add_one_of_le hhigh)

section

variable {a b : Int64} (hlow : -9223372036854775808 ≤ a.toInt + b.toInt)
  (hhigh : a.toInt + b.toInt ≤ 9223372036854775807)

include hlow hhigh

theorem toInt_add : (a + b).toInt = a.toInt + b.toInt := by
  rw [← Int64.ofInt_toInt a, ← Int64.ofInt_toInt b, ← Int64.ofInt_add, Int64.ofInt_toInt,
    Int64.ofInt_toInt, toInt_ofInt hlow hhigh]

/-- A sum that fits is the sum of the words. -/
theorem add?_eq_some : add? a b = some (a + b) := by
  rw [add?, ofInt?_eq_some hlow hhigh, Int64.ofInt_add, Int64.ofInt_toInt, Int64.ofInt_toInt]

end

theorem neg_iff {a : Int64} : a < 0 ↔ a.toInt < 0 := Int64.lt_iff_toInt_lt

theorem toInt_lesser {a b : Int64} : (if a < b then a else b).toInt = min a.toInt b.toInt := by
  simp only [Int64.lt_iff_toInt_lt]
  split <;> omega

theorem toInt_nonnegative {a : Int64} : (if a < 0 then 0 else a).toInt = max 0 a.toInt := by
  simp only [neg_iff]
  split
  · rw [Int64.toInt_zero]
    omega
  · omega

/-- **A saturated sum is the sum**, held back at the ends of the range. -/
theorem toInt_saturatingAdd {a b : Int64} : (saturatingAdd a b).toInt =
    max (-9223372036854775808) (min 9223372036854775807 (a.toInt + b.toInt)) := by
  rw [saturatingAdd, ofInt?]
  split
  case h_1 n hn =>
    split at hn
    case isTrue hfits =>
      cases hn
      rw [toInt_ofInt hfits.1 hfits.2]
      omega
    case isFalse => cases hn
  case h_2 hn =>
    split at hn
    case isTrue => cases hn
    case isFalse =>
      split
      · rw [Int64.toInt_minValue]
        omega
      · rw [Int64.toInt_maxValue]
        omega

end Checked

/-! ## Places -/

/-- **The items at the places `first ≤ i < last`** of a list. -/
def between {α : Type} (first last : Int) (as : List α) : List α :=
  (as.zipIdx.filter fun (_, i) => first ≤ i ∧ i < last).map Prod.fst

theorem filter_zipIdx {α : Type} {first last : Int} (as : List α) (k : Nat) :
    ((as.zipIdx k).filter fun (_, i) => first ≤ i ∧ i < last).map Prod.fst =
      (as.take (last - k).toNat).drop (first - k).toNat := by
  induction as generalizing k with
  | nil => simp
  | cons a as ih =>
    have ih := ih (k + 1)
    rw [List.zipIdx_cons, List.filter_cons]
    obtain hlast | hlast := Int.lt_or_le k last
    · have htake : (last - k).toNat = (last - (k + 1 : Nat)).toNat + 1 := by omega
      rw [htake, List.take_succ_cons]
      obtain hfirst | hfirst := Int.lt_or_le k first
      · have hdrop : (first - k).toNat = (first - (k + 1 : Nat)).toNat + 1 := by omega
        rw [if_neg (by simp; omega), ih, hdrop, List.drop_succ_cons]
      · have hdrop : (first - k).toNat = 0 ∧ (first - (k + 1 : Nat)).toNat = 0 := by omega
        rw [if_pos (by simp; omega), List.map_cons, ih, hdrop.1, hdrop.2]
        rfl
    · have htake : (last - k).toNat = 0 ∧ (last - (k + 1 : Nat)).toNat = 0 := by omega
      rw [if_neg (by simp; omega), ih, htake.1, htake.2]
      simp

theorem between_eq {α : Type} {first last : Int} {as : List α} :
    between first last as = (as.take last.toNat).drop first.toNat := by
  have h := @filter_zipIdx α first last as 0
  rwa [Int.natCast_zero, Int.sub_zero, Int.sub_zero] at h

namespace Builtin

/-- The place where a slice of a text of `n` characters starts. -/
def firstPlace (n : Nat) (start : Int) : Int := if start < 0 then max 0 (n + start) else min start n

/-- The place behind the last of a slice that starts at `first`. -/
def lastPlace (n : Nat) (first count : Int) : Int :=
  if count < 0 then n + count else min n (first + count)

/-- How many of `n` items are kept. -/
def keptCount (n : Nat) (k : Int) : Int := if 0 ≤ k then min k n else max 0 (n + k)

/-! ## The start and the end of a slice -/

/-- The start of a slice. -/
def sliceFirst (length start : Int64) : Int64 :=
  if start < 0 then (if length + start < 0 then 0 else length + start)
  else if start < length then start else length

/-- The end of a slice. -/
def sliceLast (length first count : Int64) : Int64 :=
  if count < 0 then length + count
  else
    let stop := Checked.saturatingAdd first count
    if stop < length then stop else length

/-- The characters that a slice takes from its start to its end. -/
theorem slice_eq {cs : List Char} {start count : Int64} : slice cs start count =
    let first := sliceFirst (Int64.ofNat cs.length) start
    let last := sliceLast (Int64.ofNat cs.length) first count
    if last ≤ first then [] else (cs.take last.toInt.toNat).drop first.toInt.toNat := rfl

/-- The start of a slice, where the sum has to fit. -/
def sliceFirst? (length start : Int64) : Option Int64 :=
  if start < 0 then (Checked.add? length start).map fun place => if place < 0 then 0 else place
  else Option.some (if start < length then start else length)

/-- The end of a slice, where the sum has to fit unless it is held back. -/
def sliceLast? (length first count : Int64) : Option Int64 :=
  if count < 0 then Checked.add? length count
  else
    let stop := Checked.saturatingAdd first count
    Option.some (if stop < length then stop else length)

section

variable {n : Nat} (hn : n ≤ 2 ^ 62)

include hn

theorem toInt_length : (Int64.ofNat n).toInt = n := Int64.toInt_ofNat_of_lt (by omega)

/-- A place counted from the end fits. -/
theorem add?_length {a : Int64} (ha : a < 0) :
    Checked.add? (Int64.ofNat n) a = Option.some (Int64.ofNat n + a) ∧
      (Int64.ofNat n + a).toInt = n + a.toInt := by
  have hlength := toInt_length hn
  have hle : -9223372036854775808 ≤ a.toInt := a.le_toInt
  have hneg : a.toInt < 0 := Int64.lt_iff_toInt_lt.mp ha
  rw [← hlength]
  exact ⟨Checked.add?_eq_some (by omega) (by omega), Checked.toInt_add (by omega) (by omega)⟩

theorem sliceFirst?_eq (start : Int64) :
    sliceFirst? (Int64.ofNat n) start = Option.some (sliceFirst (Int64.ofNat n) start) := by
  rw [sliceFirst?, sliceFirst]
  split
  case isTrue hneg =>
    rw [(add?_length hn hneg).1]
    rfl
  case isFalse => rfl

theorem sliceLast?_eq (first count : Int64) :
    sliceLast? (Int64.ofNat n) first count =
      Option.some (sliceLast (Int64.ofNat n) first count) := by
  rw [sliceLast?, sliceLast]
  split
  case isTrue hneg => rw [(add?_length hn hneg).1]
  case isFalse => rfl

theorem toInt_sliceFirst (start : Int64) :
    (sliceFirst (Int64.ofNat n) start).toInt = firstPlace n start.toInt := by
  simp only [sliceFirst, firstPlace, ← Checked.neg_iff]
  split
  case isTrue hneg => rw [Checked.toInt_nonnegative, (add?_length hn hneg).2]
  case isFalse => rw [Checked.toInt_lesser, toInt_length hn]

/-- Where the sum is held back it is beyond the end of the text. -/
theorem toInt_sliceLast {first : Int64} (hfirst : 0 ≤ first.toInt) (count : Int64) :
    (sliceLast (Int64.ofNat n) first count).toInt = lastPlace n first.toInt count.toInt := by
  simp only [sliceLast, lastPlace, ← Checked.neg_iff]
  split
  case isTrue hneg => exact (add?_length hn hneg).2
  case isFalse hcount =>
    rw [Checked.neg_iff] at hcount
    rw [Checked.toInt_lesser, toInt_length hn, Checked.toInt_saturatingAdd]
    omega

end

theorem firstPlace_nonneg {n : Nat} {start : Int} : 0 ≤ firstPlace n start := by
  rw [firstPlace]
  split <;> omega

theorem lastPlace_le {n : Nat} {first count : Int} : lastPlace n first count ≤ n := by
  rw [lastPlace]
  split <;> omega

/-! ## Slices -/

/-- **A slice with every step checked**: the sums have to fit, and the places to be places of the
text. -/
def slice? (cs : List Char) (start count : Int64) : Option (List Char) := do
  let length ← Checked.ofInt? cs.length
  let first ← sliceFirst? length start
  let last ← sliceLast? length first count
  if last ≤ first then return []
  else if 0 ≤ first ∧ last.toInt ≤ cs.length then
    return (cs.take last.toInt.toNat).drop first.toInt.toNat
  else none

section

variable {cs : List Char} (hcs : cs.length ≤ 2 ^ 62) (start count : Int64)

include hcs

/-- The places of a slice, as words. -/
theorem slice_places : ∃ first last : Int64,
    sliceFirst (Int64.ofNat cs.length) start = first ∧
      sliceLast (Int64.ofNat cs.length) first count = last ∧
      first.toInt = firstPlace cs.length start.toInt ∧
      last.toInt = lastPlace cs.length (firstPlace cs.length start.toInt) count.toInt := by
  have hfirst := toInt_sliceFirst hcs start
  refine ⟨_, _, rfl, rfl, hfirst, ?_⟩
  rw [← hfirst]
  exact toInt_sliceLast hcs (hfirst ▸ firstPlace_nonneg) count

/-- **A slice is cut between its places.** -/
theorem slice_eq_between : slice cs start count =
    between (firstPlace cs.length start.toInt)
      (lastPlace cs.length (firstPlace cs.length start.toInt) count.toInt) cs := by
  obtain ⟨first, last, rfl, rfl, hfirst, hlast⟩ := slice_places hcs start count
  rw [slice_eq, between_eq, ← hlast, ← hfirst]
  simp only
  split
  case isTrue hempty =>
    have hempty := Int64.le_iff_toInt_le.mp hempty
    exact (List.drop_eq_nil_of_le (by rw [List.length_take]; omega)).symm
  case isFalse => rfl

/-- **No check of a slice fails.** -/
theorem slice?_eq : slice? cs start count = Option.some (slice cs start count) := by
  have hlength : Checked.ofInt? cs.length = Option.some (Int64.ofNat cs.length) := by
    rw [Checked.ofInt?_eq_some (by omega) (by omega), Int64.ofInt_eq_ofNat]
  obtain ⟨first, last, hfirst, hlast, hstart, hstop⟩ := slice_places hcs start count
  have hplaces : 0 ≤ first ∧ last.toInt ≤ cs.length :=
    ⟨Int64.le_iff_toInt_le.mpr (hstart ▸ firstPlace_nonneg), hstop ▸ lastPlace_le⟩
  rw [slice?, hlength, Option.bind_eq_bind, Option.bind_some, sliceFirst?_eq hcs, hfirst,
    Option.bind_some, sliceLast?_eq hcs, hlast, Option.bind_some, if_pos hplaces]
  simp only [slice_eq, hfirst, hlast]
  split <;> rfl

end

/-! ## Fronts -/

/-- How many of `n` items are kept, where each number has to fit and no difference to be
negative. -/
def keptCount? (n : Nat) (k : Int64) : Option Nat :=
  if 0 ≤ k then (Checked.word? k.toInt).map fun kept => min kept n
  else (Checked.word? (-k.toInt)).bind fun dropped =>
    Checked.word? ((n : Int) - (min dropped n : Nat))

/-- **The front of a list with every step checked**: there are as many items as are kept. -/
def front? (vs : List Value) (k : Int64) : Option (List Value) := do
  let length ← Checked.word? vs.length
  let kept ← keptCount? length k
  if kept ≤ vs.length then return vs.take kept else none

theorem keptCount_bounds {n : Nat} {k : Int} : 0 ≤ keptCount n k ∧ keptCount n k ≤ n := by
  rw [keptCount]
  split <;> omega

theorem keptCount?_eq {n : Nat} (hn : n ≤ 2 ^ 62) (k : Int64) :
    keptCount? n k = Option.some (keptCount n k.toInt).toNat := by
  have hlow : -9223372036854775808 ≤ k.toInt := k.le_toInt
  have hhigh : k.toInt ≤ 9223372036854775807 := k.toInt_le
  simp only [keptCount?, keptCount, Int64.le_iff_toInt_le, Int64.toInt_zero]
  split
  case isTrue hk =>
    rw [Checked.word?_eq_some hk (by omega), Option.map_some]
    congr 1
    omega
  case isFalse hk =>
    rw [Checked.word?_eq_some (by omega) (by omega), Option.bind_some,
      Checked.word?_eq_some (by omega) (by omega)]
    congr 1
    omega

/-- **A front is as many items as are kept.** -/
theorem front_eq_take {vs : List Value} {k : Int64} :
    front vs k = vs.take (keptCount vs.length k.toInt).toNat := by
  simp only [front, keptCount, Int64.le_iff_toInt_le, Int64.toInt_zero]
  split <;>
  · congr 1
    omega

/-- **No check of a front fails.** -/
theorem front?_eq {vs : List Value} (hvs : vs.length ≤ 2 ^ 62) (k : Int64) :
    front? vs k = Option.some (front vs k) := by
  have hbounds := @keptCount_bounds vs.length k.toInt
  rw [front?, Checked.word?_eq_some (by omega) (by omega), Option.bind_eq_bind, Option.bind_some,
    Int.toNat_natCast, keptCount?_eq hvs, Option.bind_some, if_pos (by omega), front_eq_take]
  rfl

/-- **`substr` and `take` cut out exactly the places that are asked for**, those below
zero counted from the end, and neither does a step outside its 64 bits or takes a place
outside of the text or list. -/
theorem substr_take_exact {call : Caller} {s : String} {vs : List Value} (hs : s.length ≤ 2 ^ 62)
    (hvs : vs.length ≤ 2 ^ 62) (start count k : Int64) :
    run call substr [.string s, .int start, .int count] =
        pure (.string (String.ofList (between (firstPlace s.length start.toInt)
          (lastPlace s.length (firstPlace s.length start.toInt) count.toInt) s.toList))) ∧
      slice? s.toList start count = Option.some (slice s.toList start count) ∧
      run call take [.list vs, .int k] =
        pure (.list (vs.take (keptCount vs.length k.toInt).toNat)) ∧
      front? vs k = Option.some (front vs k) := by
  have hcs : s.toList.length ≤ 2 ^ 62 := String.length_toList ▸ hs
  refine ⟨?slice, slice?_eq hcs start count, ?front, front?_eq hvs k⟩
  case slice =>
    rw [← String.length_toList, ← slice_eq_between hcs]
    rfl
  case front =>
    rw [← front_eq_take]
    rfl

/-- From before the start to beyond the end, and a number of items dropped that no list has. -/
theorem substr_take_exact_ends :
    run (fun _ _ => Run.exhausted) substr
        [.string "héllo", .int Int64.minValue, .int Int64.maxValue] = pure (.string "héllo") ∧
      run (fun _ _ => Run.exhausted) take [.list [.int 1, .none], .int Int64.minValue] =
        pure (.list []) := by
  obtain ⟨hsubstr, -, htake, -⟩ := @substr_take_exact (fun _ _ => Run.exhausted) "héllo"
    [.int 1, .none] (by decide) (by decide) Int64.minValue Int64.maxValue Int64.minValue
  exact ⟨hsubstr.trans rfl, htake.trans rfl⟩

end Builtin

end Ascription
