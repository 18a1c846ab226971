import Ascription.Eval.Builtin
import Ascription.Proofs.Value.Equal
import Mathlib.Data.List.Induction

/-!
# Proofs/Eval/Unique — the first of each class of equal items

    unique [1, 2, 1, NaN, 2, NaN]  =  [1, 2, NaN, NaN]

The loop compares an item with those it has kept.  What was dropped equals something that
was kept, so among those kept there is an equal of the item just when there is one among
all the items before it.
-/

namespace Ascription

namespace Builtin

variable {vs kept : List Value} {v w : Value}

theorem among_iff : among vs v = true ↔ ∃ w ∈ vs, w.equal v = true := List.any_eq_true

theorem among_concat : among (vs ++ [w]) v = (among vs v || w.equal v) := by
  simp [among]

/-- What equals an item equals what that item was dropped for. -/
theorem among_of_equal (hvs : ∀ v ∈ vs, v.Keyed) (h : among vs v = true) (hvw : v.equal w = true) :
    among vs w = true := by
  obtain ⟨u, hu, huv⟩ := among_iff.mp h
  exact among_iff.mpr ⟨u, hu, Value.equal_trans (hvs u hu) huv hvw⟩

/-! ## The loop, one item at a time -/

/-- **One more item** is kept when it is not among those kept. -/
theorem distinctFrom_concat : distinctFrom kept (vs ++ [v]) =
    if among (distinctFrom kept vs) v then distinctFrom kept vs
    else distinctFrom kept vs ++ [v] := by
  induction vs generalizing kept with
  | nil => rfl
  | cons w vs ih => exact ih

/-- **The loop keeps an equal of each item**: what is among the items is among those kept. -/
theorem among_distinctFrom (h : ∀ v ∈ vs, v.Keyed) : among (distinctFrom [] vs) w = among vs w := by
  induction vs using List.reverseRecOn generalizing w with
  | nil => rfl
  | append_singleton vs v ih =>
    have hvs : ∀ u ∈ vs, u.Keyed := fun u hu => h u (List.mem_append_left _ hu)
    rw [distinctFrom_concat, among_concat, ih hvs]
    split
    case isTrue hv =>
      -- Only what equals the dropped item could be missed, and that equals what it was dropped for.
      rw [ih hvs, Bool.eq_self_or]
      exact among_of_equal hvs hv
    case isFalse => rw [among_concat, ih hvs]

/-- **The items that equal no item before them**, kept or dropped. -/
def firsts (vs : List Value) : List Value :=
  (vs.zipIdx.filter fun (v, i) => !among (vs.take i) v).map Prod.fst

theorem firsts_concat :
    firsts (vs ++ [v]) = if among vs v then firsts vs else firsts vs ++ [v] := by
  have hbefore : vs.zipIdx.filter (fun e => !among ((vs ++ [v]).take e.2) e.1) =
      vs.zipIdx.filter fun e => !among (vs.take e.2) e.1 := by
    refine List.filter_congr fun e he => ?_
    rw [List.take_append_of_le_length (Nat.le_of_lt (List.snd_lt_of_mem_zipIdx he))]
  rw [firsts, List.zipIdx_append, List.filter_append, List.map_append, hbefore, ← firsts]
  cases h : among vs v <;> simp [h]

/-- The loop keeps the first of each class. -/
theorem distinctFrom_eq_firsts (h : ∀ v ∈ vs, v.Keyed) : distinctFrom [] vs = firsts vs := by
  induction vs using List.reverseRecOn with
  | nil => rfl
  | append_singleton vs v ih =>
    have hvs : ∀ u ∈ vs, u.Keyed := fun u hu => h u (List.mem_append_left _ hu)
    rw [distinctFrom_concat, firsts_concat, among_distinctFrom hvs, ih hvs]

theorem run_unique {call : Caller} :
    run call unique [.list vs] = pure (.list (distinctFrom [] vs)) := rfl

theorem firsts_sublist : (firsts vs).Sublist vs := by
  have h : (firsts vs).Sublist (vs.zipIdx.map Prod.fst) := List.filter_sublist.map Prod.fst
  rwa [List.zipIdx_map_fst] at h

/-- **No item kept equals one kept before it.** -/
theorem pairwise_firsts : (firsts vs).Pairwise fun v w => v.equal w = false := by
  induction vs using List.reverseRecOn with
  | nil => exact .nil
  | append_singleton vs v ih =>
    rw [firsts_concat]
    split
    case isTrue => exact ih
    case isFalse hv =>
      refine List.pairwise_append.mpr ⟨ih, List.pairwise_singleton _ v, fun u hu w hw => ?_⟩
      obtain rfl := List.mem_singleton.mp hw
      exact Bool.eq_false_iff.mpr fun heq => hv (among_iff.mpr ⟨u, firsts_sublist.mem hu, heq⟩)

/-- Items of which none equals one before it are all kept. -/
theorem distinctFrom_of_pairwise (h : (kept ++ vs).Pairwise fun v w => v.equal w = false) :
    distinctFrom kept vs = kept ++ vs := by
  induction vs generalizing kept with
  | nil => exact (List.append_nil kept).symm
  | cons v vs ih =>
    have hnew : among kept v = false := by
      refine List.any_eq_false.mpr fun w hw => ?_
      rw [(List.pairwise_append.mp h).2.2 w hw v List.mem_cons_self]
      exact Bool.false_ne_true
    rw [distinctFrom, hnew]
    exact (ih (by simpa using h)).trans (by simp)

/-- **`unique` keeps the first of each class** of equal items, in order.  Of those no
two at different places are equal, so it keeps all of them in turn, and they contain
whatever the list contains. -/
theorem unique_keeps_firsts {call : Caller} (h : ∀ v ∈ vs, v.Keyed) :
    run call unique [.list vs] = pure (.list (firsts vs)) ∧
      (firsts vs).Sublist vs ∧
      (∀ i j (hi : i < (firsts vs).length) (hj : j < (firsts vs).length), i ≠ j →
        (firsts vs)[i].equal (firsts vs)[j] = false) ∧
      run call unique [.list (firsts vs)] = pure (.list (firsts vs)) ∧
      ∀ y, run call contains [.list (firsts vs), y] = run call contains [.list vs, y] := by
  have hkeeps : distinctFrom [] vs = firsts vs := distinctFrom_eq_firsts h
  have hkeyed : ∀ v ∈ firsts vs, v.Keyed := fun v hv => h v (firsts_sublist.mem hv)
  refine ⟨?keeps, firsts_sublist, ?apart, ?again, fun y => ?among⟩
  case keeps => rw [run_unique, hkeeps]
  case apart =>
    have hpairwise : (firsts vs).Pairwise fun v w => v.equal w = false := pairwise_firsts
    rw [List.pairwise_iff_getElem] at hpairwise
    intro i j hi hj hne
    obtain hlt | hlt := Nat.lt_or_gt_of_ne hne
    · exact hpairwise i j hi hj hlt
    · refine Bool.eq_false_iff.mpr fun heq => ?_
      exact Bool.eq_false_iff.mp (hpairwise j i hj hi hlt)
        (Value.equal_symm (hkeyed _ (List.getElem_mem hi)) heq)
  case again =>
    have hall : distinctFrom [] (firsts vs) = firsts vs := distinctFrom_of_pairwise pairwise_firsts
    rw [run_unique, hall]
  case among =>
    rw [run, run, ← hkeeps, among_distinctFrom h]

/-- Zeros of either sign are one class, maps with the same entries another, and each NaN is its
own. -/
theorem unique_keeps_firsts_classes :
    let nan : Value := .float (.nan false)
    let cells : List (MapKey × Value) := [(.int 1, .none), (.string "1", .bool true)]
    let vs := [.float (.zero false), nan, .map cells, .float (.zero true), nan, .map cells.reverse]
    let ws := [.float (.zero false), nan, .map cells, nan]
    run (fun _ _ => Run.exhausted) unique [.list vs] = pure (.list ws) ∧
      run (fun _ _ => Run.exhausted) contains [.list ws, .map cells.reverse] =
        pure (.bool true) := by
  intro nan cells vs ws
  have hkeyed : ∀ v ∈ vs, v.Keyed := by
    simp [vs, nan, cells, Value.keyed_map, Value.Keyed.float, Value.Keyed.none, Value.Keyed.bool]
  have hfirsts : firsts vs = ws := by
    with_unfolding_all rfl
  obtain ⟨hrun, -, -, -, hcontains⟩ := @unique_keeps_firsts vs (fun _ _ => Run.exhausted) hkeyed
  rw [hfirsts] at hrun hcontains
  refine ⟨hrun, (hcontains _).trans ?_⟩
  have hamong : among vs (.map cells.reverse) = true := by decide +kernel
  rw [run, hamong]

end Builtin

end Ascription
