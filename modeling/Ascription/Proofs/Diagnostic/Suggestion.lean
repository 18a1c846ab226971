import Ascription.Proofs.Diagnostic.EditDistance
import Mathlib.Data.List.MinMax

/-!
# Proofs/Diagnostic/Suggestion — the candidate that was meant

    candidates  ──within the limit──▸  near ones  ──first of the least distance──▸  the nearest

One pass keeps the best candidate so far, and passes over those whose lengths differ by too much.
The distance counts characters and the lengths count bytes, so what is passed over may be near: the
nearest candidate is found exactly where its length does not keep it from being compared.
-/

namespace Ascription

/-! ## The first of the least -/

section

variable {α : Type} {f : α → Nat} {l : List α} {m : α}

/-- **The least element that comes first**: those before it are greater, those behind it no less. -/
theorem argmin_eq_some_iff_append : l.argmin f = some m ↔
    ∃ before after, l = before ++ m :: after ∧ (∀ a ∈ before, f m < f a) ∧
      ∀ a ∈ after, f m ≤ f a := by
  constructor
  · intro h
    induction l generalizing m with
    | nil => cases h
    | cons a l ih =>
      rw [List.argmin_cons] at h
      cases hl : l.argmin f with
      | none =>
        rw [hl] at h
        cases h
        exact ⟨[], l, rfl, List.forall_mem_nil _, by simp [List.argmin_eq_none.mp hl]⟩
      | some c =>
        obtain ⟨before, after, hsplit, hbefore, hafter⟩ := ih hl
        simp only [hl] at h
        split at h
        case isTrue hca =>
          cases h
          exact ⟨a :: before, after, by rw [hsplit]; rfl,
            List.forall_mem_cons.mpr ⟨hca, hbefore⟩, hafter⟩
        case isFalse hca =>
          cases h
          refine ⟨[], l, rfl, List.forall_mem_nil _, fun b hb => ?_⟩
          exact (Nat.le_of_not_lt hca).trans (List.le_of_mem_argmin hb hl)
  · rintro ⟨before, after, rfl, hbefore, hafter⟩
    induction before with
    | nil =>
      rw [List.nil_append, List.argmin_cons]
      cases hl : after.argmin f with
      | none => rfl
      | some c => exact if_neg (Nat.not_lt.mpr (hafter c (List.argmin_mem hl)))
    | cons b before ih =>
      obtain ⟨hb, hbefore⟩ := List.forall_mem_cons.mp hbefore
      rw [List.cons_append, List.argmin_cons, ih hbefore]
      exact if_pos hb

/-- The first of the least stays so where others are left out. -/
theorem argmin_filter {p : α → Bool} (h : l.argmin f = some m) (hm : p m = true) :
    (l.filter p).argmin f = some m := by
  obtain ⟨before, after, rfl, hbefore, hafter⟩ := argmin_eq_some_iff_append.mp h
  refine argmin_eq_some_iff_append.mpr ⟨before.filter p, after.filter p, ?_, ?_, ?_⟩
  · rw [List.filter_append, List.filter_cons_of_pos hm]
  · exact fun a ha => hbefore a (List.mem_of_mem_filter ha)
  · exact fun a ha => hafter a (List.mem_of_mem_filter ha)

end

namespace Suggestion

/-! ## The nearest candidate -/

/-- **A near candidate**: another text, no farther from the name than the limit. -/
def Near (name candidate : String) : Prop :=
  candidate ≠ name ∧ editDistance name candidate ≤ limit name

instance (name candidate : String) : Decidable (Near name candidate) :=
  inferInstanceAs (Decidable (_ ∧ _))

/-- **The nearest candidate**: of the near ones the first at the least distance. -/
def nearest? (name : String) (candidates : List String) : Option String :=
  (candidates.filter fun c => Near name c).argmin (editDistance name)

/-- A candidate is compared when its length is close to that of the name. -/
def Compared (name candidate : String) : Prop := lengthGap name candidate ≤ limit name

instance (name candidate : String) : Decidable (Compared name candidate) :=
  inferInstanceAs (Decidable (_ ≤ _))

variable {name : String} {candidates : List String}

/-- There is no nearest candidate exactly where none is near. -/
theorem nearest?_eq_none : nearest? name candidates = none ↔ ∀ c ∈ candidates, ¬ Near name c := by
  rw [nearest?, List.argmin_eq_none, List.filter_eq_nil_iff]
  simp only [decide_eq_true_eq]

/-- **The nearest candidate is near, and the first at the least distance**: the near ones before it
are farther, those behind it no nearer. -/
theorem nearest?_eq_some_iff {c : String} : nearest? name candidates = some c ↔
    Near name c ∧ ∃ before after, candidates = before ++ c :: after ∧
      (∀ b ∈ before, Near name b → editDistance name c < editDistance name b) ∧
      ∀ a ∈ after, Near name a → editDistance name c ≤ editDistance name a := by
  rw [nearest?, argmin_eq_some_iff_append]
  constructor
  · rintro ⟨before, after, hsplit, hbefore, hafter⟩
    obtain ⟨first, rest, rfl, rfl, hrest⟩ := List.filter_eq_append_iff.mp hsplit
    obtain ⟨skipped, last, rfl, hskipped, hc, rfl⟩ := List.filter_eq_cons_iff.mp hrest
    refine ⟨by simpa using hc, first ++ skipped, last, by simp, fun b hb hnear => ?_,
      fun a ha hnear => ?_⟩
    · obtain hb | hb := List.mem_append.mp hb
      · exact hbefore b (List.mem_filter.mpr ⟨hb, decide_eq_true hnear⟩)
      · exact absurd (decide_eq_true hnear) (hskipped b hb)
    · exact hafter a (List.mem_filter.mpr ⟨ha, decide_eq_true hnear⟩)
  · rintro ⟨hc, before, after, rfl, hbefore, hafter⟩
    refine ⟨before.filter fun c => Near name c, after.filter fun c => Near name c, ?_, ?_, ?_⟩
    · rw [List.filter_append, List.filter_cons_of_pos (by simpa using hc)]
    · intro b hb
      obtain ⟨hb, hnear⟩ := List.mem_filter.mp hb
      exact hbefore b hb (of_decide_eq_true hnear)
    · intro a ha
      obtain ⟨ha, hnear⟩ := List.mem_filter.mp ha
      exact hafter a ha (of_decide_eq_true hnear)

/-- The nearer of the best candidate so far and one more. -/
def nearer (name : String) (best : Option String) (c : String) : Option String :=
  match best with
  | none => some c
  | some b => if editDistance name c < editDistance name b then some c else some b

theorem nearest?_concat {c : String} (h : Near name c) :
    nearest? name (candidates ++ [c]) = nearer name (nearest? name candidates) c := by
  rw [nearest?, List.filter_append, List.filter_cons_of_pos (by simpa using h), List.filter_nil,
    List.argmin_concat, ← nearest?]
  cases nearest? name candidates <;> rfl

theorem nearest?_concat_of_not {c : String} (h : ¬ Near name c) :
    nearest? name (candidates ++ [c]) = nearest? name candidates := by
  rw [nearest?, List.filter_append, List.filter_cons_of_neg (by simpa using h), List.filter_nil,
    List.append_nil, ← nearest?]

/-! ## The pass over the candidates -/

/-- A candidate with its distance. -/
def measured (name c : String) : String × Nat := (c, editDistance name c)

/-- A candidate that is not compared, or not near, changes nothing. -/
theorem better_of_not {best : Option (String × Nat)} {c : String}
    (h : ¬ (Compared name c ∧ Near name c)) : better name best c = best := by
  rw [better]
  split
  case isTrue => rfl
  case isFalse hcompared =>
    obtain ⟨hne, hgap⟩ := not_or.mp hcompared
    exact if_pos (Nat.lt_of_not_le fun hle => h ⟨Nat.le_of_not_lt hgap, hne, hle⟩)

/-- One that is compared and near is taken if it is nearer than the best so far. -/
theorem better_of_near {best : Option String} {c : String} (hcompared : Compared name c)
    (hnear : Near name c) :
    better name (best.map (measured name)) c = (nearer name best c).map (measured name) := by
  obtain ⟨hne, hle⟩ := hnear
  rw [better, if_neg (not_or.mpr ⟨hne, Nat.not_lt.mpr hcompared⟩)]
  simp only [if_neg (Nat.not_lt.mpr hle)]
  cases best with
  | none => rfl
  | some b =>
    rw [nearer, Option.map_some, apply_ite (Option.map (measured name))]
    rfl

/-- **The pass finds the nearest of the candidates that are compared**, with its distance. -/
theorem foldl_better : candidates.foldl (better name) none =
    (nearest? name (candidates.filter fun c => Compared name c)).map (measured name) := by
  induction candidates using List.reverseRecOn with
  | nil => rfl
  | append_singleton cs c ih =>
    rw [List.foldl_append, List.foldl_cons, List.foldl_nil, ih, List.filter_append]
    by_cases hcompared : Compared name c
    case neg =>
      rw [better_of_not fun h => hcompared h.1, List.filter_cons_of_neg (by simpa using hcompared),
        List.filter_nil, List.append_nil]
    rw [List.filter_cons_of_pos (by simpa using hcompared), List.filter_nil]
    by_cases hnear : Near name c
    case neg => rw [better_of_not fun h => hnear h.2, nearest?_concat_of_not hnear]
    rw [better_of_near hcompared hnear, nearest?_concat hnear]

/-- **What is suggested is the nearest of the candidates that are compared.** -/
theorem closest?_eq_nearest? :
    closest? name candidates = nearest? name (candidates.filter fun c => Compared name c) := by
  rw [closest?, foldl_better, Option.map_map]
  exact Option.map_id' ..

/-! ## What the comparison of lengths leaves out -/

theorem mem_of_nearest? {c : String} (h : nearest? name candidates = some c) :
    c ∈ candidates ∧ Near name c := by
  simpa using List.argmin_mem h

/-- **The nearest candidate is suggested exactly where it is compared.** -/
theorem closest?_eq_nearest?_iff : closest? name candidates = nearest? name candidates ↔
    ∀ c, nearest? name candidates = some c → Compared name c := by
  rw [closest?_eq_nearest?]
  constructor
  · intro h c hc
    obtain ⟨hmem, -⟩ := mem_of_nearest? (h.trans hc)
    simpa using List.of_mem_filter hmem
  · intro h
    cases hc : nearest? name candidates with
    | none =>
      rw [nearest?_eq_none] at hc ⊢
      exact fun c hmem => hc c (List.mem_of_mem_filter hmem)
    | some c =>
      rw [nearest?, List.filter_comm]
      exact argmin_filter hc (decide_eq_true (h c hc))

/-- **Where a byte is a character the lengths differ by no more than the distance**, so that every
near candidate is compared. -/
theorem compared_of_near {c : String} (hname : name.utf8ByteSize = name.length)
    (hc : c.utf8ByteSize = c.length) (h : Near name c) : Compared name c := by
  have hlength := length_le_editDistance name c
  have hlimit : editDistance name c ≤ limit name := h.2
  rw [Compared, lengthGap]
  omega

/-! ## The advice -/

/-- The advice to use a candidate. -/
def advice (c : String) : String := "did you mean `" ++ c ++ "`?"

theorem advice_injective : Function.Injective advice := fun c c' h => by
  simpa [advice, String.append_assoc] using h

/-- **The advice is to use the nearest candidate**: the first at the least distance of those that
are another name and within the limit, and there is none exactly where no candidate is.  It fails to
be so exactly where the nearest candidate is longer or shorter than the name, in bytes, by more than
the limit; among texts of one byte a character this cannot happen, and otherwise the advice is to
use the nearest of the candidates that are compared. -/
theorem didYouMean_nearest (name : String) (candidates : List String) :
    (didYouMean name candidates = (nearest? name candidates).map advice ↔
      ∀ c, nearest? name candidates = some c → lengthGap name c ≤ limit name) ∧
    ((∀ text ∈ name :: candidates, text.utf8ByteSize = text.length) →
      didYouMean name candidates = (nearest? name candidates).map advice) ∧
    didYouMean name candidates =
      (nearest? name (candidates.filter fun c => lengthGap name c ≤ limit name)).map advice := by
  have hadvice : didYouMean name candidates = (closest? name candidates).map advice := rfl
  have hiff : didYouMean name candidates = (nearest? name candidates).map advice ↔
      ∀ c, nearest? name candidates = some c → Compared name c := by
    rw [hadvice, ← closest?_eq_nearest?_iff]
    exact (Option.map_injective advice_injective).eq_iff
  refine ⟨hiff, fun htexts => ?_, ?_⟩
  · obtain ⟨hname, htexts⟩ := List.forall_mem_cons.mp htexts
    refine hiff.mpr fun c hc => ?_
    obtain ⟨hmem, hnear⟩ := mem_of_nearest? hc
    exact compared_of_near hname (htexts c hmem) hnear
  · rw [hadvice, closest?_eq_nearest?]
    rfl

/-- Of two candidates at one distance the earlier one is meant. -/
theorem didYouMean_nearest_tie :
    (∀ text ∈ ["tke", "unique", "toke", "take"], text.utf8ByteSize = text.length) ∧
      didYouMean "tke" ["unique", "toke", "take"] = some "did you mean `toke`?" := by
  have hbytes : ∀ text ∈ ["tke", "unique", "toke", "take"], text.utf8ByteSize = text.length := by
    decide +kernel
  have hnearest : nearest? "tke" ["unique", "toke", "take"] = some "toke" := by decide +kernel
  obtain ⟨-, hplain, -⟩ := didYouMean_nearest "tke" ["unique", "toke", "take"]
  refine ⟨hbytes, ?_⟩
  rw [hplain hbytes, hnearest]
  rfl

/-- Two wide letters are as near as two others, and take more bytes than the limit allows. -/
theorem didYouMean_passes_over :
    nearest? "ｔａke" ["substr", "some", "take"] = some "take" ∧
      didYouMean "ｔａke" ["substr", "some", "take"] = none := by
  decide +kernel

end Suggestion

end Ascription
