import Ascription.Eval
import Ascription.Proofs.Entries
import Ascription.Proofs.Rule
import Ascription.Proofs.Value.Fits

/-!
# Proofs/Eval/Operators — operators on values that fit

What an operator makes of values that fit the types its rule accepts fits the type of the operation,
and it does not complain of the values' forms.
-/

namespace Ascription

/-- The errors that a static rule is there to prevent, also inside a lambda. -/
def RuntimeError.Misapplied : RuntimeError → Prop
  | .badOperand _ _ | .notAStruct _ _ | .noSuchField _ _ | .notIndexable _ _ => True
  | .inLambda e _ => Misapplied e
  | _ => False

theorem misapplied_raisedAt {span : Span} {e : RuntimeError} :
    (EvalError.raisedAt span e).error.Misapplied ↔ e.Misapplied := by
  cases e <;> exact Iff.rfl

namespace Value

open RuntimeError

variable {t t' : Ty} {a b v : Value} {e : RuntimeError}

/-- What fits a number type is a number of that type. -/
theorem fits_numeric (ht : t.isNumeric = true) (hv : Fits t v) :
    (t.canonical = .int ∧ ∃ n, v = int n) ∨ (t.canonical = .float ∧ ∃ x, v = float x) := by
  rw [← fits_canonical] at hv
  obtain h | h := Ty.isNumeric_iff.mp ht
  · rw [h] at hv
    exact .inl ⟨h, fits_int.mp hv⟩
  · rw [h] at hv
    exact .inr ⟨h, fits_float.mp hv⟩

theorem fits_isBool (ht : t.isBool = true) (hv : Fits t v) : ∃ b, v = bool b := by
  rw [← fits_canonical, Ty.isBool_iff.mp ht] at hv
  exact fits_bool.mp hv

/-- Numbers of types that are equal have one form. -/
theorem fits_numbers (ht : t.isNumeric = true) (ht' : t'.isNumeric = true) (h : t'.equal t = true)
    (ha : Fits t a) (hb : Fits t' b) :
    (t.canonical = .int ∧ ∃ m n, a = int m ∧ b = int n) ∨
      (t.canonical = .float ∧ ∃ x y, a = float x ∧ b = float y) := by
  have hc := Ty.canonical_eq_of_equal ht' ht h
  obtain ⟨h₁, m, rfl⟩ | ⟨h₁, x, rfl⟩ := fits_numeric ht ha <;>
    obtain ⟨h₂, n, rfl⟩ | ⟨h₂, y, rfl⟩ := fits_numeric ht' hb
  · exact .inl ⟨h₁, m, n, rfl, rfl⟩
  · rw [h₁, h₂] at hc
    cases hc
  · rw [h₁, h₂] at hc
    cases hc
  · exact .inr ⟨h₁, x, y, rfl, rfl⟩

/-- What passes an assertion fits. -/
theorem fits_of_assert {subject : Subject} (h : a.assert subject t = .ok v) : Fits t v := by
  rw [assert] at h
  split at h
  case h_1 hc =>
    cases h
    exact hc
  case h_2 => cases h

theorem assert_of_fits (subject : Subject) (h : Fits t a) : a.assert subject t = .ok a := by
  rw [assert, show a.check t = .ok () from h]

theorem assert_of_not_fits (subject : Subject) (h : ¬ Fits t a) :
    ∃ m, a.assert subject t = .error (.typeAssertion subject t m) := by
  rw [assert]
  cases hc : a.check t with
  | ok => exact absurd hc h
  | error m => exact ⟨m, rfl⟩

theorem assert_applied {subject : Subject} (h : a.assert subject t = .error e) :
    ¬ Misapplied e := by
  rw [assert] at h
  split at h
  · cases h
  · cases h
    exact id

/-! ## Negation -/

theorem negate_fits (ht : t.isNumeric = true) (ha : Fits t a) (h : a.negate = .ok v) :
    Fits t v := by
  rw [← fits_canonical]
  obtain ⟨hc, n, rfl⟩ | ⟨hc, x, rfl⟩ := fits_numeric ht ha
  · rw [hc, fits_int]
    rw [negate] at h
    split at h
    · cases h
      exact ⟨_, rfl⟩
    · cases h
  · cases h
    rw [hc, fits_float]
    exact ⟨_, rfl⟩

theorem negate_applied (ht : t.isNumeric = true) (ha : Fits t a) (h : a.negate = .error e) :
    ¬ Misapplied e := by
  obtain ⟨-, n, rfl⟩ | ⟨-, x, rfl⟩ := fits_numeric ht ha
  · rw [negate] at h
    split at h
    · cases h
    · cases h
      exact id
  · cases h

/-! ## Binary operators -/

theorem disjunction_bool (h : disjunction a b = .ok v) : ∃ c, v = bool c := by
  unfold disjunction at h
  split at h
  · cases h
    exact ⟨_, rfl⟩
  all_goals cases h

theorem greater_bool (h : greater a b = .ok v) : ∃ c, v = bool c := by
  unfold greater at h
  split at h
  · cases h
    exact ⟨_, rfl⟩
  · cases h
    exact ⟨_, rfl⟩
  · cases h

section Numbers

variable (ht : t.isNumeric = true) (ht' : t'.isNumeric = true) (heq : t'.equal t = true)
  (ha : Fits t a) (hb : Fits t' b)

include ht ht' heq ha hb

theorem greater_applied (h : greater a b = .error e) : ¬ Misapplied e := by
  obtain ⟨-, m, n, rfl, rfl⟩ | ⟨-, x, y, rfl, rfl⟩ := fits_numbers ht ht' heq ha hb <;> cases h

theorem subtract_fits (h : subtract a b = .ok v) : Fits t v := by
  rw [← fits_canonical]
  obtain ⟨hc, m, n, rfl, rfl⟩ | ⟨hc, x, y, rfl, rfl⟩ := fits_numbers ht ht' heq ha hb
  · rw [hc, fits_int]
    rw [subtract] at h
    split at h
    · cases h
      exact ⟨_, rfl⟩
    · cases h
  · cases h
    rw [hc, fits_float]
    exact ⟨_, rfl⟩

theorem subtract_applied (h : subtract a b = .error e) : ¬ Misapplied e := by
  obtain ⟨-, m, n, rfl, rfl⟩ | ⟨-, x, y, rfl, rfl⟩ := fits_numbers ht ht' heq ha hb
  · rw [subtract] at h
    split at h
    · cases h
    · cases h
      exact id
  · cases h

end Numbers

theorem disjunction_applied (ht : t.isBool = true) (ht' : t'.isBool = true) (ha : Fits t a)
    (hb : Fits t' b) (h : disjunction a b = .error e) : ¬ Misapplied e := by
  obtain ⟨x, rfl⟩ := fits_isBool ht ha
  obtain ⟨y, rfl⟩ := fits_isBool ht' hb
  cases h

/-! ## Fields and indices -/

theorem fieldOf_fits {fields : List (String × Ty)} {name : String}
    (ht : t.fields? = some fields) (hl : fields.lookup name = some t') (ha : Fits t a) :
    ∃ w, a.fieldOf name = .ok w ∧ Fits t' w := by
  rw [← fits_canonical, Ty.fields?_eq_some.mp ht] at ha
  obtain ⟨kind, fs, rfl, hfs⟩ := fits_struct.mp ha
  obtain ⟨w, hw, hfit⟩ := hfs _ (Entries.mem_of_lookup hl)
  exact ⟨w, by rw [fieldOf, hw], hfit⟩

theorem index_list_eq_ok {vs : List Value} (h : (list vs).index b = .ok v) : v ∈ vs := by
  cases b with
  | int i =>
    rw [index] at h
    split at h
    · cases h
    · split at h
      case h_1 hget =>
        cases h
        exact List.mem_of_getElem? hget
      case h_2 => cases h
  | _ => cases h

theorem index_map_eq_ok {es : List (MapKey × Value)} (h : (map es).index b = .ok v) :
    ∃ k, (k, v) ∈ es := by
  rw [index] at h
  split at h
  · cases h
  · split at h
    case h_1 hget =>
      cases h
      exact ⟨_, Entries.mem_of_lookup hget⟩
    case h_2 => cases h

/-- **An item fits the element type**, and so does the value of a map entry. -/
theorem index_fits (hr : t.canonical = .list t' ∨ ∃ k, t.canonical = .map k t') (ha : Fits t a)
    (h : a.index b = .ok v) : Fits t' v := by
  rw [← fits_canonical] at ha
  obtain hc | ⟨k, hc⟩ := hr
  · rw [hc] at ha
    obtain ⟨vs, rfl, hvs⟩ := fits_list.mp ha
    exact hvs v (index_list_eq_ok h)
  · rw [hc] at ha
    obtain ⟨es, rfl, hes⟩ := fits_map.mp ha
    obtain ⟨k', hmem⟩ := index_map_eq_ok h
    exact (hes _ hmem).2

theorem index_applied {key : Ty} (hkey : key.Candid)
    (hr : (t.canonical = .list t' ∧ key.equal .int = true) ∨ ∃ k, t.canonical = .map k t')
    (ha : Fits t a) (hb : Fits key b) (h : a.index b = .error e) : ¬ Misapplied e := by
  rw [← fits_canonical] at ha
  obtain ⟨hc, heq⟩ | ⟨k, hc⟩ := hr
  · rw [hc] at ha
    obtain ⟨vs, rfl, -⟩ := fits_list.mp ha
    rw [← fits_canonical, Ty.canonical_eq_int hkey heq] at hb
    obtain ⟨n, rfl⟩ := fits_int.mp hb
    rw [index] at h
    split at h
    · cases h
      exact id
    · split at h
      · cases h
      · cases h
        exact id
  · rw [hc] at ha
    obtain ⟨es, rfl, -⟩ := fits_map.mp ha
    rw [index] at h
    split at h
    · cases h
      exact id
    · split at h
      · cases h
      · cases h
        exact id

end Value

end Ascription
