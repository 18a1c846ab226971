import Ascription.Proofs.Ty.Expand
import Ascription.Proofs.Value.Subtype

/-!
# Proofs/Value/Expand — values of expanded types, and of equal ones

Aliases decide nothing about values.  Equality of types decides what it compares: two maps
are equal, whatever their keys and values, but of equal types that are comparable the first
is included in the second.
-/

namespace Ascription

namespace Value

open Ty

mutual

/-- **A value fits a type as it fits the type without aliases.** -/
theorem fits_expand : ∀ {t : Ty} {v : Value}, Fits t.expand v ↔ Fits t v
  | .aliased _ t, _ => (fits_expand (t := t)).trans fits_aliased.symm
  | .option t, _ => by rw [expand, fits_option, fits_option, fits_expand]
  | .some t, _ => by rw [expand, fits_some, fits_some, fits_expand]
  | .list t, _ => by simp only [expand, fits_list, fits_expand]
  | .map k t, _ => by simp only [expand, fits_map, fits_expand]
  | .func r ps, _ => by rw [expand, fits_func, fits_func]
  | .struct fields, _ => by
    rw [expand, fits_struct, fits_struct]
    exact exists₂_congr fun kind fs => and_congr_right' (@fits_expandFields fields fs)
  | .any, _ | .string, _ | .int, _ | .float, _ | .bool, _ | .none, _ | .never, _ | .object _, _ =>
    Iff.rfl

theorem fits_expandFields : ∀ {fields : List (String × Ty)} {fs : List (String × Value)},
    (∀ f ∈ expandFields fields, ∃ w, fs.lookup f.1 = Option.some w ∧ Fits f.2 w) ↔
      ∀ f ∈ fields, ∃ w, fs.lookup f.1 = Option.some w ∧ Fits f.2 w
  | [], _ => Iff.rfl
  | (name, t) :: rest, fs => by
    simp only [expandFields, List.forall_mem_cons, fits_expand, @fits_expandFields rest]

end

namespace Included

variable {s t : Ty}

theorem of_canonical (h : Included s.canonical t.canonical) : Included s t :=
  fun v hv => fits_canonical.mp (h v (fits_canonical.mpr hv))

/-- The form decides what fits, where no other type is held. -/
theorem of_sameForm (h : SameForm s t) (ht : ¬ Container t) : Included s t := by
  cases h with
  | refl => exact fun _ hv => hv
  | func => exact .func
  | option | some | list | map | struct => exact absurd trivial ht

/-- **A type is included in an equal one**, where equality can tell the two apart. -/
theorem of_equal (h : Comparable s t) (heq : s.equal t = true) : Included s t := by
  induction h with
  | same expanded => exact fun v hv => fits_expand.mp (expanded ▸ fits_expand.mpr hv)
  | list left right _ ih =>
    rw [← equal_canonical, left, Ty.equal, right] at heq
    exact .of_canonical (left ▸ right ▸ (ih heq).list)
  | named left right held =>
    exact .of_canonical (.of_sameForm (sameForm_of_equal left right heq) held)

end Included

end Value

end Ascription
