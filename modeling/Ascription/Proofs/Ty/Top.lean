import Ascription.Proofs.Ty.Subtype

/-!
# Proofs/Ty/Top — what stands above everything

    any ≤ t   ⟺   t is any, behind aliases and options   ⟺   s ≤ t for every s

The rule that lifts a plain type into an option comes before the rules for `any`, and it takes
`any` for a plain type as well.  So `any` is below the options of itself at every depth, and those
are tops of subtyping too.
-/

namespace Ascription

namespace Ty

/-- **A top of subtyping**: `any`, or an alias or an option of a top. -/
def IsTop : Ty → Prop
  | any => True
  | aliased _ t | option t => IsTop t
  | _ => False

/-- **What is above `any` is a top.** -/
theorem any_isSubtype : ∀ {t : Ty}, any.isSubtype t = true ↔ t.IsTop
  | .any => iff_of_true isSubtype_any trivial
  | .aliased _ t => by
    rw [isSubtype_aliasedRight]
    exact any_isSubtype (t := t)
  | .option t => by
    rw [isSubtype_lifted (a := any) trivial]
    exact any_isSubtype (t := t)
  | .string | .int | .float | .bool | .never | .none | .some _ | .list _ | .map _ _ | .func _ _
  | .struct _ | .object _ => by
    rw [isSubtype.eq_9 _ (by simp) (by simp) (by simp)]
    exact iff_of_false Bool.false_ne_true id

/-- Everything is below a top by the rules. -/
theorem IsTop.below : ∀ {t : Ty}, t.IsTop → ∀ s, Below s t
  | .any, _, _ => .any
  | .aliased _ t, h, s => .aliasedRight (IsTop.below (t := t) h s)
  | .option t, h, s => Below.option_top (IsTop.below (t := t) h) s

/-- **The tops are the types above everything.** -/
theorem isTop_iff {t : Ty} : t.IsTop ↔ ∀ s : Ty, s.isSubtype t = true :=
  ⟨fun h s => (h.below s).isSubtype, fun h => any_isSubtype.mp (h any)⟩

/-- **`any` is a top, and the other tops are its options.** -/
theorem any_absorbs :
    (∀ t : Ty, t.isSubtype any = true) ∧ ∀ t : Ty, any.isSubtype t = true ↔ t.IsTop :=
  ⟨fun _ => isSubtype_any, fun _ => any_isSubtype⟩

/-- `any` is not the only type above `any`: an option of it is one. -/
theorem any_not_strict_top : ¬ ((∀ t : Ty, t.isSubtype any = true) ∧
    ∀ t : Ty, any.isSubtype t = true → t.canonical = any) := by
  rintro ⟨-, h⟩
  have hoption : (option any).canonical = any := h (option any) (any_isSubtype.mpr trivial)
  cases hoption

end Ty

end Ascription
