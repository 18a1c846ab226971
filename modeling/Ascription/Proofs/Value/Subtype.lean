import Ascription.Proofs.Ty.Subtype
import Ascription.Proofs.Value.Fits

/-!
# Proofs/Value/Subtype — what fits a type fits its supertypes

Subtyping follows its rules down both types, a check follows one type into a value.  Each rule hands
inclusion on from the parts to the whole.  Maps and structs are compared by name alone, so the types
have to mention none of them.
-/

namespace Ascription

namespace Value

open Ty

/-! ## Inclusion -/

/-- **All that fits the first type fits the second.** -/
def Included (a b : Ty) : Prop := ∀ v, Fits a v → Fits b v

namespace Included

variable {a b : Ty} {name : String}

theorem aliased_left (h : Included a b) : Included (.aliased name a) b :=
  fun v hv => h v (fits_aliased.mp hv)

theorem aliased_right (h : Included a b) : Included a (.aliased name b) :=
  fun v hv => fits_aliased.mpr (h v hv)

/-- A value is lifted into an option. -/
theorem lift (h : Included a b) : Included a (.option b) :=
  fun v hv => fits_option.mpr (.inr (h v hv))

theorem none_option : Included .none (.option b) :=
  fun _ hv => fits_option.mpr (.inl (fits_none.mp hv))

theorem option (h : Included a b) : Included (.option a) (.option b) :=
  fun v hv => fits_option.mpr ((fits_option.mp hv).imp_right (h v))

theorem some_left (h : Included a b) : Included (.some a) b :=
  fun v hv => h v (fits_some.mp hv).2

theorem some (h : Included a b) : Included (.some a) (.some b) :=
  fun v hv => fits_some.mpr ((fits_some.mp hv).imp_right (h v))

theorem list (h : Included a b) : Included (.list a) (.list b) := by
  intro v hv
  obtain ⟨vs, rfl, hvs⟩ := fits_list.mp hv
  exact fits_list.mpr ⟨vs, rfl, fun w hw => h w (hvs w hw)⟩

theorem never : Included .never b := fun _ hv => absurd hv not_fits_never

theorem any : Included a .any := fun _ _ => fits_any

/-- A callable fits every function type. -/
theorem func {r r' : Ty} {ps ps' : List Ty} : Included (.func r ps) (.func r' ps') :=
  fun _ hv => fits_func.mpr (fits_func.mp hv)

end Included

/-! ## Subtypes -/

/-- **What is below is included**, where the rules see all of both types. -/
theorem Included.of_below : ∀ {a b : Ty}, Below a b → a.Tame → b.Tame → Included a b
  | _, _, .aliasedLeft target, ha, hb =>
    (of_below target (ha.parts (List.mem_singleton_self _)) hb).aliased_left
  | _, _, .aliasedRight target, ha, hb =>
    (of_below target ha (hb.parts (List.mem_singleton_self _))).aliased_right
  | _, _, .never, _, _ => .never
  | _, _, .any, _, _ => .any
  | _, _, .none, _, _ => .none_option
  | _, _, .option inner, ha, hb =>
    (of_below inner (ha.parts (List.mem_singleton_self _))
      (hb.parts (List.mem_singleton_self _))).option
  | _, _, .present inner, ha, hb =>
    (of_below inner (ha.parts (List.mem_singleton_self _))
      (hb.parts (List.mem_singleton_self _))).some_left.lift
  | _, _, .lifted _ inner, ha, hb => (of_below inner ha (hb.parts (List.mem_singleton_self _))).lift
  | _, _, .some inner, ha, hb =>
    (of_below inner (ha.parts (List.mem_singleton_self _))
      (hb.parts (List.mem_singleton_self _))).some
  | _, _, .list element, ha, hb =>
    (of_below element (ha.parts (List.mem_singleton_self _))
      (hb.parts (List.mem_singleton_self _))).list
  | _, _, .func _ _, _, _ => .func
  | _, _, .map, ha, _ | _, _, .struct, ha, _ => absurd trivial ha.not_aggregate
  | _, _, .same _, _, _ => fun _ hv => hv
termination_by a b => sizeOf a + sizeOf b

/-- **A subtype is included**, where subtyping sees all of both types. -/
theorem included_of_isSubtype (a b : Ty) (h : a.isSubtype b = true) (ha : a.Tame) (hb : b.Tame) :
    Included a b :=
  .of_below (below_of_isSubtype a b h ha.candid hb.candid) ha hb

/-- **A value that passes a type's check passes that of every supertype**, unless a map, a struct or
a disguised object stands in one of the types. -/
theorem check_of_isSubtype {s t : Ty} (hs : ¬ Mentions Aggregate s) (hs' : s.Candid)
    (ht : ¬ Mentions Aggregate t) (ht' : t.Candid) (h : s.isSubtype t = true) {v : Value}
    (hv : v.check s = .ok ()) : v.check t = .ok () :=
  included_of_isSubtype s t h ⟨hs, hs'⟩ ⟨ht, ht'⟩ v hv

/-- A list of users, behind an alias and not missing, is a list of anything that may be missing. -/
theorem check_of_isSubtype_users :
    (Ty.some (.list (.aliased "admin" (.object "User")))).isSubtype (.option (.list .any)) = true ∧
      (list [record (Option.some "User") []]).check (.option (.list .any)) = .ok () := by
  have hsub : (Ty.some (.list (.aliased "admin" (.object "User")))).isSubtype
      (.option (.list .any)) = true := by
    simp [isSubtype]
  have huser : Tame (.object "User") := by
    refine ⟨not_mentions.mpr ⟨id, by simp [parts]⟩, not_mentions.mpr ⟨?_, by simp [parts]⟩⟩
    rintro ⟨name, hname, h⟩
    cases h
    revert hname
    decide
  have hpart : ∀ {s t}, ¬ Coarse t → t.parts = [s] → Tame s → Tame t := fun ht h hs =>
    .of_parts ht (h ▸ List.forall_mem_singleton.mpr hs)
  have hs : Tame (.some (.list (.aliased "admin" (.object "User")))) :=
    hpart id rfl (hpart id rfl (hpart id rfl huser))
  have ht : Tame (.option (.list .any)) :=
    hpart id rfl (hpart id rfl (.of_parts id (by simp [parts])))
  exact ⟨hsub, check_of_isSubtype hs.exposed hs.candid ht.exposed ht.candid hsub rfl⟩

end Value

end Ascription
