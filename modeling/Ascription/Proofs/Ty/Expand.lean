import Ascription.Proofs.Rule

/-!
# Proofs/Ty/Expand — types without their aliases

`canonical` looks through the aliases at the top of a type, `expand` through those at every depth.
Equality goes by names, so it takes types for one another that differ in more than their aliases; of
types that are `Comparable` it sees all that tells their values apart.
-/

namespace Ascription

namespace Ty

mutual

/-- **A type with its aliases replaced by their targets**, at every depth. -/
def expand : Ty → Ty
  | aliased _ t => expand t
  | option t => option (expand t)
  | some t => some (expand t)
  | list t => list (expand t)
  | map k v => map (expand k) (expand v)
  | func r ps => func (expand r) (expandAll ps)
  | struct fields => struct (expandFields fields)
  | t => t

/-- The types of a list, expanded. -/
def expandAll : List Ty → List Ty
  | [] => []
  | t :: ts => expand t :: expandAll ts

/-- The fields of a struct type, expanded. -/
def expandFields : List (String × Ty) → List (String × Ty)
  | [] => []
  | (name, t) :: rest => (name, expand t) :: expandFields rest

end

/-! ## What equality compares -/

/-- A type that holds values of other types. -/
def Container : Ty → Prop
  | option _ | some _ | list _ | map _ _ | struct _ => True
  | _ => False

/-- **Types that equality can tell apart** by their values: types that differ in their aliases only,
lists of types that it can tell apart, and undisguised types of which the second is no container. -/
inductive Comparable : Ty → Ty → Prop
  | same {s t} (expanded : s.expand = t.expand) : Comparable s t
  | list {s t s' t'} (left : s.canonical = list s') (right : t.canonical = list t')
      (elements : Comparable s' t') : Comparable s t
  | named {s t} (left : ¬ Disguised s.canonical) (right : ¬ Disguised t.canonical)
      (held : ¬ Container t.canonical) : Comparable s t

end Ty

end Ascription
