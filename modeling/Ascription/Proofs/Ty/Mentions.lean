import Ascription.Ty

/-!
# Proofs/Ty/Mentions — what stands within a type

A type mentions what it is and what its parts mention; an alias has its target for a part.
-/

namespace Ascription

namespace Ty

/-- The types a type is made of. -/
def parts : Ty → List Ty
  | option t | some t | list t | aliased _ t => [t]
  | map k v => [k, v]
  | func r ps => r :: ps
  | struct fields => fields.map Prod.snd
  | _ => []

/-- **A type mentions** a type with the property `p`. -/
inductive Mentions (p : Ty → Prop) : Ty → Prop
  | here {t} (holds : p t) : Mentions p t
  | part {s t} (mem : s ∈ t.parts) (mentions : Mentions p s) : Mentions p t

theorem Mentions.mono {p q : Ty → Prop} (hpq : ∀ t, p t → q t) {t : Ty} (h : Mentions p t) :
    Mentions q t := by
  induction h with
  | here holds => exact .here (hpq _ holds)
  | part mem _ ih => exact .part mem ih

theorem not_mentions {p : Ty → Prop} {t : Ty} :
    ¬ Mentions p t ↔ ¬ p t ∧ ∀ s ∈ t.parts, ¬ Mentions p s := by
  constructor
  · exact fun h => ⟨fun hp => h (.here hp), fun s hs hm => h (.part hs hm)⟩
  · rintro ⟨hp, hs⟩ h
    cases h with
    | here holds => exact hp holds
    | part mem mentions => exact hs _ mem mentions

/-- The type behind the aliases mentions no more. -/
theorem not_mentions_canonical {p : Ty → Prop} :
    ∀ {t : Ty}, ¬ Mentions p t → ¬ Mentions p t.canonical
  | .aliased _ t, h =>
    not_mentions_canonical (t := t) ((not_mentions.mp h).2 t (List.mem_singleton_self t))
  | .any, h | .string, h | .int, h | .float, h | .bool, h | .none, h | .never, h | .func _ _, h
  | .list _, h | .map _ _, h | .struct _, h | .option _, h | .some _, h | .object _, h => h

/-- The names that tell the forms of types apart. -/
def tags : List String :=
  ["string", "int", "float", "bool", "any", "never", "None", "Option", "Some", "list", "map",
    "Func", "struct"]

/-- A host object that carries the name of another form. -/
def Disguised (t : Ty) : Prop := ∃ name ∈ tags, t = object name

theorem not_disguised_of_ne_object {t : Ty} (h : ∀ name, t ≠ object name) : ¬ Disguised t := by
  rintro ⟨name, -, rfl⟩
  exact h name rfl

/-- **No object in the type is disguised** as another form. -/
def Candid (t : Ty) : Prop := ¬ Mentions Disguised t

/-- A map, a struct or an object: subtyping goes by their names alone. -/
def Coarse : Ty → Prop
  | map _ _ | struct _ | object _ => True
  | _ => False

/-- A map or a struct: subtyping looks at none of its parts. -/
def Aggregate : Ty → Prop
  | map _ _ | struct _ => True
  | _ => False

/-- **A type that mentions no map, struct or object.** -/
def Plain (t : Ty) : Prop := ¬ Mentions Coarse t

namespace Candid

theorem parts {t : Ty} (h : Candid t) {s : Ty} (hs : s ∈ t.parts) : Candid s :=
  (not_mentions.mp h).2 s hs

/-- A type that is no object is candid if its parts are. -/
theorem of_parts {t : Ty} (ht : ∀ name, t ≠ object name) (h : ∀ s ∈ t.parts, Candid s) : Candid t :=
  not_mentions.mpr ⟨not_disguised_of_ne_object ht, h⟩

theorem of_leaf {t : Ty} (ht : ∀ name, t ≠ object name) (h : t.parts = []) : Candid t :=
  of_parts ht (h ▸ List.forall_mem_nil _)

theorem canonical {t : Ty} (h : Candid t) : Candid t.canonical := not_mentions_canonical h

end Candid

/-- **A type of which subtyping sees all**: it mentions no map and no struct, and no object in it is
disguised. -/
structure Tame (t : Ty) : Prop where
  exposed : ¬ Mentions Aggregate t
  candid : t.Candid

namespace Tame

theorem parts {t : Ty} (h : Tame t) {s : Ty} (hs : s ∈ t.parts) : Tame s :=
  ⟨(not_mentions.mp h.exposed).2 s hs, h.candid.parts hs⟩

/-- A type that is no map, struct or object is tame if its parts are. -/
theorem of_parts {t : Ty} (ht : ¬ Coarse t) (h : ∀ s ∈ t.parts, Tame s) : Tame t := by
  refine ⟨not_mentions.mpr ⟨?_, fun s hs => (h s hs).exposed⟩,
    .of_parts ?_ fun s hs => (h s hs).candid⟩
  · intro ha
    cases t with
    | map | struct => exact ht trivial
    | _ => exact ha
  · rintro name rfl
    exact ht trivial

theorem not_aggregate {t : Ty} (h : Tame t) : ¬ Aggregate t := (not_mentions.mp h.exposed).1

end Tame

theorem Plain.tame {t : Ty} (h : Plain t) : Tame t := by
  refine ⟨mt (Mentions.mono fun s hs => ?_) h, mt (Mentions.mono fun s hs => ?_) h⟩
  · cases s with
    | map | struct => trivial
    | _ => cases hs
  · obtain ⟨name, -, rfl⟩ := hs
    trivial

/-! ## Names -/

/-- **Types of one form**: the same, or built in the same way. -/
inductive SameForm : Ty → Ty → Prop
  | refl {t} : SameForm t t
  | option {s t} : SameForm (option s) (option t)
  | some {s t} : SameForm (some s) (some t)
  | list {s t} : SameForm (list s) (list t)
  | map {k v k' v'} : SameForm (map k v) (map k' v')
  | func {r ps r' ps'} : SameForm (func r ps) (func r' ps')
  | struct {fs fs'} : SameForm (struct fs) (struct fs')

/-- **A name tells the form**, unless an object is disguised. -/
theorem sameForm_of_name_eq {a b : Ty} (ha : ¬ Disguised a) (hb : ¬ Disguised b)
    (ha' : ∀ name t, a ≠ aliased name t) (hb' : ∀ name t, b ≠ aliased name t)
    (h : a.name = b.name) : SameForm a b := by
  cases a with
  | aliased name t => exact absurd rfl (ha' name t)
  | object name =>
    cases b with
    | aliased name t => exact absurd rfl (hb' name t)
    | object name' =>
      obtain rfl : name = name' := h
      exact .refl
    | _ =>
      obtain rfl := h
      exact absurd ⟨_, by simp [Ty.name, tags], rfl⟩ ha
  | _ =>
    cases b with
    | aliased name t => exact absurd rfl (hb' name t)
    | object name =>
      obtain rfl := h
      exact absurd ⟨_, by simp [Ty.name, tags], rfl⟩ hb
    | _ => first
      | constructor
      | exact absurd h (by simp [Ty.name])

end Ty

end Ascription
