import Ascription.Proofs.Ty.Mentions

/-!
# Proofs/Ty/Subtype — subtyping is a preorder with bounds

    a.isSubtype b = true   ⟺   Below a b        (no object in a and b disguised)

`isSubtype` tries its rules in an order.  `Below` has the same rules without the order, one
constructor each, so that a chain `a ≤ b ≤ c` is taken apart by the last rule of both halves.
Functions turn the order of their parameters around, which is why transitivity goes by the sizes of
the three types together and not by one of the derivations.
-/

namespace Ascription

namespace Ty

/-! ## The rules without their order -/

/-- A type whose values are lifted into an option as they are. -/
def Bare : Ty → Prop
  | none | option _ | some _ | aliased _ _ => False
  | _ => True

/-- A type without parts, neither the bottom nor the top of subtyping. -/
def Atomic : Ty → Prop
  | string | int | float | bool | none | object _ => True
  | _ => False

mutual

/-- **Standing below another type**, by one of the rules of subtyping. -/
inductive Below : Ty → Ty → Prop
  | aliasedLeft {name a b} (target : Below a b) : Below (aliased name a) b
  | aliasedRight {name a b} (target : Below a b) : Below a (aliased name b)
  | never {b} : Below never b
  | any {a} : Below a any
  | none {b} : Below none (option b)
  | option {a b} (inner : Below a b) : Below (option a) (option b)
  | present {a b} (inner : Below a b) : Below (some a) (option b)
  | lifted {a b} (bare : Bare a) (inner : Below a b) : Below a (option b)
  | some {a b} (inner : Below a b) : Below (some a) (some b)
  | list {a b} (element : Below a b) : Below (list a) (list b)
  | func {r ps r' ps'} (result : Below r r') (params : Takes ps ps') :
      Below (func r ps) (func r' ps')
  | map {k v k' v'} : Below (map k v) (map k' v')
  | struct {fs fs'} : Below (struct fs) (struct fs')
  | same {a} (atomic : Atomic a) : Below a a

/-- **Taking what another function takes**: of each parameter at least as much, and no more
parameters. -/
inductive Takes : List Ty → List Ty → Prop
  | nil {qs} : Takes [] qs
  | cons {p ps q qs} (head : Below q p) (tail : Takes ps qs) : Takes (p :: ps) (q :: qs)

end

theorem bare_iff {a : Ty} :
    Bare a ↔ (∀ name t, a ≠ aliased name t) ∧ a ≠ none ∧ (∀ t, a ≠ option t) ∧ ∀ t, a ≠ some t := by
  cases a <;> simp [Bare]

/-! ## The checker and the rules -/

theorem isSubtype_aliasedRight {a : Ty} {name : String} {b : Ty} :
    a.isSubtype (aliased name b) = a.isSubtype b := by
  cases a with
  | aliased _ a =>
    rw [isSubtype, isSubtype]
    exact isSubtype_aliasedRight (a := a)
  | _ => exact isSubtype.eq_2 _ _ _ (by simp)

theorem isSubtype_lifted {a b : Ty} (h : Bare a) : a.isSubtype (option b) = a.isSubtype b := by
  obtain ⟨h₁, h₂, h₃, h₄⟩ := bare_iff.mp h
  exact isSubtype.eq_6 _ _ h₁ h₂ h₃ h₄

/-- Nothing is below everything. -/
theorem never_isSubtype {b : Ty} : never.isSubtype b = true := by
  cases b with
  | aliased _ b => exact isSubtype_aliasedRight.trans (never_isSubtype (b := b))
  | option b => exact (isSubtype_lifted (a := never) trivial).trans (never_isSubtype (b := b))
  | _ => exact isSubtype.eq_7 _ (by simp) (by simp)

/-- Everything is below `any`. -/
theorem isSubtype_any {a : Ty} : a.isSubtype any = true := by
  cases a with
  | aliased _ a =>
    rw [isSubtype]
    exact isSubtype_any (a := a)
  | never => exact never_isSubtype
  | _ => exact isSubtype.eq_8 _ (by simp) (by simp)

theorem isSubtype_same : ∀ {a : Ty}, Atomic a → a.isSubtype a = true
  | .string, _ | .int, _ | .float, _ | .bool, _ | .none, _ => by simp [isSubtype, name]
  | .object _, _ => by simp [isSubtype]

mutual

/-- The checker accepts what the rules accept. -/
theorem Below.isSubtype : ∀ {a b : Ty}, Below a b → a.isSubtype b = true
  | _, _, .aliasedLeft target => by
    rw [Ty.isSubtype]
    exact target.isSubtype
  | _, _, .aliasedRight target => isSubtype_aliasedRight.trans target.isSubtype
  | _, _, .never => never_isSubtype
  | _, _, .any => isSubtype_any
  | _, _, .none => isSubtype.eq_3 _
  | _, _, .option inner => (isSubtype.eq_4 _ _).trans inner.isSubtype
  | _, _, .present inner => (isSubtype.eq_5 _ _).trans inner.isSubtype
  | _, _, .lifted bare inner => (isSubtype_lifted bare).trans inner.isSubtype
  | _, _, .some inner => (isSubtype.eq_10 _ _).trans inner.isSubtype
  | _, _, .list element => (isSubtype.eq_11 _ _).trans element.isSubtype
  | _, _, .func result params => by
    rw [isSubtype.eq_12, result.isSubtype, params.takesAll]
    rfl
  | _, _, .map | _, _, .struct => by simp [Ty.isSubtype, name]
  | _, _, .same atomic => isSubtype_same atomic

theorem Takes.takesAll : ∀ {ps qs : List Ty}, Takes ps qs → takesAll ps qs = true
  | _, _, .nil => takesAll.eq_1 _
  | _, _, .cons head tail => by
    rw [Ty.takesAll, head.isSubtype, tail.takesAll]
    rfl

end

/-- What the checker accepts is below by its rules, unless an object is disguised. -/
theorem below_of_isSubtype (a b : Ty) :
    a.isSubtype b = true → a.Candid → b.Candid → Below a b := by
  refine isSubtype.induct (fun a b => a.isSubtype b = true → a.Candid → b.Candid → Below a b)
    (fun ps qs => takesAll ps qs = true → (∀ p ∈ ps, p.Candid) → (∀ q ∈ qs, q.Candid) → Takes ps qs)
    ?aliasLeft ?aliasRight ?noneOption ?optionOption ?someOption ?otherOption ?never ?any ?anyLeft
    ?someSome ?listList ?funcFunc ?byName ?nil ?cons ?short a b
  case aliasLeft =>
    intro name a b ih h ha hb
    rw [isSubtype] at h
    exact .aliasedLeft (ih h (ha.parts (List.mem_singleton_self a)) hb)
  case aliasRight =>
    intro a name b hne ih h ha hb
    rw [isSubtype_aliasedRight] at h
    exact .aliasedRight (ih h ha (hb.parts (List.mem_singleton_self b)))
  case noneOption =>
    intros
    exact .none
  case optionOption | someOption | someSome | listList =>
    intro a b ih h ha hb
    rw [isSubtype] at h
    have hab := ih h (ha.parts (List.mem_singleton_self a)) (hb.parts (List.mem_singleton_self b))
    first | exact .option hab | exact .present hab | exact .some hab | exact .list hab
  case otherOption =>
    intro a b h₁ h₂ h₃ h₄ ih h ha hb
    have hbare : Bare a := bare_iff.mpr ⟨h₁, h₂, h₃, h₄⟩
    rw [isSubtype_lifted hbare] at h
    exact .lifted hbare (ih h ha (hb.parts (List.mem_singleton_self b)))
  case never =>
    intros
    exact .never
  case any =>
    intros
    exact .any
  case anyLeft =>
    intro b h₁ h₂ h₃ h
    rw [isSubtype.eq_9 _ h₁ h₂ h₃] at h
    cases h
  case funcFunc =>
    intro r ps r' ps' ih ih' h ha hb
    rw [isSubtype, Bool.and_eq_true] at h
    exact .func (ih h.1 (ha.parts List.mem_cons_self) (hb.parts List.mem_cons_self))
      (ih' h.2 (fun p hp => ha.parts (List.mem_cons_of_mem r hp))
        fun q hq => hb.parts (List.mem_cons_of_mem r' hq))
  case byName =>
    intro a b h₁ h₂ h₃ h₄ h₅ h₆ h₇ h₈ h₉ h₁₀ h₁₁ h₁₂ h ha hb
    rw [isSubtype.eq_13 _ _ h₁ h₇ h₉ h₂ h₆ h₈ h₃ h₄ h₅ h₁₀ h₁₁ h₁₂] at h
    -- The earlier rules have taken every other form that has parts or is a bound.
    cases sameForm_of_name_eq (not_mentions.mp ha).1 (not_mentions.mp hb).1 h₁ h₂
      (by simpa using h) with
    | refl =>
      cases a with
      | aliased | never | any | option | some | list => simp_all
      | func => exact (h₁₂ _ _ _ _ rfl rfl).elim
      | map => exact .map
      | struct => exact .struct
      | _ => exact .same trivial
    | map => exact .map
    | struct => exact .struct
    | option => exact (h₆ _ rfl).elim
    | some => exact (h₁₀ _ _ rfl rfl).elim
    | list => exact (h₁₁ _ _ rfl rfl).elim
    | func => exact (h₁₂ _ _ _ _ rfl rfl).elim
  case nil =>
    intros
    exact .nil
  case cons =>
    intro p ps q qs ih ih' h hps hqs
    rw [takesAll, Bool.and_eq_true] at h
    obtain ⟨hp, hps⟩ := List.forall_mem_cons.mp hps
    obtain ⟨hq, hqs⟩ := List.forall_mem_cons.mp hqs
    exact .cons (ih h.1 hq hp) (ih' h.2 hps hqs)
  case short =>
    intro p ps h
    rw [takesAll] at h
    cases h

/-- **The checker decides the rules**, where no object is disguised. -/
theorem isSubtype_iff_below {a b : Ty} (ha : a.Candid) (hb : b.Candid) :
    a.isSubtype b = true ↔ Below a b :=
  ⟨fun h => below_of_isSubtype a b h ha hb, Below.isSubtype⟩

/-! ## The preorder -/

mutual

theorem Below.refl : ∀ {a : Ty}, Below a a
  | .aliased _ _ => .aliasedLeft (.aliasedRight .refl)
  | .any => .any
  | .never => .never
  | .option _ => .option .refl
  | .some _ => .some .refl
  | .list _ => .list .refl
  | .func _ _ => .func .refl .refl
  | .map _ _ => .map
  | .struct _ => .struct
  | .string | .int | .float | .bool | .none | .object _ => .same trivial

theorem Takes.refl : ∀ {ps : List Ty}, Takes ps ps
  | [] => .nil
  | _ :: _ => .cons .refl .refl

end

/-- What is above everything has an option above everything. -/
theorem Below.option_top {b : Ty} (h : ∀ a, Below a b) : ∀ a, Below a (.option b)
  | .aliased _ a => .aliasedLeft (option_top h a)
  | .none => .none
  | .option a => .option (h a)
  | .some a => .present (h a)
  | .any | .never | .string | .int | .float | .bool | .func _ _ | .list _ | .map _ _ | .struct _
  | .object _ => .lifted trivial (h _)

/-- **What is above `any` is above everything.** -/
theorem Below.of_any : ∀ {b : Ty}, Below .any b → ∀ a, Below a b
  | _, .aliasedRight target, a => .aliasedRight (target.of_any a)
  | _, .any, _ => .any
  | _, .lifted _ inner, a => option_top inner.of_any a

mutual

/-- **The rules are transitive.** -/
theorem Below.trans : ∀ {a b c : Ty}, Below a b → Below b c → Below a c
  | _, _, _, .aliasedLeft h, h' => .aliasedLeft (h.trans h')
  | _, _, _, h, .aliasedRight h' => .aliasedRight (h.trans h')
  | _, _, _, .aliasedRight h, .aliasedLeft h' => h.trans h'
  | _, _, _, .never, _ => .never
  | _, _, _, _, .any => .any
  | _, _, _, .any, h' => h'.of_any _
  | _, _, _, .none, .option _ => .none
  | _, _, _, .option h, .option h' => .option (h.trans h')
  | _, _, _, .present h, .option h' => .present (h.trans h')
  | _, _, _, .lifted bare h, .option h' => .lifted bare (h.trans h')
  | _, _, _, .some h, .present h' => .present (h.trans h')
  | _, _, _, .some h, .some h' => .some (h.trans h')
  | _, _, _, .list h, .list h' => .list (h.trans h')
  | _, _, _, .func h hps, .func h' hps' => .func (h.trans h') (hps.trans hps')
  | _, _, _, .map, .map => .map
  | _, _, _, .struct, .struct => .struct
  | _, _, _, .same _, h' => h'
  | _, _, _, h, .same _ => h
  -- What is lifted goes up to the content of the option first.
  | _, _, _, .list h, .lifted _ h' => .lifted trivial ((Below.list h).trans h')
  | _, _, _, .func h hps, .lifted _ h' => .lifted trivial ((Below.func h hps).trans h')
  | _, _, _, .map, .lifted _ h' => .lifted trivial (Below.map.trans h')
  | _, _, _, .struct, .lifted _ h' => .lifted trivial (Below.struct.trans h')
termination_by a b c => sizeOf a + sizeOf b + sizeOf c

theorem Takes.trans : ∀ {ps qs rs : List Ty}, Takes ps qs → Takes qs rs → Takes ps rs
  | _, _, _, .nil, _ => .nil
  | _, _, _, .cons h hs, .cons h' hs' => .cons (h'.trans h) (hs.trans hs')
termination_by ps qs rs => sizeOf ps + sizeOf qs + sizeOf rs

end

/-! ## The checker is a preorder -/

theorem canonical_isSubtype : ∀ {a b : Ty}, a.canonical.isSubtype b = a.isSubtype b
  | .aliased _ a, _ => (canonical_isSubtype (a := a)).trans (isSubtype.eq_1 _ _ a).symm
  | .any, _ | .string, _ | .int, _ | .float, _ | .bool, _ | .none, _ | .never, _ | .func _ _, _
  | .list _, _ | .map _ _, _ | .struct _, _ | .option _, _ | .some _, _ | .object _, _ => rfl

theorem isSubtype_canonical : ∀ {a b : Ty}, a.isSubtype b.canonical = a.isSubtype b
  | _, .aliased _ b => (isSubtype_canonical (b := b)).trans isSubtype_aliasedRight.symm
  | _, .any | _, .string | _, .int | _, .float | _, .bool | _, .none | _, .never | _, .func _ _
  | _, .list _ | _, .map _ _ | _, .struct _ | _, .option _ | _, .some _ | _, .object _ => rfl

/-- **Subtyping is a preorder with bounds.**  Only transitivity needs that no object is disguised:
below an object called `list` is every list, and above it as well. -/
theorem isSubtype_preorder :
    (∀ t : Ty, t.isSubtype t = true) ∧
    (∀ a b c : Ty, a.Candid → b.Candid → c.Candid →
      a.isSubtype b = true → b.isSubtype c = true → a.isSubtype c = true) ∧
    (∀ bottom t : Ty, bottom.canonical = never → bottom.isSubtype t = true) ∧
    ∀ t top : Ty, top.canonical = any → t.isSubtype top = true := by
  refine ⟨fun _ => Below.refl.isSubtype, fun a b c ha hb hc hab hbc => ?_, fun bottom t h => ?_,
    fun t top h => ?_⟩
  · have hab := below_of_isSubtype a b hab ha hb
    exact (hab.trans (below_of_isSubtype b c hbc hb hc)).isSubtype
  · rw [← canonical_isSubtype, h]
    exact never_isSubtype
  · rw [← isSubtype_canonical, h]
    exact isSubtype_any

/-- A function that takes anything and always finds a user will do where one is wanted that takes a
list of numbers and may find a user, and so where it may be missing, is given an empty list and one
more argument, and may find anything. -/
theorem isSubtype_preorder_functions :
    let user : Ty := .aliased "user" (.object "User")
    let finder : Ty := .func (.some (.object "User")) [.any]
    let search : Ty := .func (.option user) [.list .int]
    let wanted : Ty := .option (.func (.option .any) [.list .never, .string])
    (finder.isSubtype search = true ∧ search.isSubtype wanted = true) ∧
      finder.isSubtype wanted = true := by
  intro user finder search wanted
  have hobject : Candid (.object "User") := by
    refine not_mentions.mpr ⟨?_, by simp [parts]⟩
    rintro ⟨name, hname, h⟩
    cases h
    revert hname
    decide
  have hany : Candid .any := .of_leaf nofun rfl
  have hstring : Candid .string := .of_leaf nofun rfl
  have hpart : ∀ {s t : Ty}, (∀ name, t ≠ object name) → t.parts = [s] → s.Candid → t.Candid :=
    fun ht h hs => .of_parts ht (h ▸ List.forall_mem_singleton.mpr hs)
  have hfound : Candid (.some (.object "User")) ∧ Candid (.option user) ∧ Candid (.option .any) :=
    ⟨hpart nofun rfl hobject, hpart nofun rfl (hpart nofun rfl hobject), hpart nofun rfl hany⟩
  have hlists : Candid (.list .int) ∧ Candid (.list .never) :=
    ⟨hpart nofun rfl (.of_leaf nofun rfl), hpart nofun rfl (.of_leaf nofun rfl)⟩
  have hfinder : finder.Candid := .of_parts nofun (by simp [finder, parts, hfound, hany])
  have hsearch : search.Candid := .of_parts nofun (by simp [search, parts, hfound, hlists])
  have hwanted : wanted.Candid :=
    hpart nofun rfl (.of_parts nofun (by simp [parts, hfound, hlists, hstring]))
  have h : finder.isSubtype search = true ∧ search.isSubtype wanted = true := by
    simp [finder, search, wanted, user, isSubtype, takesAll]
  exact ⟨h, isSubtype_preorder.2.1 finder search wanted hfinder hsearch hwanted h.1 h.2⟩

end Ty

end Ascription
