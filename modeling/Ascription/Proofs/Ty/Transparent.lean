import Ascription.Proofs.Ty.Expand

/-!
# Proofs/Ty/Transparent — aliases decide nothing about types

       t ──────expand──────▸ t.expand
       │                        ║             every question goes to the type behind
    canonical                canonical        the aliases, and expansion keeps its form
       ▾                        ║
    t.canonical ──expand──▸ t.expand

Equality, subtyping and the static rules answer of expanded types what they answer of the types as
they are written; where a rule gives a type, it gives the expanded one, and where it refuses, it
finds the same fault in the same place.
-/

namespace Ascription

namespace Ty

/-! ## The type behind the aliases -/

theorem expand_canonical : ∀ {t : Ty}, t.canonical.expand = t.expand
  | .aliased _ t => expand_canonical (t := t)
  | .any | .string | .int | .float | .bool | .none | .never | .func _ _ | .list _ | .map _ _
  | .struct _ | .option _ | .some _ | .object _ => rfl

/-- No alias is left in front of an expanded type. -/
theorem canonical_expand : ∀ {t : Ty}, t.expand.canonical = t.expand
  | .aliased _ t => canonical_expand (t := t)
  | .any | .string | .int | .float | .bool | .none | .never | .func _ _ | .list _ | .map _ _
  | .struct _ | .option _ | .some _ | .object _ => rfl

theorem canonical_expand_comm {t : Ty} : t.expand.canonical = t.canonical.expand :=
  canonical_expand.trans expand_canonical.symm

/-- Expansion keeps the form of a type that is no alias. -/
theorem sameForm_expand {t : Ty} (h : ∀ name target, t ≠ aliased name target) :
    SameForm t t.expand := by
  cases t with
  | aliased name target => exact absurd rfl (h name target)
  | _ => constructor

theorem SameForm.name_eq {s t : Ty} (h : SameForm s t) : s.name = t.name := by
  cases h <;> rfl

theorem sameForm_canonical_expand {t : Ty} : SameForm t.canonical t.expand.canonical :=
  canonical_expand_comm ▸ sameForm_expand fun _ _ => canonical_ne_aliased

/-! ## Equality and subtyping -/

mutual

/-- **Types are equal when they are so expanded.** -/
theorem equal_expand : ∀ {a b : Ty}, a.expand.equal b.expand = a.equal b
  | .aliased _ a, _ => equal_expand (a := a)
  | .list x, b => by
    rw [expand, equal, equal, canonical_expand_comm]
    cases hb : b.canonical with
    | aliased name target => exact absurd hb canonical_ne_aliased
    | list y => exact equal_expand (a := x) (b := y)
    | _ => rfl
  | .func r ps, b => by
    have hresult := fun r' => @equal_expand r r'
    have hparams := fun ps' => @equalAll_expand ps ps'
    rw [expand, equal, equal, canonical_expand_comm]
    cases hb : b.canonical with
    | aliased name target => exact absurd hb canonical_ne_aliased
    | func r' ps' => simp only [expand, hresult, hparams]
    | _ => rfl
  | .any, _ | .string, _ | .int, _ | .float, _ | .bool, _ | .none, _ | .never, _ | .object _, _
  | .map _ _, _ | .struct _, _ | .option _, _ | .some _, _ =>
    congrArg (_ == ·) sameForm_canonical_expand.name_eq.symm

theorem equalAll_expand : ∀ {ps qs : List Ty},
    equalAll (expandAll ps) (expandAll qs) = equalAll ps qs
  | [], [] | [], _ :: _ | _ :: _, [] => rfl
  | p :: ps, q :: qs => by
    rw [expandAll, expandAll, equalAll, equalAll, equal_expand, equalAll_expand]

end

/-- **A type is a subtype of another when it is so expanded.**  Each rule of subtyping applies by
the forms of both types, which expansion keeps. -/
theorem isSubtype_expand (a b : Ty) : a.expand.isSubtype b.expand = a.isSubtype b := by
  refine isSubtype.induct (fun a b => a.expand.isSubtype b.expand = a.isSubtype b)
    (fun ps qs => takesAll (expandAll ps) (expandAll qs) = takesAll ps qs)
    ?aliasLeft ?aliasRight ?noneOption ?optionOption ?someOption ?otherOption ?never ?any ?anyLeft
    ?someSome ?listList ?funcFunc ?byName ?nil ?cons ?short a b
  case aliasLeft =>
    intro name a b ih
    rw [isSubtype]
    exact ih
  case aliasRight =>
    intro a name b hne ih
    rw [isSubtype.eq_2 _ _ _ hne]
    exact ih
  case noneOption =>
    intro b
    simp only [expand, isSubtype]
  case optionOption | someOption | someSome | listList =>
    intro a b ih
    simpa only [expand, isSubtype] using ih
  case funcFunc =>
    intro r ps r' ps' ih ih'
    simp only [expand, isSubtype, ih, ih']
  case otherOption =>
    intro a b h₁ h₂ h₃ h₄ ih
    have ha := sameForm_expand h₁
    rw [isSubtype.eq_6 _ _ h₁ h₂ h₃ h₄, ← ih, expand]
    generalize a.expand = a' at ha ⊢
    rw [isSubtype.eq_6 a'] <;> grind [cases SameForm]
  case never =>
    intro b h₁ h₂
    have hb := sameForm_expand h₁
    rw [isSubtype.eq_7 b h₁ h₂]
    change isSubtype never b.expand = true
    generalize b.expand = b' at hb ⊢
    rw [isSubtype.eq_7 b'] <;> grind [cases SameForm]
  case any =>
    intro a h₁ h₂
    have ha := sameForm_expand h₁
    rw [isSubtype.eq_8 a h₁ h₂]
    change isSubtype a.expand any = true
    generalize a.expand = a' at ha ⊢
    rw [isSubtype.eq_8 a'] <;> grind [cases SameForm]
  case anyLeft =>
    intro b h₁ h₂ h₃
    have hb := sameForm_expand h₁
    rw [isSubtype.eq_9 b h₁ h₂ h₃]
    change isSubtype any b.expand = false
    generalize b.expand = b' at hb ⊢
    rw [isSubtype.eq_9 b'] <;> grind [cases SameForm]
  case byName =>
    intro a b h₁ h₂ h₃ h₄ h₅ h₆ h₇ h₈ h₉ h₁₀ h₁₁ h₁₂
    have ha := sameForm_expand h₁
    have hb := sameForm_expand h₂
    rw [isSubtype.eq_13 a b h₁ h₇ h₉ h₂ h₆ h₈ h₃ h₄ h₅ h₁₀ h₁₁ h₁₂, ha.name_eq, hb.name_eq]
    generalize a.expand = a' at ha ⊢
    generalize b.expand = b' at hb ⊢
    rw [isSubtype.eq_13 a' b'] <;> grind [cases SameForm]
  case nil =>
    intro qs
    simp only [expandAll, takesAll]
  case cons =>
    intro p ps q qs ih ih'
    simp only [expandAll, takesAll, ih, ih']
  case short =>
    intro p ps
    simp only [expandAll, takesAll]

/-! ## Questions about the form -/

theorem isNumeric_expand {t : Ty} : t.expand.isNumeric = t.isNumeric := by
  rw [isNumeric, isNumeric, canonical_expand_comm]
  cases ht : t.canonical with
  | aliased name target => exact absurd ht canonical_ne_aliased
  | _ => rfl

theorem isBool_expand {t : Ty} : t.expand.isBool = t.isBool := by
  rw [isBool, isBool, canonical_expand_comm]
  cases ht : t.canonical with
  | aliased name target => exact absurd ht canonical_ne_aliased
  | _ => rfl

theorem fields?_expand {t : Ty} : t.expand.fields? = t.fields?.map expandFields := by
  rw [fields?, fields?, canonical_expand_comm]
  cases ht : t.canonical with
  | aliased name target => exact absurd ht canonical_ne_aliased
  | _ => rfl

theorem lookup_expandFields {fields : List (String × Ty)} {name : String} :
    (expandFields fields).lookup name = (fields.lookup name).map expand := by
  induction fields with
  | nil => rfl
  | cons f fields ih =>
    obtain ⟨name', t⟩ := f
    rw [expandFields, List.lookup_cons, List.lookup_cons, ih]
    split <;> rfl

end Ty

/-! ## The static rules -/

/-- The same expression with its type expanded. -/
def Typed.expand (x : Typed) : Typed := ⟨x.type.expand, x.span⟩

/-- An error with the types it is about expanded. -/
def TypeError.expand : TypeError → TypeError
  | mismatch expected found span => mismatch expected.expand found.expand span
  | badOperand op expected found span => badOperand op expected found.expand span
  | noSuchField type field span => noSuchField type.expand field span
  | notAStruct found field span => notAStruct found.expand field span
  | notIndexable found span => notIndexable found.expand span
  | invalidKeyType found span => invalidKeyType found.expand span
  | declarationConflict name declared annotated span declaredAt =>
    declarationConflict name declared.expand annotated.expand span declaredAt
  | e => e

namespace Rule

open Ty

variable {a b : Typed} {op : Operator}

theorem expectEqual_expand {t : Ty} :
    expectEqual t.expand a.expand = (expectEqual t a).mapError TypeError.expand := by
  rw [expectEqual, expectEqual, Typed.expand, equal_expand]
  split <;> rfl

theorem expectNumeric_expand :
    expectNumeric op a.expand = (expectNumeric op a).mapError TypeError.expand := by
  rw [expectNumeric, expectNumeric, Typed.expand, isNumeric_expand]
  split <;> rfl

theorem expectBool_expand :
    expectBool op a.expand = (expectBool op a).mapError TypeError.expand := by
  rw [expectBool, expectBool, Typed.expand, isBool_expand]
  split <;> rfl

theorem equality_expand :
    equality a.expand b.expand = (equality a b).mapError TypeError.expand := expectEqual_expand

theorem disjunction_expand :
    disjunction a.expand b.expand = (disjunction a b).mapError TypeError.expand := by
  rw [disjunction, disjunction, Except.then_mapError, expectBool_expand, expectBool_expand]

theorem arithmetic_expand :
    arithmetic op a.expand b.expand = (arithmetic op a b).mapError TypeError.expand := by
  rw [arithmetic, arithmetic, Except.then_mapError, Except.then_mapError, expectNumeric_expand,
    expectNumeric_expand, ← expectEqual_expand]
  rfl

theorem negation_expand : negation a.expand = (negation a).mapError TypeError.expand :=
  expectNumeric_expand

theorem listElement_expand {first : Ty} :
    listElement first.expand a.expand = (listElement first a).mapError TypeError.expand := by
  rw [listElement, listElement, Typed.expand, isSubtype_expand]
  split <;> rfl

theorem fieldType_expand {target : Ty} {field : String} {ascribed : Option Ty} {span : Span} :
    fieldType target.expand field (ascribed.map Ty.expand) span =
      ((fieldType target field ascribed span).map Ty.expand).mapError TypeError.expand := by
  unfold fieldType
  rw [fields?_expand]
  cases target.fields? with
  | none => cases ascribed <;> rfl
  | some fields =>
    simp only [Option.map_some, lookup_expandFields]
    cases fields.lookup field with
    | none => rfl
    | some type =>
      cases ascribed with
      | none => rfl
      | some t =>
        have h : expectEqual type.expand ⟨t.expand, span⟩ = _ := expectEqual_expand (a := ⟨t, span⟩)
        simp only [Option.map_some, h]
        cases expectEqual type ⟨t, span⟩ <;> rfl

theorem offsetType_expand :
    offsetType a.expand b.expand =
      ((offsetType a b).map Ty.expand).mapError TypeError.expand := by
  have hint : expectEqual .int b.expand = _ := expectEqual_expand (t := .int) (a := b)
  rw [offsetType, offsetType, Typed.expand, canonical_expand_comm]
  cases ha : a.type.canonical with
  | aliased name target => exact absurd ha canonical_ne_aliased
  | list element =>
    simp only [expand, hint]
    cases expectEqual .int b <;> rfl
  | map k v =>
    simp only [expand, expectEqual_expand]
    cases expectEqual k b <;> rfl
  | _ => rfl

end Rule

end Ascription
