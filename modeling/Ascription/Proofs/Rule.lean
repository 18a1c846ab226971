import Ascription.Proofs.Except
import Ascription.Proofs.Ty.Mentions
import Ascription.Rule

/-!
# Proofs/Rule — what the static rules accept

The rules speak of types through aliases, so what they accept is said of canonical types.
-/

namespace Ascription

namespace Ty

theorem canonical_ne_aliased : ∀ {t : Ty} {name : String} {target : Ty},
    t.canonical ≠ aliased name target
  | .aliased _ t, _, _, h => canonical_ne_aliased (t := t) h

theorem equal_canonical : ∀ {t b : Ty}, t.canonical.equal b = t.equal b
  | .aliased _ t, b => (equal_canonical (t := t)).trans (by rw [equal])
  | .any, _ | .string, _ | .int, _ | .float, _ | .bool, _ | .none, _ | .never, _ | .func _ _, _
  | .list _, _ | .map _ _, _ | .struct _, _ | .option _, _ | .some _, _ | .object _, _ => rfl

mutual

/-- **Every type is equal to itself**, and an alias of it as well. -/
theorem equal_self_of_canonical : ∀ {t b : Ty}, b.canonical = t.canonical → t.equal b = true
  | .aliased _ t, b, h => by
      rw [equal]
      exact equal_self_of_canonical h
  | .list t, b, h => by
      rw [equal, h]
      exact equal_self_of_canonical rfl
  | .func t ts, b, h => by
      rw [equal, h]
      exact Bool.and_eq_true_iff.mpr ⟨equal_self_of_canonical rfl, equalAll_self⟩
  | .any, b, h | .string, b, h | .int, b, h | .float, b, h | .bool, b, h | .none, b, h
  | .never, b, h | .map _ _, b, h | .struct _, b, h | .option _, b, h | .some _, b, h
  | .object _, b, h => (congrArg (_ == Ty.name ·) h).trans (beq_self_eq_true _)

theorem equalAll_self : ∀ {ts : List Ty}, equalAll ts ts = true
  | [] => rfl
  | t :: ts => by
      rw [equalAll]
      exact Bool.and_eq_true_iff.mpr ⟨equal_self_of_canonical rfl, equalAll_self⟩

end

theorem equal_self (t : Ty) : t.equal t = true := equal_self_of_canonical rfl

theorem isNumeric_iff {t : Ty} : t.isNumeric = true ↔ t.canonical = int ∨ t.canonical = float := by
  rw [isNumeric]
  cases t.canonical <;> simp

theorem isBool_iff {t : Ty} : t.isBool = true ↔ t.canonical = bool := by
  rw [isBool]
  cases t.canonical <;> simp

theorem fields?_eq_some {t : Ty} {fields : List (String × Ty)} :
    t.fields? = Option.some fields ↔ t.canonical = struct fields := by
  rw [fields?]
  cases t.canonical <;> simp

/-- Types that are equal have one name behind their aliases. -/
theorem name_eq_of_equal {s t : Ty} (h : s.equal t = true) :
    s.canonical.name = t.canonical.name := by
  rw [← equal_canonical] at h
  cases hs : s.canonical with
  | aliased name target => exact absurd hs canonical_ne_aliased
  | list | func =>
    rw [hs, equal] at h
    split at h
    case h_1 ht => rw [ht, name, name]
    case h_2 => cases h
  | _ =>
    rw [hs] at h
    simpa [equal] using h

/-- Types that are equal have one form behind their aliases, unless an object is disguised. -/
theorem sameForm_of_equal {s t : Ty} (hs : ¬ Disguised s.canonical) (ht : ¬ Disguised t.canonical)
    (h : s.equal t = true) : SameForm s.canonical t.canonical :=
  sameForm_of_name_eq hs ht (fun _ _ => canonical_ne_aliased) (fun _ _ => canonical_ne_aliased)
    (name_eq_of_equal h)

/-- Number types that are equal are the same behind their aliases. -/
theorem canonical_eq_of_equal {a b : Ty} (ha : a.isNumeric = true) (hb : b.isNumeric = true)
    (h : a.equal b = true) : a.canonical = b.canonical := by
  have hname := name_eq_of_equal h
  obtain ha | ha := isNumeric_iff.mp ha <;> obtain hb | hb := isNumeric_iff.mp hb
  · rw [ha, hb]
  · simp [ha, hb, name] at hname
  · simp [ha, hb, name] at hname
  · rw [ha, hb]

/-- **Only `int` passes for `int`** where no object is disguised. -/
theorem canonical_eq_int {t : Ty} (ht : t.Candid) (h : t.equal int = true) : t.canonical = int := by
  have hint : ¬ Disguised int.canonical := not_disguised_of_ne_object (by simp [canonical])
  have hform := sameForm_of_equal (not_mentions.mp ht.canonical).1 hint h
  generalize t.canonical = c at hform ⊢
  cases hform
  rfl

end Ty

namespace Rule

theorem expectEqual_eq_ok {expected : Ty} {found : Typed} :
    expectEqual expected found = .ok () ↔ found.type.equal expected = true := by
  rw [expectEqual]
  split <;> simp_all

theorem expectNumeric_eq_ok {op : Operator} {operand : Typed} :
    expectNumeric op operand = .ok () ↔ operand.type.isNumeric = true := by
  rw [expectNumeric]
  split <;> simp_all

theorem expectBool_eq_ok {op : Operator} {operand : Typed} :
    expectBool op operand = .ok () ↔ operand.type.isBool = true := by
  rw [expectBool]
  split <;> simp_all

theorem disjunction_eq_ok {left right : Typed} :
    disjunction left right = .ok () ↔ left.type.isBool = true ∧ right.type.isBool = true := by
  rw [disjunction, Except.then_eq_ok, expectBool_eq_ok, expectBool_eq_ok]

theorem arithmetic_eq_ok {op : Operator} {left right : Typed} :
    arithmetic op left right = .ok () ↔ left.type.isNumeric = true ∧ right.type.isNumeric = true ∧
      right.type.equal left.type = true := by
  rw [arithmetic, Except.then_eq_ok, Except.then_eq_ok, expectNumeric_eq_ok, expectNumeric_eq_ok,
    expectEqual_eq_ok]

theorem listElement_eq_ok {first : Ty} {element : Typed} :
    listElement first element = .ok () ↔ element.type.isSubtype first = true := by
  rw [listElement]
  split <;> simp_all

/-- On a struct the field's own type is the type of the access. -/
theorem fieldType_eq_ok {target t : Ty} {field : String} {ascribed : Option Ty} {span : Span}
    {fields : List (String × Ty)} (ht : target.fields? = some fields)
    (h : fieldType target field ascribed span = .ok t) : fields.lookup field = some t := by
  unfold fieldType at h
  simp only [ht] at h
  cases hl : fields.lookup field with
  | none =>
    rw [hl] at h
    cases h
  | some type =>
    rw [hl] at h
    cases ascribed with
    | none =>
      cases h
      rfl
    | some a =>
      obtain ⟨-, h⟩ := Except.then_eq_ok.mp h
      cases h
      rfl

/-- What the rule gives is accepted as the annotation. -/
theorem fieldType_self {target t : Ty} {field : String} {ascribed : Option Ty} {span at' : Span}
    (h : fieldType target field ascribed span = .ok t) :
    fieldType target field (some t) at' = .ok t := by
  cases hf : target.fields? with
  | none =>
    unfold fieldType at h ⊢
    cases ascribed <;> simp_all
  | some fields =>
    have hl := fieldType_eq_ok hf h
    unfold fieldType
    simp only [hf, hl]
    exact Except.then_eq_ok.mpr ⟨expectEqual_eq_ok.mpr (Ty.equal_self t), rfl⟩

/-- The span is for the error only. -/
theorem fieldType_span {target t : Ty} {field : String} {ascribed : Option Ty} {span span' : Span}
    (h : fieldType target field ascribed span = .ok t) :
    fieldType target field ascribed span' = .ok t := by
  cases hf : target.fields? with
  | none =>
    unfold fieldType at h ⊢
    cases ascribed <;> simp_all
  | some fields =>
    have hl := fieldType_eq_ok hf h
    unfold fieldType at h ⊢
    simp only [hf, hl] at h ⊢
    cases ascribed with
    | none => rfl
    | some a =>
      have ha := expectEqual_eq_ok.mp (Except.then_eq_ok.mp h).1
      exact Except.then_eq_ok.mpr ⟨expectEqual_eq_ok.mpr ha, rfl⟩

/-- **Lists are indexed by integers, maps by their keys.** -/
theorem offsetType_eq_ok {target key : Typed} {t : Ty} :
    offsetType target key = .ok t ↔
      (target.type.canonical = .list t ∧ key.type.equal .int = true) ∨
      ∃ k, target.type.canonical = .map k t ∧ key.type.equal k = true := by
  rw [offsetType]
  cases target.type.canonical with
  | list element =>
    refine Except.then_eq_ok.trans ?_
    rw [expectEqual_eq_ok]
    simp [and_comm]
  | map k v =>
    refine Except.then_eq_ok.trans ?_
    rw [expectEqual_eq_ok]
    constructor
    · rintro ⟨hk, ⟨⟩⟩
      exact .inr ⟨k, rfl, hk⟩
    · rintro (⟨⟨⟩, -⟩ | ⟨_, ⟨⟩, hk⟩)
      exact ⟨hk, rfl⟩
  | _ => simp

end Rule

end Ascription
