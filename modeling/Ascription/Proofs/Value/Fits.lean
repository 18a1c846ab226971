import Ascription.Proofs.Except
import Ascription.Value.Check

/-!
# Proofs/Value/Fits — which values fit a type

One equivalence for each form of type.  The type that a check carries along for its message decides
nothing, and an alias fits what its target fits.
-/

namespace Ascription

namespace Value

theorem checkPart_eq_ok {segment : PathSegment} {verdict : Except Mismatch Unit} :
    checkPart segment verdict = .ok () ↔ verdict = .ok () := Except.mapError_eq_ok

theorem checkItems_eq_ok {check : Value → Except Mismatch Unit} {i : Nat} {vs : List Value} :
    checkItems check i vs = .ok () ↔ ∀ v ∈ vs, check v = .ok () := by
  induction vs generalizing i with
  | nil => simp [checkItems]
  | cons v vs ih =>
    rw [checkItems, Except.then_eq_ok, checkPart_eq_ok, ih, List.forall_mem_cons]

theorem checkEntries_eq_ok {checkKey check : Value → Except Mismatch Unit}
    {es : List (MapKey × Value)} :
    checkEntries checkKey check es = .ok () ↔
      ∀ e ∈ es, checkKey e.1.toValue = .ok () ∧ check e.2 = .ok () := by
  induction es with
  | nil => simp [checkEntries]
  | cons e es ih =>
    obtain ⟨k, v⟩ := e
    rw [checkEntries, Except.then_eq_ok, Except.then_eq_ok, checkPart_eq_ok, checkPart_eq_ok, ih,
      List.forall_mem_cons, and_assoc]

/-- The written type is for the message only. -/
theorem checkAs_eq_ok {w w' : Ty} : ∀ {t : Ty} {v : Value},
    checkAs w t v = .ok () → checkAs w' t v = .ok ()
  | .aliased _ t, _, h => checkAs_eq_ok (t := t) h
  | .any, _, _ => rfl
  | .string, v, h | .int, v, h | .float, v, h | .bool, v, h | .none, v, h | .never, v, h
  | .func _ _, v, h | .list _, v, h | .map _ _, v, h | .struct _, v, h | .option _, v, h
  | .some _, v, h => by cases v <;> first | exact h | cases h
  | .object name, v, h => by
      cases v with
      | record kind fs =>
        cases kind with
        | none => cases h
        | some kind =>
          rw [checkAs] at h ⊢
          split at h
          case isTrue hk => rw [if_pos hk]
          case isFalse => cases h
      | _ => cases h

/-- **Fitting a type.** -/
def Fits (t : Ty) (v : Value) : Prop := v.check t = .ok ()

attribute [local simp] Fits check checkAs misfit

variable {t : Ty} {v : Value}

theorem fits_aliased {name : String} : Fits (.aliased name t) v ↔ Fits t v :=
  ⟨checkAs_eq_ok (t := t), checkAs_eq_ok (t := t)⟩

theorem fits_canonical : ∀ {t : Ty}, Fits t.canonical v ↔ Fits t v
  | .aliased _ t => (fits_canonical (t := t)).trans fits_aliased.symm
  | .any | .string | .int | .float | .bool | .none | .never | .func _ _ | .list _ | .map _ _
  | .struct _ | .option _ | .some _ | .object _ => Iff.rfl

theorem fits_any : Fits .any v := rfl

theorem fits_string : Fits .string v ↔ ∃ s, v = .string s := by
  cases v <;> simp

theorem fits_int : Fits .int v ↔ ∃ n, v = .int n := by
  cases v <;> simp

theorem fits_float : Fits .float v ↔ ∃ x, v = .float x := by
  cases v <;> simp

theorem fits_bool : Fits .bool v ↔ ∃ b, v = .bool b := by
  cases v <;> simp

theorem fits_none : Fits .none v ↔ v = .none := by
  cases v <;> simp

theorem not_fits_never : ¬ Fits .never v := by
  cases v <;> simp

theorem fits_option : Fits (.option t) v ↔ v = .none ∨ Fits t v := by
  cases v <;> simp

theorem fits_some : Fits (.some t) v ↔ v ≠ .none ∧ Fits t v := by
  cases v <;> simp

theorem fits_func {result : Ty} {params : List Ty} :
    Fits (.func result params) v ↔ ∃ identity code, v = .callable identity code := by
  cases v <;> simp

theorem fits_list : Fits (.list t) v ↔ ∃ vs, v = .list vs ∧ ∀ w ∈ vs, Fits t w := by
  cases v <;> simp [checkItems_eq_ok]

theorem fits_map {key : Ty} :
    Fits (.map key t) v ↔ ∃ es, v = .map es ∧ ∀ e ∈ es, Fits key e.1.toValue ∧ Fits t e.2 := by
  cases v <;> simp [checkEntries_eq_ok]

theorem checkFields_eq_ok {fields : List (String × Ty)} {kind : Option String}
    {fs : List (String × Value)} :
    checkFields fields kind fs = .ok () ↔
      ∀ f ∈ fields, ∃ w, fs.lookup f.1 = some w ∧ Fits f.2 w := by
  induction fields with
  | nil => simp [checkFields]
  | cons f fields ih =>
    obtain ⟨name, t⟩ := f
    rw [checkFields, List.forall_mem_cons, ← ih]
    cases fs.lookup name with
    | none => simp
    | some w =>
      simp only [Except.then_eq_ok, checkPart_eq_ok]
      exact ⟨fun ⟨h, h'⟩ => ⟨⟨w, rfl, h⟩, h'⟩, fun ⟨⟨_, hw, h⟩, h'⟩ => ⟨by cases hw; exact h, h'⟩⟩

theorem fits_struct {fields : List (String × Ty)} :
    Fits (.struct fields) v ↔ ∃ kind fs, v = .record kind fs ∧
      ∀ f ∈ fields, ∃ w, fs.lookup f.1 = some w ∧ Fits f.2 w := by
  cases v with
  | record kind fs =>
    refine checkFields_eq_ok.trans ⟨fun h => ⟨kind, fs, rfl, h⟩, ?_⟩
    rintro ⟨_, _, ⟨⟩, h⟩
    exact h
  | _ => simp

theorem fits_object {name : String} :
    Fits (.object name) v ↔ ∃ fs, v = .record (Option.some name) fs := by
  cases v with
  | record kind fs => cases kind <;> simp [eq_comm]
  | _ => simp

theorem fits_ofLiteral {value : Literal} : Fits value.type (ofLiteral value) := by
  cases value <;> rfl

end Value

end Ascription
