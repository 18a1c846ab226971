import Ascription.Proofs.Eval.Operators
import Ascription.Proofs.Eval.Run
import Ascription.Proofs.Expr.WellTyped

/-!
# Proofs/Eval/Annotations — which annotations a value has passed

    name:T          value of the variable ──check──▸ T
    e.f:T(args)     answer of the call ────check──▸ T
    e.f:T           field of a value that fits a struct type with f: T

Reading a variable and calling a function end in a check.  A field access ends in none: it takes its
annotation from the type of its target, or, where that is no struct type, trusts the one written.
-/

namespace Ascription

open Ascription.Phrase

namespace Expr

/-- **The type written on an expression**, if its form carries one. -/
def annotation? : Expr → Option Ty
  | get _ _ t | call _ _ _ t _ | field _ _ _ t => some t
  | _ => none

section Evaluation

variable {caller : Caller} {scope : Scope} {span : Span} {target : Expr} {name : String}
  {type : Ty} {next next' : Nat} {v : Value}

open Value

/-- What is read of a variable fits. -/
theorem get_fits (hv : (get span name type).evalWith caller scope next = .value v next') :
    Fits type v := by
  rw [evalWith] at hv
  cases hvalue : scope.value? name with
  | none =>
    rw [hvalue] at hv
    cases (raiseAt_eq_value.mp hv).1
  | some w =>
    rw [hvalue] at hv
    exact fits_of_assert (raiseAt_eq_value.mp hv).1

/-- What a call returns fits, whatever function is called. -/
theorem call_fits {args : List Expr}
    (hv : (call span target name type args).evalWith caller scope next = .value v next') :
    Fits type v := by
  obtain ⟨a, n, -, hv⟩ := Run.bind_eq_value.mp hv
  obtain ⟨vs, n', -, hv⟩ := Run.bind_eq_value.mp hv
  cases hf : scope.function? name with
  | none =>
    simp only [hf] at hv
    cases (raiseAt_eq_value.mp hv).1
  | some f =>
    simp only [hf] at hv
    obtain ⟨answer, n'', -, hv⟩ := Run.bind_eq_value.mp hv
    exact fits_of_assert (raiseAt_eq_value.mp hv).1

/-- A field of a value that fits a struct type fits the type of the field. -/
theorem field_fits {s : Ty} {fields : List (String × Ty)} (hs : s.fields? = some fields)
    (hl : fields.lookup name = some type)
    (htarget : ∀ w n, target.evalWith caller scope next = .value w n → Fits s w)
    (hv : (field span target name type).evalWith caller scope next = .value v next') :
    Fits type v := by
  obtain ⟨a, n, ha, hv⟩ := Run.bind_eq_value.mp hv
  obtain ⟨w, hw, hfit⟩ := fieldOf_fits hs hl (htarget a n ha)
  cases hw.symm.trans (raiseAt_eq_value.mp hv).1
  exact hfit

end Evaluation

end Expr

open Ascription.Expr

/-- **A value has passed the annotation of its expression**: always where a variable is
read or a function called, and where a field is read of a value that fits the struct
type of its expression. -/
theorem parse_annotation_enforced {source : String} {r : Registry} {e : Expr}
    (h : parse source r = .ok e) {n : Expr} (hn : Within n e) {t : Ty} (ht : n.annotation? = some t)
    {host : Host} {depth : Nat} {scope : Scope} {next : Nat}
    (htarget : ∀ span target name type, n = .field span target name type →
      ∃ s, target.type? = some s ∧ s.fields?.isSome = true ∧
        ∀ w next', target.evaluate host depth scope next = .value w next' → w.check s = .ok ())
    {v : Value} {next' : Nat} (hv : n.evaluate host depth scope next = .value v next') :
    v.check t = .ok () := by
  cases n with
  | get =>
    cases ht
    exact get_fits hv
  | call =>
    cases ht
    exact call_fits hv
  | field span target name type =>
    cases ht
    obtain ⟨s, hs, hstruct, hfits⟩ := htarget span target name t rfl
    obtain ⟨fields, hfields⟩ := Option.isSome_iff_exists.mp hstruct
    have hruled : Ruled (fun _ => True) (.field span target name t) :=
      ruled_of_parseWith h (fun _ => trivial) nofun _ hn
    obtain ⟨s', hs', hlookup⟩ := hruled.wellTyped
    obtain rfl : s = s' := Option.some.inj (hs.symm.trans hs')
    exact field_fits hfields (hlookup fields hfields) hfits hv
  | _ => cases ht

/-- A field of a variable that is checked to be a struct. -/
theorem parse_annotation_enforced_field : ∃ e, parse "x:\x7bf: int\x7d.f" .initial = .ok e ∧
    e.annotation? = some .int ∧ ∀ (host : Host) (depth next : Nat), ∃ v,
      e.evaluate host depth [.mk [("x", .anonymous [("f", .int 7)])] Scope.builtins] next =
        .value v next ∧ v.check .int = .ok () := by
  have h : parse "x:\x7bf: int\x7d.f" .initial = .ok (.field ⟨⟨1, 1⟩, ⟨1, 13⟩⟩
      (.get ⟨⟨1, 1⟩, ⟨1, 11⟩⟩ "x" (.struct [("f", .int)])) "f" .int) := by
    decide +kernel
  refine ⟨_, h, rfl, fun host depth next => ⟨.int 7, rfl, ?_⟩⟩
  refine @parse_annotation_enforced _ _ _ h _ .refl _ rfl host depth
    [.mk [("x", .anonymous [("f", .int 7)])] Scope.builtins] next ?_ _ next rfl
  rintro span target name type ⟨⟩
  exact ⟨_, rfl, rfl, fun w next' hw => get_fits hw⟩

/-- **Not every annotation is enforced**: that of a field of anything is trusted. -/
theorem not_every_annotation_enforced :
    ¬ ∀ (source : String) (r : Registry) (e : Expr), parse source r = .ok e →
      ∀ n t, Within n e → n.annotation? = some t →
        ∀ (host : Host) (depth : Nat) (scope : Scope) (next : Nat) (v : Value) (next' : Nat),
          n.evaluate host depth scope next = .value v next' → v.check t = .ok () := by
  have h : parse "x:any.f:int" .initial =
      .ok (.field ⟨⟨1, 1⟩, ⟨1, 12⟩⟩ (.get ⟨⟨1, 1⟩, ⟨1, 6⟩⟩ "x" .any) "f" .int) := by
    decide +kernel
  let scope : Scope := [.mk [("x", .anonymous [("f", .string "s")])] Scope.builtins]
  intro hall
  have hcheck := hall "x:any.f:int" .initial _ h _ .int .refl rfl (fun _ _ => .finish (.ok .none)) 0
    scope 0 (.string "s") 0 rfl
  cases hcheck

end Ascription
