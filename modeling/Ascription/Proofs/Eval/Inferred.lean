import Ascription.Proofs.Eval.Operators
import Ascription.Proofs.Eval.Run
import Ascription.Proofs.Parser.RoundTrip
import Ascription.Proofs.Scope
import Ascription.Proofs.Value.Infer

/-!
# Proofs/Eval/Inferred — variables declared by a scope

    x ↦ v  ──infer──▸  x: T  ──parse x──▸  get x: T  ──evaluate──▸  v            if v is uniform
                                                               ──▸  not a T      otherwise

The declarations of a scope let a text name its variables without an annotation.  Reading
such a name gives a variable of the inferred type, and evaluating it checks the value
against that type again.
-/

namespace Ascription

namespace Declarations

theorem find?_concat {ds : Declarations} {name : String} {d : Declaration}
    (h : ds.find? name = some d) (others : Declarations) :
    find? (ds ++ others) name = some d := by
  rw [find?, List.find?_append, show List.find? _ ds = some d from h, Option.some_or]

theorem find?_self {ds : Declarations} {name : String} {t : Ty} {span : Span}
    (h : ds.find? name = none) :
    find? (ds ++ [⟨name, t, span⟩]) name = some ⟨name, t, span⟩ := by
  rw [find?, List.find?_append, show List.find? _ ds = none from h, Option.none_or]
  simp

end Declarations

namespace Scope

open Declarations

variable {done ds : Declarations} {values : List (String × Value)} {name : String} {v : Value}

/-- A variable is declared with its type, unless its name is declared already. -/
theorem declareAll_cons_eq_ok :
    declareAll done ((name, v) :: values) = .ok ds ↔
      ∃ t, v.infer = .ok t ∧ done.find? name = none ∧
        declareAll (done ++ [⟨name, t, .synthetic⟩]) values = .ok ds := by
  rw [declareAll, Except.bind_eq_ok]
  simp only [Except.mapError_eq_ok, declareSynthetic]
  constructor
  · rintro ⟨t, ht, h⟩
    split at h
    case h_1 => cases h
    case h_2 ds₁ hds₁ =>
      obtain ⟨hnone, rfl⟩ := declare_eq_ok.mp hds₁
      exact ⟨t, ht, hnone, h⟩
  · rintro ⟨t, ht, hnone, h⟩
    refine ⟨t, ht, ?_⟩
    rwa [declare_eq_ok.mpr ⟨hnone, rfl⟩]

/-- What is declared stays declared. -/
theorem find?_of_declareAll {d : Declaration} (h : declareAll done values = .ok ds)
    (hd : done.find? name = some d) : ds.find? name = some d := by
  induction values generalizing done with
  | nil =>
    cases h
    exact hd
  | cons e values ih =>
    obtain ⟨t, -, -, h⟩ := declareAll_cons_eq_ok.mp h
    exact ih h (find?_concat hd _)

/-- **Each variable is declared with the type of its value.** -/
theorem declared_of_lookup (h : declareAll done values = .ok ds)
    (hv : values.lookup name = some v) : ∃ d, ds.find? name = some d ∧ v.infer = .ok d.type := by
  induction values generalizing done with
  | nil => cases hv
  | cons e values ih =>
    obtain ⟨name', v'⟩ := e
    obtain ⟨t, ht, hnone, hrest⟩ := declareAll_cons_eq_ok.mp h
    rw [List.lookup_cons] at hv
    cases hname : name == name' with
    | true =>
      rw [hname] at hv
      cases hv
      cases eq_of_beq hname
      exact ⟨_, find?_of_declareAll hrest (find?_self hnone), ht⟩
    | false =>
      rw [hname] at hv
      exact ih hrest hv

end Scope

open Grammar Phrase

/-- **A declared name on its own is read** as the variable, with its declared type. -/
theorem parseWith_of_isIdentifier {name : String} (hname : IsIdentifier name) {ds : Declarations}
    {d : Declaration} (hd : ds.find? name = some d) (r : Registry) :
    ∃ span, parseWith name r ds = .ok (.get span name d.type) := by
  obtain ⟨span, htokens⟩ := hname
  have hstart : Place.atDeclaration ⟨Span.point Position.first, [⟨.name name, span⟩]⟩ = false := by
    rw [Place.atDeclaration]
    simp
  have hderives : Derives [⟨.name name, span⟩] (.reference span name none) :=
    ⟨span, .operation hstart (.steps .name .nil) .nil⟩
  exact ⟨span, parseWith_eq_ok.mpr ⟨_, htokens, _, hderives, ds,
    elaborate_reference.mpr ⟨d, hd, rfl, rfl⟩⟩⟩

namespace Expr

variable {host : Host} {depth next : Nat} {s : Scope} {span : Span} {name : String} {v : Value}
  {t : Ty}

theorem evaluate_get (hv : s.value? name = some v) :
    (get span name t).evaluate host depth s = raiseAt span (v.assert (.reading name) t) := by
  simp only [evaluate, evalWith, hv]

theorem evaluate_get_of_fits (hv : s.value? name = some v) (ht : v.Fits t) :
    (get span name t).evaluate host depth s next = .value v next := by
  rw [evaluate_get hv, Value.assert_of_fits _ ht]
  rfl

theorem evaluate_get_of_not_fits (hv : s.value? name = some v) (ht : ¬ v.Fits t) :
    ∃ m, (get span name t).evaluate host depth s next =
      .error ⟨.typeAssertion (.reading name) t m, span⟩ next := by
  obtain ⟨m, hm⟩ := Value.assert_of_not_fits (.reading name) ht
  exact ⟨m, by rw [evaluate_get hv, hm]; rfl⟩

end Expr

/-- **An inferred declaration fits a uniform variable.**  Over the declarations of a scope the
name of each visible variable is read on its own, as the variable with the type of its value.
Evaluating it in the scope gives the value when that is uniform; otherwise the value is refused
as one not of its type. -/
theorem Scope.inferred_declaration_fits {s : Scope} {ds : Declarations}
    (hds : s.declarations = .ok ds) {name : String} {v : Value} (hv : s.value? name = some v)
    (hname : IsIdentifier name) (r : Registry) :
    ∃ span t, v.infer = .ok t ∧ parseWith name r ds = .ok (.get span name t) ∧
      ∀ (host : Host) (depth next : Nat),
        (v.Uniform → (Expr.get span name t).evaluate host depth s next = .value v next) ∧
        (¬ v.Uniform → ∃ m, (Expr.get span name t).evaluate host depth s next =
          .error ⟨.typeAssertion (.reading name) t m, span⟩ next) := by
  obtain ⟨d, hd, ht⟩ := declared_of_lookup hds (value?_eq_lookup.symm.trans hv)
  obtain ⟨span, hparse⟩ := parseWith_of_isIdentifier hname hd r
  refine ⟨span, d.type, ht, hparse, fun host depth next => ⟨fun huniform => ?_, fun huniform => ?_⟩⟩
  · exact Expr.evaluate_get_of_fits hv ((Value.fits_self_iff_uniform ht).mpr huniform)
  · exact Expr.evaluate_get_of_not_fits hv (mt (Value.fits_self_iff_uniform ht).mp huniform)

/-- A list of records is given back; a list of a number and a text is not. -/
theorem Scope.inferred_declaration_fits_rows :
    let rows : Value := .list [.record none [("id", .int 1), ("tags", .list [.string "a"])],
      .record none [("id", .int 2), ("tags", .list [])]]
    let mixed : Value := .list [.int 1, .string "a"]
    ∃ (s : Scope) (ds : Declarations),
      Scope.extend none [("rows", rows), ("mixed", mixed)] [] = .ok s ∧ s.declarations = .ok ds ∧
      (∃ e, parseWith "rows" .initial ds = .ok e ∧ ∀ (host : Host) (depth next : Nat),
        e.evaluate host depth s next = .value rows next) ∧
      ∃ span e, parseWith "mixed" .initial ds = .ok e ∧ ∀ (host : Host) (depth next : Nat),
        ∃ m, e.evaluate host depth s next =
          .error ⟨.typeAssertion (.reading "mixed") (.list .int) m, span⟩ next := by
  intro rows mixed
  have hrows : rows.Uniform := by
    refine Value.uniform_list.mpr (List.forall_mem_cons.mpr ⟨?_, List.forall_mem_singleton.mpr ?_⟩)
    · refine (Value.uniform_anonymous (by decide)).mpr
        (List.forall_mem_cons.mpr ⟨.int, List.forall_mem_singleton.mpr ?_⟩)
      exact Value.uniform_list.mpr (List.forall_mem_singleton.mpr .string)
    · refine Value.shaped_anonymous.mpr ⟨_, _, rfl,
        List.forall_mem_cons.mpr ⟨⟨_, rfl, .int⟩, List.forall_mem_singleton.mpr ⟨_, rfl, ?_⟩⟩⟩
      exact .list nofun
  have hmixed : ¬ mixed.Uniform := by
    intro h
    cases Value.uniform_list.mp h (.string "a") (by simp)
  let s : Scope := [.mk [("rows", rows), ("mixed", mixed)] Scope.builtins]
  have hds : s.declarations = .ok [⟨"rows", .list (.struct [("id", .int), ("tags", .list .string)]),
    .synthetic⟩, ⟨"mixed", .list .int, .synthetic⟩] := rfl
  refine ⟨s, _, rfl, hds, ?_, ?_⟩
  · obtain ⟨span, t, -, hparse, heval⟩ :=
      @Scope.inferred_declaration_fits s _ hds "rows" rows rfl ⟨_, rfl⟩ .initial
    exact ⟨_, hparse, fun host depth next => (heval host depth next).1 hrows⟩
  · obtain ⟨span, t, ht, hparse, heval⟩ :=
      @Scope.inferred_declaration_fits s _ hds "mixed" mixed rfl ⟨_, rfl⟩ .initial
    cases ht
    exact ⟨span, _, hparse, fun host depth next => (heval host depth next).2 hmixed⟩

/-- **Not every inferred declaration fits**: the second item of a list need not be like the
first. -/
theorem Scope.not_every_inferred_declaration_fits :
    ¬ ∀ (s : Scope) (ds : Declarations), s.Reached → s.declarations = .ok ds →
      ∀ name v, s.value? name = some v → IsIdentifier name → ∀ r : Registry,
        ∃ e, parseWith name r ds = .ok e ∧ ∀ (host : Host) (depth next : Nat),
          ∃ next', e.evaluate host depth s next = .value v next' := by
  intro hall
  let mixed : Value := .list [.int 1, .string "a"]
  have hbuilt : Scope.extend none [("x", mixed)] [] = .ok [.mk [("x", mixed)] Scope.builtins] := rfl
  obtain ⟨e, he, heval⟩ := hall _ [⟨"x", .list .int, .synthetic⟩] (.outermost hbuilt) rfl "x" mixed
    rfl ⟨_, rfl⟩ .initial
  obtain ⟨span, hread⟩ := @parseWith_of_isIdentifier "x" ⟨_, rfl⟩ [⟨"x", .list .int, .synthetic⟩] _
    rfl .initial
  cases he.symm.trans hread
  obtain ⟨next', hvalue⟩ := heval (fun _ _ => .finish (.ok .none)) 0 0
  cases hvalue

end Ascription
