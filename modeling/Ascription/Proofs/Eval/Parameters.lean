import Ascription.Eval
import Ascription.Parser
import Ascription.Proofs.Expr.Decidable
import Ascription.Proofs.Expr.Within
import Ascription.Proofs.Scope

/-!
# Proofs/Eval/Parameters — what the body of a lambda sees

    call (λ p₀ … pₙ. body) in s on v₀ … vₘ  ──▸  body in ⟨p₀ ↦ v₀, …, pₙ ↦ vₙ⟩ :: s        n ≤ m

The level that a call adds is written entry by entry, so a name that is given twice keeps the later
argument: each name of the parameter list is bound at the last place it has there.
-/

namespace Ascription

namespace Scope

variable {s : Scope} {params : List String} {args : List Value} {name : String} {v : Value}

/-- The names of a level without variables for them are looked up outside. -/
theorem value?_cons_of_lookup_eq_none {l : Level} (h : l.values.lookup name = none) :
    value? (l :: s) name = value? s name := by
  rw [value?, List.findSome?_cons, h]
  rfl

theorem value?_cons_of_lookup_eq_some {l : Level} (h : l.values.lookup name = some v) :
    value? (l :: s) name = some v := by
  rw [value?, List.findSome?_cons, h]

/-- The last place of a name in the parameter list says which argument it is bound to. -/
theorem lookup_params (hargs : params.length ≤ args.length) {i : Nat}
    (hp : params[i]? = some name) (hlast : name ∉ params.drop (i + 1)) :
    ∃ v, args[i]? = some v ∧ (Entries.ofList (params.zip args)).lookup name = some v := by
  have hnames : (params.zip args).map Prod.fst = params := List.map_fst_zip hargs
  obtain ⟨hi, hget⟩ := List.getElem?_eq_some_iff.mp hp
  have hi' : i < (params.zip args).length := by rw [List.length_zip]; omega
  have hentry : (params.zip args)[i] = (name, args[i]) := by rw [List.getElem_zip, hget]
  have hsplit : params.zip args =
      (params.zip args).take i ++ (name, args[i]) :: (params.zip args).drop (i + 1) := by
    rw [← hentry, ← List.drop_eq_getElem_cons hi', List.take_append_drop]
  refine ⟨args[i], List.getElem?_eq_getElem _, ?_⟩
  rw [hsplit]
  exact Entries.lookup_ofList_append (by rwa [List.map_drop, hnames])

/-- **A level of parameters** binds each name of the list at its last place, and no other name. -/
theorem sub_params (hnew : ∀ p ∈ params, s.value? p = none) (hargs : params.length ≤ args.length) :
    ∃ inner, s.sub (params.zip args) = .ok inner ∧
      (∀ i p, params[i]? = some p → p ∉ params.drop (i + 1) →
        ∃ v, args[i]? = some v ∧ inner.value? p = some v) ∧
      (∀ n, n ∉ params → inner.value? n = s.value? n) ∧
      ∀ n, inner.function? n = s.function? n := by
  have hnames : (params.zip args).map Prod.fst = params := List.map_fst_zip hargs
  have hfree : ∀ e ∈ params.zip args, s.value? e.1 = none :=
    fun e he => hnew e.1 (hnames ▸ List.mem_map_of_mem he)
  refine ⟨_, sub_eq_ok.mpr ⟨hfree, rfl⟩, fun i p hp hlast => ?_, fun n hn => ?_, fun n => rfl⟩
  · obtain ⟨v, hv, hlookup⟩ := lookup_params hargs hp hlast
    exact ⟨v, hv, value?_cons_of_lookup_eq_some hlookup⟩
  · refine value?_cons_of_lookup_eq_none ?_
    rw [Level.values, Entries.ofList, Entries.lookup_insertAll_of_notMem (by rwa [hnames])]
    rfl

end Scope

/-- **Parameters are bound by their places.**  A lambda is evaluated to a closure over its scope.
If its scope sees none of the parameters and there are at least as many arguments as parameters,
calling the closure evaluates the body in a scope in which each parameter, by the last place of its
name in the list, has the argument in that place; all other variables and all functions are those of
the scope of the lambda. -/
theorem lambda_binds_parameters {scope : Scope} {params : List String} {args : List Value}
    (hnew : ∀ p ∈ params, scope.value? p = none) (hargs : params.length ≤ args.length)
    (span : Span) (body : Expr) :
    (∀ host depth next, (Expr.lambda span params body).evaluate host depth scope next =
      .value (.callable next (.closure scope params body)) (next + 1)) ∧
    ∃ inner : Scope,
      (∀ host depth, Code.callAt host (depth + 1) (.closure scope params body) args =
        (body.evaluate host depth inner).mapError EvalError.toRuntime) ∧
      (∀ i p, params[i]? = some p → p ∉ params.drop (i + 1) →
        ∃ v, args[i]? = some v ∧ inner.value? p = some v) ∧
      (∀ n, n ∉ params → inner.value? n = scope.value? n) ∧
      ∀ n, inner.function? n = scope.function? n := by
  obtain ⟨inner, hinner, hbound⟩ := Scope.sub_params hnew hargs
  refine ⟨fun _ _ _ => rfl, inner, fun host depth => ?_, hbound⟩
  change Code.callClosure (Code.callAt host depth) scope params body args = _
  rw [Code.callClosure, if_neg (by omega), hinner]
  rfl

/-- A name given twice, a surplus argument, and a variable of the scope outside. -/
theorem lambda_binds_parameters_twice :
    let scope : Scope := .mk [("k", .bool true)] [] :: Scope.root
    let params := ["x", "y", "x"]
    let args : List Value := [.int 1, .int 2, .int 3, .int 4]
    let body : Expr := .list .synthetic [.get .synthetic "x" .int, .get .synthetic "k" .bool]
    (∀ p ∈ params, scope.value? p = none) ∧ params.length ≤ args.length ∧
      ∃ inner : Scope,
        (∀ host depth, Code.callAt host (depth + 1) (.closure scope params body) args =
          (body.evaluate host depth inner).mapError EvalError.toRuntime) ∧
        inner.value? "y" = some (.int 2) ∧ inner.value? "x" = some (.int 3) ∧
        inner.value? "k" = some (.bool true) := by
  intro scope params args body
  have hnew : ∀ p ∈ params, scope.value? p = none :=
    List.forall_mem_cons.mpr
      ⟨rfl, List.forall_mem_cons.mpr ⟨rfl, List.forall_mem_singleton.mpr rfl⟩⟩
  have hargs : params.length ≤ args.length := by decide
  obtain ⟨-, inner, hcall, hbound, hothers, -⟩ :=
    lambda_binds_parameters hnew hargs .synthetic body
  obtain ⟨_, ⟨⟩, hy⟩ := hbound 1 "y" rfl (by decide)
  obtain ⟨_, ⟨⟩, hx⟩ := hbound 2 "x" rfl (by decide)
  exact ⟨hnew, hargs, inner, hcall, hy, hx, hothers "k" (by decide)⟩

/-- Not every parameter of a lambda that is read is bound to its argument: the first of two
parameters of one name is not. -/
theorem not_every_parameter_bound : ¬ ∀ (source : String) (r : Registry) (e : Expr) (span : Span)
    (params : List String) (body : Expr), parse source r = .ok e →
      Expr.Within (.lambda span params body) e →
        ∀ (scope : Scope) (args : List Value), (∀ p ∈ params, scope.value? p = none) →
          params.length ≤ args.length → ∃ inner : Scope,
            (∀ host depth, Code.callAt host (depth + 1) (.closure scope params body) args =
              (body.evaluate host depth inner).mapError EvalError.toRuntime) ∧
            (∀ (i : Nat) (p : String), params[i]? = some p → inner.value? p = args[i]?) ∧
            ∀ n, n ∉ params → inner.value? n = scope.value? n := by
  intro h
  have hread : parse "|x, x| x:int" .initial = .ok (.lambda ⟨⟨1, 1⟩, ⟨1, 13⟩⟩ ["x", "x"]
      (.get ⟨⟨1, 8⟩, ⟨1, 13⟩⟩ "x" .int)) := by
    decide +kernel
  obtain ⟨inner, hcall, hbound, -⟩ := h _ _ _ _ _ _ hread .refl Scope.root [.int 1, .int 2]
    (List.forall_mem_cons.mpr ⟨rfl, List.forall_mem_singleton.mpr rfl⟩) (Nat.le_refl 2)
  have hx : inner.value? "x" = some (.int 1) := hbound 0 "x" rfl
  have hlast : Code.callAt (fun _ _ => .finish (.ok .none)) 1 (.closure Scope.root ["x", "x"]
      (.get ⟨⟨1, 8⟩, ⟨1, 13⟩⟩ "x" .int)) [.int 1, .int 2] 0 = .value (.int 2) 0 := rfl
  have hfirst : (Expr.get ⟨⟨1, 8⟩, ⟨1, 13⟩⟩ "x" .int).evaluate (fun _ _ => .finish (.ok .none)) 0
      inner = pure (.int 1) := by
    rw [Expr.evaluate, Expr.evalWith, hx]
    rfl
  rw [hcall, hfirst] at hlast
  cases hlast

end Ascription
