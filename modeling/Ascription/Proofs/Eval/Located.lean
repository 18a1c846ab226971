import Ascription.Proofs.Eval.Like

/-!
# Proofs/Eval/Located — errors of an evaluation stand in the expression

    raised at a node ──▸ ⟨r, span⟩ ──out of a lambda──▸ inLambda r span ──at a call──▸ ⟨r, span⟩

An error keeps the span of the node that raised it however many calls it passes.  So the span of an
error is that of a node, in the expression or in the body of a lambda that came from it.  A run is
set beside itself: being alike then says where its errors come from.
-/

namespace Ascription

/-- A span of a node of the expression, lambda bodies included. -/
def Expr.HasSpan (e : Expr) (span : Span) : Prop := ∃ n, Expr.Within n e ∧ n.span = span

/-- An error of a node of the expression. -/
structure Expr.Raises (e : Expr) (fault : EvalError) : Prop where
  plain : fault.error.Plain
  span : e.HasSpan fault.span

theorem EvalError.raisedAt_plain {span : Span} {r : RuntimeError} (h : r.Plain) :
    raisedAt span r = ⟨r, span⟩ := by
  cases r with
  | inLambda => cases h
  | _ => rfl

/-- **A run beside itself**, all of its code from one expression: an error is raised by a node of
it, or comes out of a lambda where a node raised it. -/
def Likeness.located (e : Expr) : Likeness where
  spans s s' := s = s' ∧ e.HasSpan s
  errors r r' := r = r' ∧ (r.Plain ∨ ∃ fault, e.Raises fault ∧ r = fault.toRuntime)
  faults f f' := f = f' ∧ e.Raises f
  hosts := False
  levels := False
  plain _ h := ⟨rfl, .inl h⟩
  raised := by
    rintro s _ r _ ⟨rfl, hspan⟩ ⟨rfl, hplain | ⟨fault, hfault, rfl⟩⟩
    · refine ⟨rfl, ?_⟩
      rw [EvalError.raisedAt_plain hplain]
      exact ⟨hplain, hspan⟩
    · -- What comes out of a lambda is raised where it stood.
      exact ⟨rfl, hfault⟩
  caught := by
    rintro f _ ⟨rfl, hfault⟩
    exact ⟨rfl, .inr ⟨f, hfault, rfl⟩⟩

/-- A scope of built-in functions and of values without callables has no code of its own. -/
theorem Scope.agree_located {e : Expr} {s : Scope}
    (hfunctions : ∀ name f, s.function? name = some f → ∃ b : Builtin, f.code = .builtin b)
    (hvalues : ∀ name v, s.value? name = some v → v.Inert) : s.Agree (.located e) e s := by
  refine ⟨fun name _ => ?_, fun name _ => ?_, nofun⟩
  · cases hv : s.value? name with
    | none => exact .none
    | some v => exact .some (.of_inert (hvalues name v hv))
  · cases hf : s.function? name with
    | none => exact .none
    | some f =>
      obtain ⟨b, hb⟩ := hfunctions name f hf
      refine .some ?_
      rw [hb]
      exact .builtin

namespace Expr

variable {host : Host} {depth next next' : Nat}

/-- **An error of an evaluation stands in the expression**: where only the built-in functions are
bound and no variable holds a callable, it is no error of a lambda seen from outside, and its
span is that of a node. -/
theorem evaluate_error_within {s : Scope} {e : Expr} {fault : EvalError}
    (hfunctions : ∀ name f, s.function? name = some f → ∃ b : Builtin, f.code = .builtin b)
    (hvalues : ∀ name v, s.value? name = some v → v.Inert)
    (h : e.evaluate host depth s next = .error fault next') :
    (∀ r span, fault.error ≠ .inLambda r span) ∧ ∃ n, Within n e ∧ n.span = fault.span := by
  have hself : e.Like (Likeness.located e).spans e := .self fun n hn => ⟨rfl, n, hn, rfl⟩
  have hrun := @evaluate_like (.located e) host nofun depth e e s s hself
    (Scope.agree_located hfunctions hvalues) next
  rw [h] at hrun
  cases hrun with
  | error hfault =>
    obtain ⟨-, hplain, hspan⟩ := hfault
    refine ⟨fun r span hr => ?_, hspan⟩
    rw [hr] at hplain
    exact hplain

/-- A variable that is not bound, in a lambda within a lambda. -/
theorem evaluate_error_within_lambda : ∃ (e : Expr) (fault : EvalError),
    e.evaluate (fun _ _ => .finish (.ok .none)) 5 Scope.root 0 = .error fault 2 ∧
    fault = ⟨.undefinedVariable "z", ⟨⟨1, 37⟩, ⟨1, 42⟩⟩⟩ ∧
    (∀ r span, fault.error ≠ .inLambda r span) ∧ ∃ n, Within n e ∧ n.span = fault.span := by
  -- The tree of `[3].map:any(|x| [x:int].map:any(|y| z:int))`.
  have h : (call ⟨⟨1, 1⟩, ⟨1, 44⟩⟩ (list ⟨⟨1, 1⟩, ⟨1, 4⟩⟩ [literal ⟨⟨1, 2⟩, ⟨1, 3⟩⟩ (.int 3)]) "map"
      .any [lambda ⟨⟨1, 13⟩, ⟨1, 43⟩⟩ ["x"] (call ⟨⟨1, 17⟩, ⟨1, 43⟩⟩
        (list ⟨⟨1, 17⟩, ⟨1, 24⟩⟩ [get ⟨⟨1, 18⟩, ⟨1, 23⟩⟩ "x" .int]) "map" .any
        [lambda ⟨⟨1, 33⟩, ⟨1, 42⟩⟩ ["y"] (get ⟨⟨1, 37⟩, ⟨1, 42⟩⟩ "z" .int)])]).evaluate
      (fun _ _ => .finish (.ok .none)) 5 Scope.root 0 =
        .error ⟨.undefinedVariable "z", ⟨⟨1, 37⟩, ⟨1, 42⟩⟩⟩ 2 := rfl
  have hroot : ∀ name f, Scope.root.function? name = some f → ∃ b : Builtin, f.code = .builtin b :=
    fun name f hf => (Scope.builtin_of_function?_root hf).imp fun b hb => hb.2
  exact ⟨_, _, h, rfl, evaluate_error_within hroot nofun h⟩

end Expr

end Ascription
