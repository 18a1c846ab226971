import Ascription.Proofs.Eval.Visible
import Ascription.Proofs.Value.EraseSpans

/-!
# Proofs/Eval/Spans — spans decide nothing

    e, s  ──evaluate──▸  o
      │                  ┊ erase
      ▾                  ┊
    erase e, erase s  ──evaluate──▸  o'

An expression without spans, in a scope without spans, ends like the expression itself, up to the
spans in what comes out.  So two runs that are the same without spans end in the same way.
-/

namespace Ascription

/-! ## Errors -/

theorem EvalError.error_raisedAt_eraseSpans {span : Span} {r : RuntimeError} :
    (raisedAt span r).error.eraseSpans = (raisedAt .synthetic r.eraseSpans).error := by
  cases r <;> rfl

/-- **Two runs that differ in their spans**: errors are the same without them. -/
def Likeness.spanless : Likeness where
  spans _ _ := True
  errors r r' := r.eraseSpans = r'.eraseSpans
  faults f f' := f.error.eraseSpans = f'.error.eraseSpans
  hosts := True
  levels := True
  plain _ _ := rfl
  raised := by
    intro s s' r r' _ h
    rw [EvalError.error_raisedAt_eraseSpans, h, ← EvalError.error_raisedAt_eraseSpans]
  caught := by
    intro f f' h
    rw [EvalError.toRuntime, EvalError.toRuntime, RuntimeError.eraseSpans, RuntimeError.eraseSpans,
      h]

/-! ## What is erased is alike

A value holds code, a closure holds levels and a level holds values: the proofs go round with
them. -/

/-- Code is alike where its bodies are and its scopes are, level by level. -/
theorem Code.Like.of_levels {L : Likeness} {s s' : Scope} {params : List String} {b b' : Expr}
    (body : Expr.Like L.spans b b') (levels : List.Forall₂ (Level.Related (Code.Like L)) s s') :
    Code.Like L (.closure s params b) (.closure s' params b') :=
  .closure body (fun name _ => Scope.value?_related levels name)
    (fun name _ => Scope.function?_related levels name) fun _ => levels

/-- Scopes that are alike level by level agree on every expression. -/
theorem Scope.Agree.of_levels {L : Likeness} {e : Expr} {s s' : Scope}
    (levels : List.Forall₂ (Level.Related (Code.Like L)) s s') : Agree L e s s' :=
  ⟨fun name _ => value?_related levels name, fun name _ => function?_related levels name,
    fun _ => levels⟩

mutual

/-- **A value is related to itself without spans.** -/
theorem Value.related_eraseSpans : ∀ v : Value, Value.Related (Code.Like .spanless) v v.eraseSpans
  | .string _ => .string
  | .int _ => .int
  | .float _ => .float
  | .bool _ => .bool
  | .none => .none
  | .list vs => .list (Value.related_eraseItems vs)
  | .map es => .map (Value.related_eraseEntries es)
  | .record _ fs => .record (Value.related_eraseFields fs)
  | .callable _ c => .callable (Code.like_eraseSpans c)

theorem Value.related_eraseItems : ∀ vs : List Value,
    List.Forall₂ (Value.Related (Code.Like .spanless)) vs (Value.eraseItems vs)
  | [] => .nil
  | v :: vs => .cons (Value.related_eraseSpans v) (Value.related_eraseItems vs)

theorem Value.related_eraseEntries : ∀ es : List (MapKey × Value),
    Entries.Related (Value.Related (Code.Like .spanless)) es (Value.eraseEntries es)
  | [] => .nil
  | (_, v) :: es => .cons (Value.related_eraseSpans v) (Value.related_eraseEntries es)

theorem Value.related_eraseFields : ∀ fs : List (String × Value),
    Entries.Related (Value.Related (Code.Like .spanless)) fs (Value.eraseFields fs)
  | [] => .nil
  | (_, v) :: fs => .cons (Value.related_eraseSpans v) (Value.related_eraseFields fs)

theorem Code.like_eraseSpans : ∀ c : Code, Code.Like .spanless c c.eraseSpans
  | .builtin _ => .builtin
  | .host _ => .host trivial
  | .closure s _ body =>
    .of_levels (body.like_eraseSpans fun _ => trivial) (Level.related_eraseAll s)

theorem FunctionEntry.related_eraseSpans : ∀ f : FunctionEntry,
    FunctionEntry.Related (Code.Like .spanless) f f.eraseSpans
  | .mk _ c => .mk (Code.like_eraseSpans c)

theorem FunctionEntry.related_eraseAll : ∀ fs : List (String × FunctionEntry),
    Entries.Related (FunctionEntry.Related (Code.Like .spanless)) fs (FunctionEntry.eraseAll fs)
  | [] => .nil
  | (_, f) :: fs => .cons (FunctionEntry.related_eraseSpans f) (FunctionEntry.related_eraseAll fs)

theorem Level.related_eraseSpans : ∀ l : Level,
    Level.Related (Code.Like .spanless) l l.eraseSpans
  | .mk vs fs => .mk (Value.related_eraseFields vs) (FunctionEntry.related_eraseAll fs)

theorem Level.related_eraseAll : ∀ ls : List Level,
    List.Forall₂ (Level.Related (Code.Like .spanless)) ls (Level.eraseAll ls)
  | [] => .nil
  | l :: ls => .cons (Level.related_eraseSpans l) (Level.related_eraseAll ls)

end

mutual

/-- **Related values are the same without spans.** -/
theorem Value.Related.eraseSpans_eq : ∀ {v w : Value}, Value.Related (Code.Like .spanless) v w →
    v.eraseSpans = w.eraseSpans
  | _, _, .string | _, _, .int | _, _, .float | _, _, .bool | _, _, .none => rfl
  | _, _, .list items => congrArg Value.list (Value.eraseItems_eq items)
  | _, _, .map entries => congrArg Value.map (Value.eraseEntries_eq entries)
  | _, _, .record fields => congrArg (Value.record _) (Value.eraseFields_eq fields)
  | _, _, .callable code => congrArg (Value.callable _) code.eraseSpans_eq

theorem Value.eraseItems_eq : ∀ {vs ws : List Value},
    List.Forall₂ (Value.Related (Code.Like .spanless)) vs ws →
      Value.eraseItems vs = Value.eraseItems ws
  | _, _, .nil => rfl
  | _, _, .cons h hs => by
    rw [Value.eraseItems, Value.eraseItems, h.eraseSpans_eq, Value.eraseItems_eq hs]

theorem Value.eraseEntries_eq : ∀ {es fs : List (MapKey × Value)},
    Entries.Related (Value.Related (Code.Like .spanless)) es fs →
      Value.eraseEntries es = Value.eraseEntries fs
  | _, _, .nil => rfl
  | _, _, .cons h hs => by
    rw [Value.eraseEntries, Value.eraseEntries, h.eraseSpans_eq, Value.eraseEntries_eq hs]

theorem Value.eraseFields_eq : ∀ {es fs : List (String × Value)},
    Entries.Related (Value.Related (Code.Like .spanless)) es fs →
      Value.eraseFields es = Value.eraseFields fs
  | _, _, .nil => rfl
  | _, _, .cons h hs => by
    rw [Value.eraseFields, Value.eraseFields, h.eraseSpans_eq, Value.eraseFields_eq hs]

theorem Code.Like.eraseSpans_eq : ∀ {c d : Code}, Code.Like .spanless c d →
    c.eraseSpans = d.eraseSpans
  | _, _, .builtin | _, _, .host _ => rfl
  | _, _, .closure body _ _ levels => by
    rw [Code.eraseSpans, Code.eraseSpans, body.eraseSpans_eq, Level.eraseAll_eq (levels trivial)]

theorem FunctionEntry.eraseAll_eq : ∀ {fs gs : List (String × FunctionEntry)},
    Entries.Related (FunctionEntry.Related (Code.Like .spanless)) fs gs →
      FunctionEntry.eraseAll fs = FunctionEntry.eraseAll gs
  | _, _, .nil => rfl
  | _, _, .cons (.mk code) hs => by
    rw [FunctionEntry.eraseAll, FunctionEntry.eraseAll, FunctionEntry.eraseSpans,
      FunctionEntry.eraseSpans, code.eraseSpans_eq, FunctionEntry.eraseAll_eq hs]

theorem Level.eraseAll_eq : ∀ {ls ms : List Level},
    List.Forall₂ (Level.Related (Code.Like .spanless)) ls ms → Level.eraseAll ls = Level.eraseAll ms
  | _, _, .nil => rfl
  | _, _, .cons (.mk values functions) hs => by
    rw [Level.eraseAll, Level.eraseAll, Level.eraseSpans, Level.eraseSpans,
      Value.eraseFields_eq values, FunctionEntry.eraseAll_eq functions, Level.eraseAll_eq hs]

end

/-! ## Runs -/

/-- Computations that end like a third, up to what `f` and `g` forget, end alike. -/
theorem Run.Related.of_common {ε α γ δ : Type} {f : ε → γ} {g : α → δ} {m m' n : Run ε α}
    (h : Run.Related (fun e e' => f e = f e') (fun a a' => g a = g a') m n)
    (h' : Run.Related (fun e e' => f e = f e') (fun a a' => g a = g a') m' n) :
    Run.Related (fun e e' => f e = f e') (fun a a' => g a = g a') m m' := by
  intro next
  have hn := h next
  have hn' := h' next
  generalize m next = o, m' next = o', n next = o'' at hn hn'
  cases hn with
  | value value =>
    cases hn' with
    | value value' => exact .value (value.trans value'.symm)
  | error error =>
    cases hn' with
    | error error' => exact .error (error.trans error'.symm)
  | exhausted =>
    cases hn' with
    | exhausted => exact .exhausted

namespace Expr

section

variable {host : Host} (hhost : host.Parametric fun r r' => r.eraseSpans = r'.eraseSpans)

include hhost

/-- **Evaluation without spans**, of the expression and in the scope, ends in the same way. -/
theorem evaluate_eraseSpans (depth : Nat) (e : Expr) (s : Scope) :
    Run.Related (fun f f' => f.error.eraseSpans = f'.error.eraseSpans)
      (fun v w => v.eraseSpans = w.eraseSpans)
      (e.evaluate host depth s) (e.eraseSpans.evaluate host depth s.eraseSpans) := by
  have hbody : e.Like Likeness.spanless.spans e.eraseSpans := e.like_eraseSpans fun _ => trivial
  have hscope : s.Agree .spanless e s.eraseSpans := .of_levels (Level.related_eraseAll s)
  exact (evaluate_like (fun _ => hhost) depth hbody hscope).imp (fun _ _ => id)
    fun _ _ => Value.Related.eraseSpans_eq

/-- **Spans decide nothing.**  Expressions that are the same without spans, in scopes that are the
same without spans, end in the same way: with values that are the same without spans, or with errors
that are, wherever they are reported. -/
theorem evaluate_ignores_spans {e e' : Expr} (he : e.eraseSpans = e'.eraseSpans) {s s' : Scope}
    (hs : s.eraseSpans = s'.eraseSpans) (depth : Nat) :
    Run.Related (fun f f' => f.error.eraseSpans = f'.error.eraseSpans)
      (fun v w => v.eraseSpans = w.eraseSpans)
      (e.evaluate host depth s) (e'.evaluate host depth s') := by
  have h' := evaluate_eraseSpans hhost depth e' s'
  rw [← he, ← hs] at h'
  exact (evaluate_eraseSpans hhost depth e s).of_common h'

end

/-- A closure called by the host, in two scopes where its body has other spans: the error is
reported at the span of the body. -/
theorem evaluate_ignores_spans_called : ∃ (e e' : Expr) (s s' : Scope) (fault fault' : EvalError),
    e.eraseSpans = e'.eraseSpans ∧ s.eraseSpans = s'.eraseSpans ∧
    e.evaluate Host.applying 2 s 0 = .error fault 0 ∧
    e'.evaluate Host.applying 2 s' 0 = .error fault' 0 ∧
    fault.span ≠ fault'.span ∧ fault.error.eraseSpans = fault'.error.eraseSpans := by
  let called (span : Span) : Expr := .call span (.get span "x" .any) "f" .any []
  let scope (span : Span) : Scope :=
    [.mk [("x", .callable 0 (.closure [] [] (.get span "y" .int)))] [("f", .mk none (.host "f"))]]
  let one : Span := ⟨⟨1, 1⟩, ⟨1, 6⟩⟩
  let two : Span := ⟨⟨2, 1⟩, ⟨2, 6⟩⟩
  have hone : (called one).evaluate Host.applying 2 (scope one) 0 =
      .error ⟨.undefinedVariable "y", one⟩ 0 := rfl
  have htwo : (called two).evaluate Host.applying 2 (scope two) 0 =
      .error ⟨.undefinedVariable "y", two⟩ 0 := rfl
  have hrun := @evaluate_ignores_spans _ Host.applying_parametric (called one) (called two) rfl
    (scope one) (scope two) rfl 2 0
  rw [hone, htwo] at hrun
  cases hrun with
  | error h =>
    exact ⟨called one, called two, scope one, scope two, _, _, rfl, rfl, hone, htwo, by decide, h⟩

end Expr

end Ascription
