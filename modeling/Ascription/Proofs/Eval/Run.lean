import Ascription.Eval

/-!
# Proofs/Eval/Run — how computations end

A sequence ends with a value when each step does, and with an error when one step does and those
before it end with values.  Each form of expression evaluates its parts, then judges their values.
-/

namespace Ascription

namespace Run

variable {ε ε' α β : Type} {next next' : Nat}

theorem bind_eq_value {m : Run ε α} {f : α → Run ε β} {b : β} :
    (m >>= f) next = .value b next' ↔ ∃ a n, m next = .value a n ∧ f a n = .value b next' := by
  simp only [bind]
  cases m next with
  | value a n => exact ⟨fun h => ⟨a, n, rfl, h⟩, by rintro ⟨_, _, ⟨⟩, h⟩; exact h⟩
  | error | exhausted => simp

theorem bind_value {m : Run ε α} {f : α → Run ε β} {a : α} {n : Nat} (h : m next = .value a n) :
    (m >>= f) next = f a n := by
  simp only [bind, h]

theorem bind_error {m : Run ε α} {f : α → Run ε β} {e : ε} {n : Nat} (h : m next = .error e n) :
    (m >>= f) next = .error e n := by
  simp only [bind, h]

theorem bind_exhausted {m : Run ε α} {f : α → Run ε β} (h : m next = .exhausted) :
    (m >>= f) next = .exhausted := by
  simp only [bind, h]

/-- A last step that hands its value on is none. -/
theorem bind_eq_self {m : Run ε α} {f : α → Run ε α} (h : ∀ a n, f a n = .value a n) :
    m >>= f = m := by
  funext next
  cases hm : m next with
  | value a n => rw [bind_value hm, h]
  | error e n => rw [bind_error hm]
  | exhausted => rw [bind_exhausted hm]

theorem pure_eq_value {a b : α} :
    (pure a : Run ε α) next = .value b next' ↔ a = b ∧ next = next' := by
  change Outcome.value a next = _ ↔ _
  rw [Outcome.value.injEq]

end Run

namespace Expr

variable {call : Caller} {scope : Scope} {next next' : Nat}

theorem raiseAt_eq_value {α : Type} {span : Span} {outcome : Except RuntimeError α} {a : α} :
    raiseAt span outcome next = .value a next' ↔ outcome = .ok a ∧ next = next' := by
  cases outcome with
  | ok b => exact Run.pure_eq_value.trans (by simp)
  | error e => exact ⟨nofun, nofun⟩

theorem raiseAt_eq_error {α : Type} {span : Span} {outcome : Except RuntimeError α}
    {e : EvalError} :
    raiseAt span outcome next = .error e next' ↔
      ∃ r, outcome = .error r ∧ EvalError.raisedAt span r = e ∧ next = next' := by
  cases outcome with
  | ok b => exact ⟨nofun, nofun⟩
  | error r =>
    change Outcome.error (EvalError.raisedAt span r) next = _ ↔ _
    simp

/-- **The values of a list of expressions** are those of its members. -/
theorem mem_of_evalAll {es : List Expr} {vs : List Value}
    (h : evalAll call scope es next = .value vs next') :
    ∀ v ∈ vs, ∃ e ∈ es, ∃ n n', evalWith call scope e n = .value v n' := by
  induction es generalizing next vs with
  | nil =>
    cases h
    nofun
  | cons e es ih =>
    obtain ⟨v, n, hv, h⟩ := Run.bind_eq_value.mp h
    obtain ⟨vs, n', hvs, h⟩ := Run.bind_eq_value.mp h
    cases h
    intro w hw
    obtain rfl | hw := List.mem_cons.mp hw
    · exact ⟨e, List.mem_cons_self, next, n, hv⟩
    · obtain ⟨e', he', hev⟩ := ih hvs w hw
      exact ⟨e', List.mem_cons_of_mem e he', hev⟩

theorem evalAll_one {e : Expr} {vs : List Value}
    (h : evalAll call scope [e] next = .value vs next') :
    ∃ v, evalWith call scope e next = .value v next' ∧ vs = [v] := by
  obtain ⟨v, n, hv, h⟩ := Run.bind_eq_value.mp h
  cases h
  exact ⟨v, hv, rfl⟩

theorem evalAll_two {e e' : Expr} {vs : List Value}
    (h : evalAll call scope [e, e'] next = .value vs next') :
    ∃ v v' n, evalWith call scope e next = .value v n ∧
      evalWith call scope e' n = .value v' next' ∧ vs = [v, v'] := by
  obtain ⟨v, n, hv, h⟩ := Run.bind_eq_value.mp h
  obtain ⟨vs', n', hvs, h⟩ := Run.bind_eq_value.mp h
  obtain ⟨v', hv', rfl⟩ := evalAll_one hvs
  cases h
  exact ⟨v, v', n, hv, hv', rfl⟩

/-- The fields of a struct literal keep their names and take the values of their expressions. -/
theorem evalFields_spec {fs : List (String × Expr)} {ws : List (String × Value)}
    (h : evalFields call scope fs next = .value ws next') :
    ws.map Prod.fst = fs.map Prod.fst ∧
      ∀ f ∈ fs, ∃ w n n', evalWith call scope f.2 n = .value w n' ∧ (f.1, w) ∈ ws := by
  induction fs generalizing next ws with
  | nil =>
    cases h
    exact ⟨rfl, nofun⟩
  | cons f fs ih =>
    obtain ⟨name, e⟩ := f
    obtain ⟨v, n, hv, h⟩ := Run.bind_eq_value.mp h
    obtain ⟨ws, n', hws, h⟩ := Run.bind_eq_value.mp h
    cases h
    obtain ⟨hnames, hmem⟩ := ih hws
    refine ⟨by rw [List.map_cons, List.map_cons, hnames], fun f hf => ?_⟩
    obtain rfl | hf := List.mem_cons.mp hf
    · exact ⟨v, next, n, hv, List.mem_cons_self⟩
    · obtain ⟨w, m, m', hw, hin⟩ := hmem f hf
      exact ⟨w, m, m', hw, List.mem_cons_of_mem _ hin⟩

theorem evalFields_of_evalAll {fs : List (String × Expr)} {vs : List Value}
    (h : evalAll call scope (fs.map Prod.snd) next = .value vs next') :
    ∃ ws, evalFields call scope fs next = .value ws next' := by
  induction fs generalizing next vs with
  | nil =>
    cases h
    exact ⟨[], rfl⟩
  | cons f fs ih =>
    obtain ⟨name, e⟩ := f
    obtain ⟨v, n, hv, h⟩ := Run.bind_eq_value.mp h
    obtain ⟨vs', n', hvs, h⟩ := Run.bind_eq_value.mp h
    cases h
    obtain ⟨ws, hws⟩ := ih hvs
    exact ⟨(name, v) :: ws,
      Run.bind_eq_value.mpr ⟨v, n, hv, Run.bind_eq_value.mpr ⟨ws, _, hws, rfl⟩⟩⟩

end Expr

end Ascription
