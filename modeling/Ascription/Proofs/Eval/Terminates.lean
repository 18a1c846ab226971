import Ascription.Proofs.Eval.Ends
import Ascription.Proofs.Eval.Operators
import Ascription.Proofs.Expr.Decidable
import Ascription.Proofs.Expr.StaticType
import Ascription.Proofs.Parser.TwoPass
import Ascription.Proofs.Scope

/-!
# Proofs/Eval/Terminates — which expressions have an end

    no lambda returns a lambda ──▸ no value holds a callable ──▸ only written lambdas are called
    what is called is written in place ────────────────────────▸ only written lambdas are called

Where only written lambdas are called, calls nest no deeper than lambdas do in the text.  A lambda
that returns a lambda and a call of a variable together are enough to go on without end.
-/

namespace Ascription

open Ascription.Phrase Run

/-! ## Values -/

namespace Value

variable {a b v : Value}

theorem inert_of_binary {op : BinaryOp} (h : Value.binary op a b = .ok v) : v.Inert := by
  cases op with
  | eq =>
    cases h
    exact .bool
  | or =>
    obtain ⟨c, rfl⟩ := disjunction_bool h
    exact .bool
  | gt =>
    obtain ⟨c, rfl⟩ := greater_bool h
    exact .bool
  | subtract =>
    change subtract a b = .ok v at h
    unfold subtract at h
    split at h
    · split at h <;> cases h
      exact .int
    · cases h
      exact .float
    · cases h

theorem inert_of_negate (h : a.negate = .ok v) : v.Inert := by
  unfold negate at h
  split at h
  · split at h <;> cases h
    exact .int
  · cases h
    exact .float
  · cases h

theorem inert_of_fieldOf {name : String} (ha : a.Inert) (h : a.fieldOf name = .ok v) : v.Inert := by
  unfold fieldOf at h
  split at h
  · split at h
    case h_1 hl =>
      cases h
      exact ha.fields _ (Entries.mem_of_lookup hl)
    case h_2 => cases h
  · cases h

theorem inert_of_index (ha : a.Inert) (h : a.index b = .ok v) : v.Inert := by
  cases a with
  | list vs => exact ha.items v (index_list_eq_ok h)
  | map es =>
    obtain ⟨k, hk⟩ := index_map_eq_ok h
    exact ha.entries _ hk
  | _ => cases h

theorem eq_of_assert {subject : Subject} {t : Ty} (h : a.assert subject t = .ok v) : a = v := by
  rw [assert] at h
  split at h <;> cases h
  rfl

end Value

/-! ## Scopes -/

namespace Scope

/-- **A scope that binds built-in functions only**, and under the assumption `Q` no callables. -/
structure Quiet (Q : Prop) (s : Scope) : Prop where
  functions : ∀ name f, s.function? name = some f →
    ∃ b : Builtin, name = b.name ∧ f.code = .builtin b
  values : ∀ name v, s.value? name = some v → Q → v.Inert

/-- A new level of quiet values keeps a scope quiet. -/
theorem Quiet.sub {Q : Prop} {s inner : Scope} {values : List (String × Value)} (h : s.Quiet Q)
    (hvalues : ∀ p ∈ values, Q → p.2.Inert) (hs : s.sub values = .ok inner) : inner.Quiet Q := by
  obtain ⟨-, rfl⟩ := sub_eq_ok.mp hs
  refine ⟨h.functions, fun name v hv hq => ?_⟩
  rw [value?, List.findSome?_cons] at hv
  split at hv
  case h_1 w hw =>
    cases hv
    exact hvalues _ (Entries.mem_of_mem_ofList (Entries.mem_of_lookup hw)) hq
  case h_2 => exact h.values name v hv hq

theorem quiet_root {Q : Prop} : root.Quiet Q := ⟨fun _ _ => builtin_of_function?_root, nofun⟩

end Scope

/-! ## Expressions -/

namespace Expr

/-- A lambda does not return a lambda as it is written. -/
def Flat : Expr → Prop
  | lambda _ _ body => body.form ≠ .lambda
  | _ => True

/-- What `filter`, `map` or `some` calls is written in place. -/
def Direct : Expr → Prop
  | call _ _ name _ args =>
    ∀ b ∈ Builtin.callers, name = b.name → ∀ f ∈ args.head?, f.form = .lambda
  | _ => True

/-- **A node that only has written lambdas called**, for either reason. -/
structure Tame (Q : Prop) (e : Expr) : Prop where
  ruled : e.Ruled fun _ => True
  flat : Q → e.Flat
  direct : ¬ Q → e.Direct

section Evaluation

variable {call : Caller} {scope : Scope} {α : Type}

theorem ends_raiseAt {post : α → Prop} {span : Span} {outcome : Except RuntimeError α}
    (h : ∀ a, outcome = .ok a → post a) : Ends post (raiseAt span outcome) := by
  cases outcome with
  | ok a => exact .pure (h a rfl)
  | error e => exact .fail

/-- A list of expressions ends when each does; the first value is that of the first expression. -/
theorem ends_evalAll {post : Expr → Value → Prop} {es : List Expr}
    (h : ∀ e ∈ es, Ends (post e) (evalWith call scope e)) :
    Ends (fun vs => (∀ v ∈ vs, ∃ e ∈ es, post e v) ∧ ∀ v ∈ vs.head?, ∃ e ∈ es.head?, post e v)
      (evalAll call scope es) := by
  induction es with
  | nil => exact .pure ⟨nofun, nofun⟩
  | cons e es ih =>
    obtain ⟨he, h⟩ := List.forall_mem_cons.mp h
    refine .bind he fun v hv => .bind (ih h) fun vs hvs => .pure ⟨?_, ?_⟩
    · refine List.forall_mem_cons.mpr ⟨⟨e, List.mem_cons_self, hv⟩, fun w hw => ?_⟩
      obtain ⟨e', he', hw⟩ := hvs.1 w hw
      exact ⟨e', List.mem_cons_of_mem e he', hw⟩
    · rintro w ⟨⟩
      exact ⟨e, rfl, hv⟩

theorem ends_evalFields {post : Value → Prop} {fs : List (String × Expr)}
    (h : ∀ f ∈ fs, Ends post (evalWith call scope f.2)) :
    Ends (fun ws => ∀ w ∈ ws, post w.2) (evalFields call scope fs) := by
  induction fs with
  | nil => exact .pure nofun
  | cons f fs ih =>
    obtain ⟨hf, h⟩ := List.forall_mem_cons.mp h
    exact .bind hf fun v hv => .bind (ih h) fun ws hws =>
      .pure (List.forall_mem_cons.mpr ⟨hv, hws⟩)

theorem ends_callClosure {post : Value → Prop} {params : List String} {body : Expr}
    {args : List Value}
    (h : ∀ inner, scope.sub (params.zip args) = .ok inner → Ends post (body.evalWith call inner)) :
    Ends post (Code.callClosure call scope params body args) := by
  rw [Code.callClosure]
  split
  · exact .fail
  · split
    · exact .fail
    case h_2 inner hinner => exact .mapError (h inner hinner)

/-- The value of an argument: a closure where a lambda is written, else what `Q` says. -/
def Given (Q : Prop) (scope : Scope) (e : Expr) (v : Value) : Prop :=
  (∃ span params body i, e = .lambda span params body ∧
      v = .callable i (.closure scope params body)) ∨
    e.form ≠ .lambda ∧ (Q → v.Inert)

/-- An argument ends if it does where it is no lambda. -/
theorem ends_given {Q : Prop} {e : Expr}
    (h : e.form ≠ .lambda → Ends (fun v => Q → v.Inert) (evalWith call scope e)) :
    Ends (Given Q scope e) (evalWith call scope e) := by
  by_cases hform : e.form = .lambda
  · obtain ⟨span, params, body, rfl⟩ := form_eq_lambda.mp hform
    exact .bind .fresh fun i _ => .pure (.inl ⟨span, params, body, i, rfl, rfl⟩)
  · exact (h hform).imp fun v hv => .inr ⟨hform, hv⟩

/-- A given value holds no callable, or is one. -/
theorem Given.inert_or_callable {Q : Prop} {e : Expr} {v : Value} (h : Given Q scope e v) (hq : Q) :
    v.Inert ∨ ∃ i code, v = .callable i code := by
  obtain ⟨-, params, body, i, -, rfl⟩ | ⟨-, hinert⟩ := h
  · exact .inr ⟨i, _, rfl⟩
  · exact .inl (hinert hq)

/-- A callable that is given is the closure of a lambda: no other value is one under `Q`, and
without `Q` what is called is written in place. -/
theorem Given.lambda_of_callable {Q : Prop} {e : Expr} {i : Nat} {code : Code}
    (h : Given Q scope e (.callable i code)) (hform : ¬ Q → e.form = .lambda) :
    ∃ span params body, e = .lambda span params body ∧ code = .closure scope params body := by
  obtain ⟨span, params, body, j, rfl, heq⟩ | ⟨hne, hinert⟩ := h
  · cases heq
    exact ⟨span, params, body, rfl, rfl⟩
  · by_cases hq : Q
    · cases hinert hq
    · exact absurd (hform hq) hne

/-- A call ends when its target and arguments do, and the built-in function run on their values. -/
theorem ends_call {Q : Prop} {post : Expr → Value → Prop} {span : Span} {target : Expr}
    {name : String} {result : Ty} {args : List Expr} (hscope : scope.Quiet Q)
    (hparts : ∀ c ∈ target :: args, Ends (post c) (c.evalWith call scope))
    (hrun : ∀ b : Builtin, name = b.name → ∀ v vs, (∀ w ∈ v :: vs, ∃ c ∈ target :: args, post c w) →
      (∀ w ∈ vs.head?, ∃ c ∈ args.head?, post c w) →
        Ends (fun a => Q → a.Inert) (call (.builtin b) (v :: vs))) :
    Ends (fun a => Q → a.Inert) ((Expr.call span target name result args).evalWith call scope) := by
  obtain ⟨htarget, hargs⟩ := List.forall_mem_cons.mp hparts
  refine .bind htarget fun v hv => .bind (ends_evalAll hargs) fun vs hvs => ?_
  split
  case h_1 => exact ends_raiseAt nofun
  case h_2 f hf =>
    obtain ⟨b, hname, hcode⟩ := hscope.functions _ f hf
    rw [hcode]
    have hgiven : ∀ w ∈ v :: vs, ∃ c ∈ target :: args, post c w := by
      refine List.forall_mem_cons.mpr ⟨⟨target, List.mem_cons_self, hv⟩, fun w hw => ?_⟩
      obtain ⟨c, hc, hw⟩ := hvs.1 w hw
      exact ⟨c, List.mem_cons_of_mem target hc, hw⟩
    refine .bind (.mapError (hrun b hname v vs hgiven hvs.2)) fun answer hanswer =>
      ends_raiseAt fun w hw => ?_
    exact Value.eq_of_assert hw ▸ hanswer

/-- **A tame expression ends**, and without callables in its value unless it is a lambda. -/
theorem ends_evalWith {Q : Prop} {host : Host} (e : Expr) : Everywhere (Tame Q) e →
    (Q → e.form ≠ .lambda) → ∀ {depth : Nat}, sizeOf e ≤ depth → ∀ {scope : Scope}, scope.Quiet Q →
      Ends (fun v => Q → v.Inert) (e.evalWith (Code.callAt host depth) scope) := by
  induction e using within_induction with
  | h e ih =>
  intro he hform depth hdepth scope hscope
  have hpart : ∀ c ∈ e.children, (Q → c.form ≠ .lambda) →
      Ends (fun v => Q → v.Inert) (c.evalWith (Code.callAt host depth) scope) := fun c hc hform =>
    have hlt := sizeOf_lt_of_mem_children hc
    ih c hc c .refl (he.part hc) hform (by omega) hscope
  have hrest : e.form ≠ .call → e.form ≠ .lambda → ∀ c ∈ e.children,
      Ends (fun v => Q → v.Inert) (c.evalWith (Code.callAt host depth) scope) :=
    fun hcall hlambda c hc => hpart c hc fun _ => he.here.ruled.part_ne_lambda hcall hlambda c hc
  cases e with
  | get span name type =>
    rw [evalWith]
    split
    case h_1 v hv =>
      refine ends_raiseAt fun w hw => ?_
      obtain rfl := Value.eq_of_assert hw
      exact hscope.values name v hv
    case h_2 => exact ends_raiseAt nofun
  | literal span value => exact .pure fun _ => .ofLiteral
  | lambda span params body =>
    exact .bind .fresh fun i _ => .pure fun hq => absurd rfl (hform hq)
  | call span target name result args =>
    have htarget : target ∈ (call span target name result args).children := List.mem_cons_self
    have hlt := sizeOf_lt_of_mem_children htarget
    obtain ⟨d, rfl⟩ : ∃ d, depth = d + 1 := ⟨depth - 1, by omega⟩
    have hgiven : ∀ c ∈ target :: args,
        Ends (Given Q scope c) (c.evalWith (Code.callAt host (d + 1)) scope) := fun c hc =>
      ends_given fun hne => hpart c hc fun _ => hne
    refine ends_call hscope hgiven fun b hname v vs hvs hhead => ?_
    refine Builtin.ends_run (fun hq w hw => ?_) (fun hb u i code hu w hw => ?_)
    · obtain ⟨c, -, hc⟩ := hvs w hw
      exact hc.inert_or_callable hq
    · cases hu
      obtain ⟨c, hc, hcallable⟩ := hhead _ rfl
      obtain ⟨span', params, body, rfl, rfl⟩ := hcallable.lambda_of_callable fun hq =>
        he.here.direct hq b hb hname c hc
      have hmem : lambda span' params body ∈ (call span target name result args).children :=
        List.mem_cons_of_mem target (List.mem_of_mem_head? hc)
      have hbody : body ∈ (lambda span' params body).children := List.mem_cons_self
      -- The call and the lambda in it make room for two calls: of the function, of the closure.
      have hlt := sizeOf_lt_of_mem_children hmem
      have hlt' := sizeOf_lt_of_mem_children hbody
      obtain ⟨d, rfl⟩ : ∃ d', d = d' + 1 := ⟨d - 1, by omega⟩
      have hlambda := he.part hmem
      refine ends_callClosure fun inner hinner => ?_
      refine ih _ hmem body (.part hbody .refl) (hlambda.part hbody) hlambda.here.flat (by omega)
        (hscope.sub (fun p hp => ?_) hinner)
      rw [List.mem_singleton.mp (List.of_mem_zip hp).2]
      exact hw
  | binary span op left right =>
    have hparts := hrest (by cases op <;> nofun) (by cases op <;> nofun)
    exact .bind (hparts left (by simp [children])) fun a _ =>
      .bind (hparts right (by simp [children])) fun b _ =>
        ends_raiseAt fun v hv _ => Value.inert_of_binary hv
  | negative span operand =>
    have hparts := hrest nofun nofun
    exact .bind (hparts operand List.mem_cons_self) fun a _ =>
      ends_raiseAt fun v hv _ => Value.inert_of_negate hv
  | list span items =>
    refine .bind (ends_evalAll (hrest nofun nofun)) fun vs hvs => .pure fun hq =>
      .list fun v hv => ?_
    obtain ⟨c, -, hc⟩ := hvs.1 v hv
    exact hc hq
  | struct span fields =>
    have hparts := hrest nofun nofun
    exact .bind (ends_evalFields fun f hf => hparts f.2 (List.mem_map_of_mem hf)) fun ws hws =>
      .pure fun hq => .anonymous fun w hw => hws w hw hq
  | field span target name type =>
    have hparts := hrest nofun nofun
    exact .bind (hparts target List.mem_cons_self) fun a ha =>
      ends_raiseAt fun v hv hq => Value.inert_of_fieldOf (ha hq) hv
  | offset span target key =>
    have hparts := hrest nofun nofun
    exact .bind (hparts target (by simp [children])) fun a ha =>
      .bind (hparts key (by simp [children])) fun k _ =>
        ends_raiseAt fun v hv hq => Value.inert_of_index (ha hq) hv

end Evaluation

end Expr

/-! ## Self-application -/

open Ascription.Expr

/-- The call `[x].map(x)`. -/
def selfMap (s₁ s₂ s₃ s₄ : Span) (x : String) : Expr :=
  .call s₁ (.list s₂ [.get s₃ x .any]) "map" .any [.get s₄ x .any]

section SelfApplication

variable {host : Host} {scope : Scope} {x : String} {s₁ s₂ s₃ s₄ : Span}

theorem evalAll_singleton {call : Caller} {e : Expr} {v : Value} {next n : Nat}
    (h : e.evalWith call scope next = .value v n) :
    evalAll call scope [e] next = .value [v] n := by
  rw [evalAll, Run.bind_value h]
  rfl

theorem selfMap_exhausted {call : Caller} {f : FunctionEntry} {v : Value}
    (hf : scope.function? "map" = some f) (hcode : f.code = .builtin .map)
    (hv : scope.value? x = some v) (h : ∀ n, call (.builtin .map) [.list [v], v] n = .exhausted)
    (next : Nat) : (selfMap s₁ s₂ s₃ s₄ x).evalWith call scope next = .exhausted := by
  have hget : ∀ span n, (Expr.get span x .any).evalWith call scope n = .value v n := by
    intro span n
    rw [evalWith, hv]
    rfl
  have hlist : (Expr.list s₂ [.get s₃ x .any]).evalWith call scope next =
      .value (.list [v]) next := by
    rw [evalWith, Run.bind_value (evalAll_singleton (hget s₃ next))]
    rfl
  rw [selfMap, evalWith, Run.bind_value hlist, Run.bind_value (evalAll_singleton (hget s₄ next)),
    hf]
  refine Run.bind_exhausted ?_
  rw [hcode, Run.mapError, h next]

/-- Mapping a list of one item goes on when the call of the item does. -/
theorem map_exhausted {d i : Nat} {code : Code} {v : Value}
    (h : ∀ n, Code.callAt host d code [v] n = .exhausted) (next : Nat) :
    Code.callAt host (d + 1) (.builtin .map) [.list [v], .callable i code] next = .exhausted :=
  (Run.bind_value rfl).trans (Run.bind_exhausted (Run.bind_exhausted (h next)))

theorem map_one {d i next n : Nat} {code : Code} {v w : Value}
    (h : Code.callAt host d code [v] next = .value w n) :
    Code.callAt host (d + 1) (.builtin .map) [.list [v], .callable i code] next =
      .value (.list [w]) n := by
  have hitems : Builtin.mapItems (fun v => Code.callAt host d code [v]) [v] next =
      .value [w] n := by
    rw [Builtin.mapItems, Run.bind_value h]
    rfl
  exact (Run.bind_value rfl).trans (Run.bind_value hitems)

/-- Calling a closure of one parameter evaluates its body one level further in. -/
theorem callAt_closure_one (hx : scope.value? x = none) {d : Nat} {body : Expr} {v : Value} :
    Code.callAt host (d + 1) (.closure scope [x] body) [v] =
      (body.evalWith (Code.callAt host d) (.mk [(x, v)] [] :: scope)).mapError
        EvalError.toRuntime := by
  have hsub : scope.sub ([x].zip [v]) = .ok (.mk [(x, v)] [] :: scope) := by
    rw [Scope.sub, Scope.extend]
    simp [Scope.bindVariables, Scope.bindFunctions, hx, Entries.insert, bind, Except.bind]
  change Code.callClosure (Code.callAt host d) scope [x] body [v] = _
  rw [Code.callClosure, if_neg (by simp), hsub]

/-- `|x| [x].map(x)` goes on when what it is given goes on when given itself. -/
theorem closure_exhausted {f : FunctionEntry} (hf : scope.function? "map" = some f)
    (hcode : f.code = .builtin .map) (hx : scope.value? x = none) {i : Nat} {code : Code} {d : Nat}
    (h : ∀ d', d' + 2 ≤ d → ∀ n, Code.callAt host d' code [.callable i code] n = .exhausted)
    (next : Nat) :
    Code.callAt host d (.closure scope [x] (selfMap s₁ s₂ s₃ s₄ x)) [.callable i code] next =
      .exhausted := by
  cases d with
  | zero => rfl
  | succ d =>
    have hv : Scope.value? (.mk [(x, .callable i code)] [] :: scope) x =
        some (.callable i code) := by
      simp [Scope.value?, Level.values]
    have hf' : Scope.function? (.mk [(x, .callable i code)] [] :: scope) "map" = some f := hf
    have hbody : (selfMap s₁ s₂ s₃ s₄ x).evalWith (Code.callAt host d)
        (.mk [(x, .callable i code)] [] :: scope) next = .exhausted := by
      refine selfMap_exhausted hf' hcode hv (fun n => ?_) next
      cases d with
      | zero => rfl
      | succ d => exact map_exhausted (h d (by omega)) n
    rw [callAt_closure_one hx, Run.mapError, hbody]

/-- **`|x| [x].map(x)` given itself** never ends. -/
theorem self_application_exhausted {f : FunctionEntry} (hf : scope.function? "map" = some f)
    (hcode : f.code = .builtin .map) (hx : scope.value? x = none) {i : Nat} (d next : Nat) :
    Code.callAt host d (.closure scope [x] (selfMap s₁ s₂ s₃ s₄ x))
      [.callable i (.closure scope [x] (selfMap s₁ s₂ s₃ s₄ x))] next = .exhausted := by
  induction d using Nat.strongRecOn generalizing next with
  | ind d ih => exact closure_exhausted hf hcode hx (fun d' hd => ih d' (by omega)) next

/-- A call of `map` that is written with a list of one item and a lambda. -/
theorem evalWith_map {call : Caller} {f : FunctionEntry} (hf : scope.function? "map" = some f)
    (hcode : f.code = .builtin .map) {target : Expr} {v : Value} {next n : Nat}
    (htarget : target.evalWith call scope next = .value (.list [v]) n) {params : List String}
    {body : Expr} :
    (Expr.call s₁ target "map" .any [.lambda s₂ params body]).evalWith call scope next =
      ((call (.builtin .map) [.list [v], .callable n (.closure scope params body)]).mapError
        (EvalError.raisedAt s₁)) (n + 1) := by
  have hlambda : (Expr.lambda s₂ params body).evalWith call scope n =
      .value (.callable n (.closure scope params body)) (n + 1) := rfl
  rw [evalWith, Run.bind_value htarget, Run.bind_value (evalAll_singleton hlambda), hf]
  simp only [hcode]
  exact congrFun (Run.bind_eq_self fun a n => rfl) (n + 1)

/-- **Self-application goes on without end**: `[1].map(|i| |f| [f].map(f))` lists a lambda, which
`|g| [g].map(g)` gives to itself. -/
theorem self_application_unending {value : Literal} {r₁ r₂ r₃ r₄ r₅ r₆ r₇ t₁ t₂ t₃ t₄ : Span}
    (depth next : Nat) :
    (Expr.call r₁ (.call r₂ (.list r₃ [.literal r₄ value]) "map" .any
        [.lambda r₅ ["i"] (.lambda r₆ ["f"] (selfMap s₁ s₂ s₃ s₄ "f"))]) "map" .any
      [.lambda r₇ ["g"] (selfMap t₁ t₂ t₃ t₄ "g")]).evaluate host depth Scope.root next =
        .exhausted := by
  have hroot : Scope.root.function? "map" =
      some (.mk (some Builtin.map.signature) (.builtin .map)) := rfl
  have htarget : (Expr.list r₃ [.literal r₄ value]).evalWith
      (Code.callAt host depth) Scope.root next =
      .value (.list [.ofLiteral value]) next := rfl
  cases depth with
  | zero => exact Run.bind_exhausted (evalWith_map hroot rfl htarget)
  | succ d =>
  cases d with
  | zero =>
    refine Run.bind_exhausted ((evalWith_map hroot rfl htarget).trans ?_)
    rw [Run.mapError, map_exhausted fun _ => rfl]
  | succ d =>
    -- The level of the outer lambda is what the returned lambda closes over.
    have hreturned : Code.callAt host (d + 1)
        (.closure Scope.root ["i"] (.lambda r₆ ["f"] (selfMap s₁ s₂ s₃ s₄ "f"))) [.ofLiteral value]
        (next + 1) = .value (.callable (next + 1)
          (.closure (.mk [("i", .ofLiteral value)] [] :: Scope.root) ["f"]
            (selfMap s₁ s₂ s₃ s₄ "f"))) (next + 2) := by
      rw [callAt_closure_one rfl]
      rfl
    have hmapped : (Code.callAt host (d + 2) (.builtin .map) [.list [.ofLiteral value],
        .callable next
          (.closure Scope.root ["i"] (.lambda r₆ ["f"] (selfMap s₁ s₂ s₃ s₄ "f")))]).mapError
          (EvalError.raisedAt r₂) (next + 1) = .value (.list [.callable (next + 1)
            (.closure (.mk [("i", .ofLiteral value)] [] :: Scope.root) ["f"]
              (selfMap s₁ s₂ s₃ s₄ "f"))]) (next + 2) := by
      rw [Run.mapError, map_one hreturned]
    refine (evalWith_map hroot rfl ((evalWith_map hroot rfl htarget).trans hmapped)).trans ?_
    rw [Run.mapError, map_exhausted]
    exact closure_exhausted hroot rfl rfl fun d' _ => self_application_exhausted rfl rfl rfl d'

end SelfApplication

/-! ## Texts -/

/-- **Evaluation has an end** unless the text has both a lambda that returns a lambda and a call of
`filter`, `map` or `some` whose function is not written in place. -/
theorem parse_terminates {source : String} {r : Registry} {e : Expr} (h : parse source r = .ok e)
    (hcalls : Everywhere Flat e ∨ Everywhere Direct e) :
    ∃ fuel, ∀ (host : Host) (scope : Scope),
      (∀ name f, scope.function? name = some f →
        ∃ b : Builtin, name = b.name ∧ f.code = .builtin b) →
      (∀ name v, scope.value? name = some v → v.Inert) →
        ∀ depth, fuel ≤ depth → ∀ next, e.evaluate host depth scope next ≠ .exhausted := by
  obtain ⟨⟨e', ds'⟩, hp, rfl⟩ := Except.map_eq_ok.mp h
  obtain ⟨tokens, -, u, -, hu⟩ := parseProgram_eq_ok.mp hp
  obtain ⟨hruled, -⟩ :=
    elaborate_ruled (T := fun _ => True) (fun _ => trivial) u (fun _ _ => trivial) hu
  have htame : Everywhere (Tame (Everywhere Flat e')) e' := fun n hn =>
    ⟨hruled n hn, fun hflat => hflat n hn, fun hflat => hcalls.resolve_left hflat n hn⟩
  refine ⟨sizeOf e', fun host scope hfunctions hvalues depth hdepth next => ?_⟩
  by_cases hform : e'.form = .lambda
  · obtain ⟨span, params, body, rfl⟩ := form_eq_lambda.mp hform
    nofun
  · exact (ends_evalWith e' htame (fun _ => hform) hdepth
      ⟨hfunctions, fun name v hv _ => hvalues name v hv⟩).ne_exhausted next

/-- A lambda over a list. -/
theorem parse_terminates_map : ∃ e, parse "[3].map:any(|x| -x:int)" .initial = .ok e ∧
    ∃ fuel, ∀ (host : Host) depth, fuel ≤ depth → ∀ next,
      e.evaluate host depth Scope.root next ≠ .exhausted := by
  have h : parse "[3].map:any(|x| -x:int)" .initial = .ok (.call ⟨⟨1, 1⟩, ⟨1, 24⟩⟩
      (.list ⟨⟨1, 1⟩, ⟨1, 4⟩⟩ [.literal ⟨⟨1, 2⟩, ⟨1, 3⟩⟩ (.int 3)]) "map" .any
      [.lambda ⟨⟨1, 13⟩, ⟨1, 23⟩⟩ ["x"] (.negative ⟨⟨1, 17⟩, ⟨1, 23⟩⟩
        (.get ⟨⟨1, 18⟩, ⟨1, 23⟩⟩ "x" .int))]) := by
    decide +kernel
  have hflat : ∀ {e}, parse "[3].map:any(|x| -x:int)" .initial = .ok e → Everywhere Flat e := by
    intro e he
    cases h.symm.trans he
    refine .node trivial (List.forall_mem_cons.mpr ⟨.node trivial ?_, ?_⟩)
    · exact List.forall_mem_cons.mpr ⟨.node trivial nofun, nofun⟩
    · refine List.forall_mem_cons.mpr ⟨.node nofun (List.forall_mem_cons.mpr ⟨?_, nofun⟩), nofun⟩
      exact .node trivial (List.forall_mem_cons.mpr ⟨.node trivial nofun, nofun⟩)
  obtain ⟨fuel, hfuel⟩ := parse_terminates h (.inl (hflat h))
  have hroot : Scope.root.Quiet True := Scope.quiet_root
  exact ⟨_, h, fuel, fun host depth =>
    hfuel host Scope.root hroot.functions (fun name v hv => hroot.values name v hv trivial) depth⟩

/-- **Not every text that is accepted has an end**: here a lambda is given to itself. -/
theorem not_always_terminates :
    ¬ ∀ (source : String) (r : Registry) (e : Expr), parse source r = .ok e →
      ∀ (host : Host) (scope : Scope),
        (∀ name f, scope.function? name = some f →
          ∃ b : Builtin, name = b.name ∧ f.code = .builtin b) →
        (∀ name v, scope.value? name = some v → v.Inert) →
          ∀ next, ∃ fuel, e.evaluate host fuel scope next ≠ .exhausted := by
  have h : parse "[1].map:any(|i| |f| [f:any].map:any(f:any)).map:any(|g| [g:any].map:any(g:any))"
      .initial = .ok (.call ⟨⟨1, 1⟩, ⟨1, 80⟩⟩ (.call ⟨⟨1, 1⟩, ⟨1, 44⟩⟩
        (.list ⟨⟨1, 1⟩, ⟨1, 4⟩⟩ [.literal ⟨⟨1, 2⟩, ⟨1, 3⟩⟩ (.int 1)]) "map" .any
        [.lambda ⟨⟨1, 13⟩, ⟨1, 43⟩⟩ ["i"] (.lambda ⟨⟨1, 17⟩, ⟨1, 43⟩⟩ ["f"]
          (selfMap ⟨⟨1, 21⟩, ⟨1, 43⟩⟩ ⟨⟨1, 21⟩, ⟨1, 28⟩⟩ ⟨⟨1, 22⟩, ⟨1, 27⟩⟩
            ⟨⟨1, 37⟩, ⟨1, 42⟩⟩ "f"))])
        "map" .any [.lambda ⟨⟨1, 53⟩, ⟨1, 79⟩⟩ ["g"]
          (selfMap ⟨⟨1, 57⟩, ⟨1, 79⟩⟩ ⟨⟨1, 57⟩, ⟨1, 64⟩⟩ ⟨⟨1, 58⟩, ⟨1, 63⟩⟩
            ⟨⟨1, 73⟩, ⟨1, 78⟩⟩ "g")]) := by
    decide +kernel
  intro hall
  have hroot : Scope.root.Quiet True := Scope.quiet_root
  obtain ⟨fuel, hfuel⟩ := hall _ .initial _ h (fun _ _ => .finish (.ok .none)) Scope.root
    hroot.functions (fun name v hv => hroot.values name v hv trivial) 0
  exact hfuel (self_application_unending fuel 0)

end Ascription
