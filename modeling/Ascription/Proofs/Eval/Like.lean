import Ascription.Proofs.Eval.Related.Builtin
import Ascription.Proofs.Expr.Like
import Ascription.Proofs.Scope

/-!
# Proofs/Eval/Like — two runs side by side

    e ~ e',  s ~ s' on the names of e  ──▸  e.evaluate s ~ e'.evaluate s'
         ▴                                            │
         └────── closures, with their scopes ─────────┘

A likeness says what may differ between two runs: spans, errors, and, unless whole scopes are asked
to be alike, what lies in them behind names that are not mentioned.  Code is alike when its bodies
are and its scopes agree on the names of the body.  Evaluation makes only code that is alike out of
code that is alike, so it never sees a difference.
-/

namespace Ascription

/-- **What may differ between two runs**: how spans and errors are related, whether functions of the
host may be called at all, and whether scopes are alike as a whole or in the names that matter. -/
structure Likeness where
  spans : Span → Span → Prop
  errors : RuntimeError → RuntimeError → Prop
  faults : EvalError → EvalError → Prop
  hosts : Prop
  levels : Prop
  /-- Both runs may raise one error, unless it is one of a lambda. -/
  plain : ∀ r, r.Plain → errors r r
  /-- Related errors may be raised at nodes with related spans. -/
  raised : ∀ {s s' r r'}, spans s s' → errors r r' → faults (.raisedAt s r) (.raisedAt s' r')
  /-- Related errors may come out of lambdas. -/
  caught : ∀ {f f'}, faults f f' → errors f.toRuntime f'.toRuntime

/-- **Code that is alike.** A closure sees its scope through the names of its body and its
parameters; all of its levels are alike where that is asked for. -/
inductive Code.Like (L : Likeness) : Code → Code → Prop
  | builtin {b} : Like L (.builtin b) (.builtin b)
  | host {name} (called : L.hosts) : Like L (.host name) (.host name)
  | closure {s s' : Scope} {params b b'} (body : Expr.Like L.spans b b')
      (values : ∀ name, name ∈ params ∨ b.Reads name →
        Option.Rel (Value.Related (Like L)) (s.value? name) (s'.value? name))
      (functions : ∀ name, b.Calls name →
        Option.Rel (fun f f' => Like L f.code f'.code) (s.function? name) (s'.function? name))
      (levels : L.levels → List.Forall₂ (Level.Related (Like L)) s s') :
      Like L (.closure s params b) (.closure s' params b')

/-! ## Scopes -/

namespace Scope

/-- **Scopes that agree** on the names that an expression mentions, or as a whole. -/
structure Agree (L : Likeness) (e : Expr) (s s' : Scope) : Prop where
  values : ∀ name, e.Reads name →
    Option.Rel (Value.Related (Code.Like L)) (s.value? name) (s'.value? name)
  functions : ∀ name, e.Calls name →
    Option.Rel (fun f f' => Code.Like L f.code f'.code) (s.function? name) (s'.function? name)
  levels : L.levels → List.Forall₂ (Level.Related (Code.Like L)) s s'

theorem Agree.part {L : Likeness} {c e : Expr} {s s' : Scope} (h : Agree L e s s')
    (hc : c ∈ e.children) : Agree L c s s' :=
  ⟨fun name hname => h.values name (hname.part hc),
    fun name hname => h.functions name (hname.part hc), h.levels⟩

section Levels

variable {P : Value → Value → Prop} {s s' : Scope} {vs vs' values values' : List (String × Value)}

theorem value?_cons_related {name : String} (hvs : Entries.Related P vs vs')
    (h : Option.Rel P (s.value? name) (s'.value? name)) :
    Option.Rel P (value? (.mk vs [] :: s) name) (value? (.mk vs' [] :: s') name) :=
  findSome?_cons_related (hvs.lookup name) h

theorem bindVariables_related {done done' : List (String × Value)}
    (hdone : Entries.Related P done done')
    (hnames : ∀ name ∈ values.map Prod.fst, Option.Rel P (s.value? name) (s'.value? name))
    (hvalues : Entries.Related P values values') :
    Except.Related Eq (Entries.Related P) (bindVariables s done values)
      (bindVariables s' done' values') := by
  induction hvalues generalizing done done' with
  | nil => exact .ok hdone
  | @cons name v w es fs value rest ih =>
    rw [List.map_cons, List.forall_mem_cons] at hnames
    obtain ⟨hname, hnames⟩ := hnames
    rw [bindVariables, bindVariables]
    generalize s.value? name = o, s'.value? name = o' at hname
    cases hname with
    | some => exact .error rfl
    | none => exact ih (hdone.insert value) hnames

/-- **A new level** is refused for the same name, or binds related values in both scopes. -/
theorem sub_related
    (hnames : ∀ name ∈ values.map Prod.fst, Option.Rel P (s.value? name) (s'.value? name))
    (hvalues : Entries.Related P values values') :
    Except.Related Eq
      (fun inner inner' => ∃ vs vs', Entries.Related P vs vs' ∧
        inner = .mk vs [] :: s ∧ inner' = .mk vs' [] :: s')
      (s.sub values) (s'.sub values') := by
  rw [sub_eq_map, sub_eq_map]
  have hbound := bindVariables_related .nil hnames hvalues
  generalize bindVariables s [] values = x, bindVariables s' [] values' = x' at hbound
  cases hbound with
  | ok h => exact .ok ⟨_, _, h, rfl, rfl⟩
  | error h => exact .error h

end Levels

end Scope

/-! ## Expressions -/

namespace Expr

variable {L : Likeness} {call call' : Caller}

theorem raiseAt_related {α β : Type} {P : α → β → Prop} {s s' : Span}
    {x : Except RuntimeError α} {x' : Except RuntimeError β} (hspan : L.spans s s')
    (h : Except.Related L.errors P x x') :
    Run.Related L.faults P (raiseAt s x) (raiseAt s' x') := by
  cases h with
  | ok value => exact .pure value
  | error error => exact .fail (L.raised hspan error)

mutual

/-- **Evaluation sees no difference** between expressions and scopes that are alike. -/
theorem evalWith_like (hcall : Caller.Related L.errors (Code.Like L) call call') {s s' : Scope} :
    ∀ {e e' : Expr}, Like L.spans e e' → s.Agree L e s' →
      Run.Related L.faults (Value.Related (Code.Like L)) (e.evalWith call s) (e'.evalWith call' s')
  | .get _ name type, _, .get span, hs => by
    have hvalue := hs.values name ⟨_, .refl, List.mem_singleton_self name⟩
    rw [evalWith, evalWith]
    generalize s.value? name = o, s'.value? name = o' at hvalue
    cases hvalue with
    | some value => exact raiseAt_related span (value.assert L.plain (.reading name) type)
    | none => exact raiseAt_related span (.error (L.plain _ trivial))
  | .literal _ value, _, .literal _, _ => .pure (.of_inert .ofLiteral)
  | .binary _ op _ _, _, .binary span left right, hs =>
    .bind (evalWith_like hcall left (hs.part (by simp [children]))) fun _ _ hl =>
      .bind (evalWith_like hcall right (hs.part (by simp [children]))) fun _ _ hr =>
        raiseAt_related span (hl.binary L.plain hr op)
  | _, _, .negative span operand, hs =>
    .bind (evalWith_like hcall operand (hs.part List.mem_cons_self)) fun _ _ hv =>
      raiseAt_related span (hv.negate L.plain)
  | .call _ _ name result _, _, .call span target args, hs => by
    have htarget := evalWith_like hcall target (hs.part List.mem_cons_self)
    have hargs := evalAll_like hcall args fun c hc => hs.part (List.mem_cons_of_mem _ hc)
    refine .bind htarget fun v v' hv => .bind hargs fun vs vs' hvs => ?_
    have hfunction := hs.functions name ⟨_, .refl, rfl⟩
    generalize s.function? name = o, s'.function? name = o' at hfunction
    cases hfunction with
    | none => exact raiseAt_related span (.error (L.plain _ trivial))
    | some code =>
      exact .bind (.mapError (hcall code (.cons hv hvs)) fun _ _ => L.raised span)
        fun _ _ hanswer => raiseAt_related span (hanswer.assert L.plain (.result name) result)
  | .lambda _ params _, _, .lambda _ body, hs => by
    -- Both runs have handed out as many identities, so the new closures have the same one.
    refine .bind .fresh fun i _ hi => .pure ?_
    subst hi
    refine .callable
      (.closure body (fun name hname => hs.values name ?_) (fun name hname => ?_) hs.levels)
    · obtain hname | hname := hname
      · exact ⟨_, .refl, hname⟩
      · exact hname.part List.mem_cons_self
    · exact hs.functions name (hname.part List.mem_cons_self)
  | _, _, .list _ items, hs =>
    .bind (evalAll_like hcall items fun _ hc => hs.part hc) fun _ _ hvs => .pure (.list hvs)
  | _, _, .struct _ fields, hs =>
    .bind (evalFields_like hcall fields fun _ hf => hs.part (List.mem_map_of_mem hf)) fun _ _ hws =>
      .pure (.record hws.ofList)
  | .field _ _ name _, _, .field span target, hs =>
    .bind (evalWith_like hcall target (hs.part List.mem_cons_self)) fun _ _ hv =>
      raiseAt_related span (hv.fieldOf L.plain name)
  | _, _, .offset span target key, hs =>
    .bind (evalWith_like hcall target (hs.part (by simp [children]))) fun _ _ hv =>
      .bind (evalWith_like hcall key (hs.part (by simp [children]))) fun _ _ hk =>
        raiseAt_related span (hv.index L.plain hk)

theorem evalAll_like (hcall : Caller.Related L.errors (Code.Like L) call call') {s s' : Scope} :
    ∀ {es es' : List Expr}, List.Forall₂ (Like L.spans) es es' → (∀ e ∈ es, s.Agree L e s') →
      Run.Related L.faults (List.Forall₂ (Value.Related (Code.Like L))) (evalAll call s es)
        (evalAll call' s' es')
  | _, _, .nil, _ => .pure .nil
  | _, _, .cons h hrest, hs =>
    .bind (evalWith_like hcall h (hs _ List.mem_cons_self)) fun _ _ hv =>
      .bind (evalAll_like hcall hrest fun e he => hs e (List.mem_cons_of_mem _ he)) fun _ _ hvs =>
        .pure (.cons hv hvs)

theorem evalFields_like (hcall : Caller.Related L.errors (Code.Like L) call call') {s s' : Scope} :
    ∀ {fs fs' : List (String × Expr)}, Entries.Related (Like L.spans) fs fs' →
      (∀ f ∈ fs, s.Agree L f.2 s') →
      Run.Related L.faults (Entries.Related (Value.Related (Code.Like L))) (evalFields call s fs)
        (evalFields call' s' fs')
  | _, _, .nil, _ => .pure .nil
  | _, _, .cons h hrest, hs =>
    .bind (evalWith_like hcall h (hs _ List.mem_cons_self)) fun _ _ hv =>
      .bind (evalFields_like hcall hrest fun f hf => hs f (List.mem_cons_of_mem _ hf))
        fun _ _ hws => .pure (.cons hv hws)

end

end Expr

/-! ## Calls -/

namespace Code

variable {L : Likeness} {host : Host}

/-- **A closure sees no difference**: its parameters are bound or refused alike, and its body is
evaluated in scopes that agree. -/
theorem callClosure_like {call call' : Caller}
    (hcall : Caller.Related L.errors (Like L) call call') {s s' : Scope} {params : List String}
    {body body' : Expr} (hbody : Expr.Like L.spans body body')
    (hvalues : ∀ name, name ∈ params ∨ body.Reads name →
      Option.Rel (Value.Related (Like L)) (s.value? name) (s'.value? name))
    (hfunctions : ∀ name, body.Calls name →
      Option.Rel (fun f f' => Like L f.code f'.code) (s.function? name) (s'.function? name))
    (hlevels : L.levels → List.Forall₂ (Level.Related (Like L)) s s')
    {args args' : List Value} (hargs : List.Forall₂ (Value.Related (Like L)) args args') :
    Run.Related L.errors (Value.Related (Like L)) (callClosure call s params body args)
      (callClosure call' s' params body' args') := by
  rw [callClosure, callClosure, hargs.length_eq]
  split
  case isTrue => exact .fail (L.plain _ trivial)
  case isFalse =>
    have hnames : ∀ name ∈ (params.zip args).map Prod.fst,
        Option.Rel (Value.Related (Like L)) (s.value? name) (s'.value? name) := by
      intro name hname
      obtain ⟨e, he, rfl⟩ := List.mem_map.mp hname
      exact hvalues e.1 (.inl (List.of_mem_zip he).1)
    have hsub := Scope.sub_related hnames (.zip hargs)
    generalize s.sub (params.zip args) = x, s'.sub (params.zip args') = x' at hsub
    cases hsub with
    | error h =>
      subst h
      exact .fail (L.plain _ trivial)
    | ok h =>
      obtain ⟨vs, vs', hvs, rfl, rfl⟩ := h
      refine .mapError (Expr.evalWith_like hcall hbody
        ⟨fun name hname => ?_, hfunctions, fun h => .cons (.mk hvs .nil) (hlevels h)⟩)
        fun _ _ => L.caught
      exact Scope.value?_cons_related hvs (hvalues name (.inr hname))

/-- **A call sees no difference**, at whatever depth. -/
theorem callAt_like (hhost : L.hosts → host.Parametric L.errors) (depth : Nat) :
    Caller.Related L.errors (Like L) (callAt host depth) (callAt host depth) := by
  induction depth with
  | zero => exact fun _ _ => .exhausted
  | succ depth ih =>
    intro c d vs ws hcode hargs
    cases hcode with
    | builtin => exact Builtin.run_related L.plain ih hargs
    | host called => exact (hhost called _ _ _ _ hargs).run ih
    | closure body values functions levels =>
      exact callClosure_like ih body values functions levels hargs

end Code

/-- **Two runs end alike** when the expressions are alike and the scopes agree on what they
mention. -/
theorem Expr.evaluate_like {L : Likeness} {host : Host} (hhost : L.hosts → host.Parametric L.errors)
    (depth : Nat) {e e' : Expr} {s s' : Scope} (he : e.Like L.spans e') (hs : s.Agree L e s') :
    Run.Related L.faults (Value.Related (Code.Like L)) (e.evaluate host depth s)
      (e'.evaluate host depth s') :=
  evalWith_like (Code.callAt_like hhost depth) he hs

end Ascription
