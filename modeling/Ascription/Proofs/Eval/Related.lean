import Ascription.Proofs.Value.Related

/-!
# Proofs/Eval/Related — computations that end alike

    m ~ m'  :  the same end with the same next identity, and related values or errors

Two computations are related when they end alike whatever identity is next; every way to build one
from others keeps that.  The operators take related values to related results: they look at data,
and the errors they raise say the same of related values.  A function of the host is taken to do no
more with callables than to call them and hand them on.
-/

namespace Ascription

/-! ## Ends -/

/-- Results that are both values or both errors, and related. -/
inductive Except.Related {ε ε' α β : Type} (E : ε → ε' → Prop) (P : α → β → Prop) :
    Except ε α → Except ε' β → Prop
  | ok {a b} (value : P a b) : Related E P (.ok a) (.ok b)
  | error {e e'} (error : E e e') : Related E P (.error e) (.error e')

/-- **Outcomes that are alike**: the next identity is the same. -/
inductive Outcome.Related {ε ε' α β : Type} (E : ε → ε' → Prop) (P : α → β → Prop) :
    Outcome ε α → Outcome ε' β → Prop
  | value {a b next} (value : P a b) : Related E P (.value a next) (.value b next)
  | error {e e' next} (error : E e e') : Related E P (.error e next) (.error e' next)
  | exhausted : Related E P .exhausted .exhausted

/-- **Computations that end alike**, whatever identity is next. -/
def Run.Related {ε ε' α β : Type} (E : ε → ε' → Prop) (P : α → β → Prop) (m : Run ε α)
    (m' : Run ε' β) : Prop :=
  ∀ next, Outcome.Related E P (m next) (m' next)

namespace Run.Related

variable {ε ε' α α' β β' : Type} {E : ε → ε → Prop} {E' : ε' → ε' → Prop} {P : α → α' → Prop}
  {Q : β → β' → Prop} {m : Run ε α} {m' : Run ε α'}

theorem pure {a : α} {a' : α'} (h : P a a') :
    Related E P (Pure.pure a : Run ε α) (Pure.pure a' : Run ε α') := fun _ => .value h

theorem fail {e e' : ε} (h : E e e') : Related E P (Run.fail e) (Run.fail e') := fun _ => .error h

theorem exhausted : Related E P Run.exhausted Run.exhausted := fun _ => .exhausted

theorem fresh : Related E Eq Run.fresh Run.fresh := fun _ => .value rfl

theorem bind {f : α → Run ε β} {f' : α' → Run ε β'} (h : Related E P m m')
    (hf : ∀ a a', P a a' → Related E Q (f a) (f' a')) : Related E Q (m >>= f) (m' >>= f') := by
  intro next
  simp only [Bind.bind]
  generalize m next = o, m' next = o', h next = hnext
  cases hnext with
  | value value => exact hf _ _ value _
  | error error => exact .error error
  | exhausted => exact .exhausted

theorem ofExcept {x : Except ε α} {x' : Except ε α'} (h : Except.Related E P x x') :
    Related E P (Run.ofExcept x) (Run.ofExcept x') := by
  cases h with
  | ok value => exact .pure value
  | error error => exact .fail error

theorem imp {E' : ε → ε → Prop} {P' : α → α' → Prop} (h : Related E P m m')
    (hE : ∀ e e', E e e' → E' e e') (hP : ∀ a a', P a a' → P' a a') : Related E' P' m m' := by
  intro next
  generalize m next = o, m' next = o', h next = hnext
  cases hnext with
  | value value => exact .value (hP _ _ value)
  | error error => exact .error (hE _ _ error)
  | exhausted => exact .exhausted

theorem mapError {f f' : ε → ε'} (h : Related E P m m') (hf : ∀ e e', E e e' → E' (f e) (f' e')) :
    Related E' P (m.mapError f) (m'.mapError f') := by
  intro next
  simp only [Run.mapError]
  generalize m next = o, m' next = o', h next = hnext
  cases hnext with
  | value value => exact .value value
  | error error => exact .error (hf _ _ error)
  | exhausted => exact .exhausted

theorem attempt (h : Related E P m m') :
    Related E' (Except.Related E P) (m.attempt : Run ε' _) m'.attempt := by
  intro next
  simp only [Run.attempt]
  generalize m next = o, m' next = o', h next = hnext
  cases hnext with
  | value value => exact .value (.ok value)
  | error error => exact .value (.error error)
  | exhausted => exact .exhausted

end Run.Related

/-! ## Errors -/

/-- An error that does not come from a lambda. -/
def RuntimeError.Plain : RuntimeError → Prop
  | .inLambda _ _ => False
  | _ => True

/-! ## Operators -/

namespace Value.Related

variable {E : RuntimeError → RuntimeError → Prop} (hE : ∀ r, r.Plain → E r r)
  {R : Code → Code → Prop} {v w v' w' : Value}

include hE

theorem binary (h : Related R v w) (h' : Related R v' w') (op : BinaryOp) :
    Except.Related E (Related R) (Value.binary op v v') (Value.binary op w w') := by
  rw [h.binary_eq h' op]
  cases op with
  | eq => exact .ok .bool
  | or =>
    rw [Value.binary, disjunction.eq_def]
    split
    · exact .ok .bool
    · exact .error (hE _ trivial)
    · exact .error (hE _ trivial)
  | gt =>
    rw [Value.binary, greater.eq_def]
    split
    · exact .ok .bool
    · exact .ok .bool
    · exact .error (hE _ trivial)
  | subtract =>
    rw [Value.binary, subtract.eq_def]
    split
    · split
      · exact .ok .int
      · exact .error (hE _ trivial)
    · exact .ok .float
    · exact .error (hE _ trivial)

theorem negate (h : Related R v w) :
    Except.Related E (Related R) v.negate w.negate := by
  rw [h.negate_eq, Value.negate.eq_def]
  split
  · split
    · exact .ok .int
    · exact .error (hE _ trivial)
  · exact .ok .float
  · exact .error (hE _ trivial)

theorem fieldOf (h : Related R v w) (name : String) :
    Except.Related E (Related R) (v.fieldOf name) (w.fieldOf name) := by
  cases h with
  | @record kind es fs fields =>
    have hvalue := fields.lookup name
    rw [Value.fieldOf, Value.fieldOf]
    generalize es.lookup name = o, fs.lookup name = o' at hvalue
    cases hvalue with
    | some value => exact .ok value
    | none => exact .error (hE _ trivial)
  | _ => exact .error (hE _ trivial)

theorem index (h : Related R v w) (h' : Related R v' w') :
    Except.Related E (Related R) (v.index v') (w.index w') := by
  cases h with
  | @list vs ws items =>
    cases h' with
    | @int i =>
      rw [Value.index, Value.index, items.length_eq]
      split
      · exact .error (hE _ trivial)
      · have hitem := getElem?_related items i.toInt.toNat
        generalize vs[i.toInt.toNat]? = o, ws[i.toInt.toNat]? = o' at hitem
        cases hitem with
        | some value => exact .ok value
        | none => exact .error (hE _ trivial)
    | _ => exact .error (hE _ trivial)
  | @map es fs entries =>
    rw [Value.index, Value.index, h'.toKey?_eq, h'.text_eq]
    split
    case h_1 => exact .error (hE _ trivial)
    case h_2 k _ =>
      have hvalue := entries.lookup k
      generalize es.lookup k = o, fs.lookup k = o' at hvalue
      cases hvalue with
      | some value => exact .ok value
      | none => exact .error (hE _ trivial)
  | _ =>
    change Except.Related E _ (.error (.notIndexable _ v'.typeName))
      (.error (.notIndexable _ w'.typeName))
    rw [h'.typeName_eq]
    exact .error (hE _ trivial)

theorem assert (h : Related R v w) (subject : Subject) (t : Ty) :
    Except.Related E (Related R) (v.assert subject t) (w.assert subject t) := by
  rw [Value.assert, Value.assert, h.check_eq]
  split
  · exact .ok h
  · exact .error (hE _ trivial)

end Value.Related

/-! ## Calls -/

/-- **Callers that answer alike** when they are given related code and related arguments. -/
def Caller.Related (E : RuntimeError → RuntimeError → Prop) (R : Code → Code → Prop)
    (call call' : Caller) : Prop :=
  ∀ {c d vs ws}, R c d → List.Forall₂ (Value.Related R) vs ws →
    Run.Related E (Value.Related R) (call c vs) (call' d ws)

/-- **Plans that are alike**: they end alike, or have related callables called with related
arguments and go on alike from every two related results. -/
inductive HostPlan.Related (E : RuntimeError → RuntimeError → Prop) (R : Code → Code → Prop) :
    HostPlan → HostPlan → Prop
  | finish {x x'} (outcome : Except.Related E (Value.Related R) x x') :
      Related E R (.finish x) (.finish x')
  | invoke {c d vs ws resume resume'} (code : R c d) (args : List.Forall₂ (Value.Related R) vs ws)
      (resumed : ∀ x x', Except.Related E (Value.Related R) x x' →
        Related E R (resume x) (resume' x')) :
      Related E R (.invoke c vs resume) (.invoke d ws resume')

theorem HostPlan.Related.run {E : RuntimeError → RuntimeError → Prop} {R : Code → Code → Prop}
    {plan plan' : HostPlan} (h : HostPlan.Related E R plan plan') {call call' : Caller}
    (hcall : Caller.Related E R call call') :
    Run.Related E (Value.Related R) (plan.run call) (plan'.run call') := by
  induction h with
  | finish outcome => exact .ofExcept outcome
  | invoke code args _ ih =>
    exact .bind (.attempt (hcall code args)) fun outcome outcome' h => ih outcome outcome' h

/-- **A host that takes callables as they are**: it may call them, hand them on or leave them, but
what they do stays hidden from it.  Whatever the relation between codes, related arguments make
plans that are alike. -/
def Host.Parametric (E : RuntimeError → RuntimeError → Prop) (host : Host) : Prop :=
  ∀ (R : Code → Code → Prop) (name : String) (vs ws : List Value),
    List.Forall₂ (Value.Related R) vs ws → HostPlan.Related E R (host name vs) (host name ws)

end Ascription
