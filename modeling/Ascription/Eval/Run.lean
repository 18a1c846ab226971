import Ascription.Scope

/-!
# Eval/Run — computations that call callables

A `Run` hands out identities to new callables, may fail, and may **exhaust** the depth to which
calls nest; the last is kept apart from failing.

Functions of the host are plans: a plan ends, or has a callable called and goes on with the outcome.
-/

namespace Ascription

/-- How a computation ends, with the next free identity. -/
inductive Outcome (ε α : Type)
  | value (a : α) (next : Nat)
  | error (e : ε) (next : Nat)
  | exhausted

/-- **A computation**, given the next free identity. -/
def Run (ε α : Type) : Type := Nat → Outcome ε α

namespace Run

variable {ε ε' α β : Type}

instance : Monad (Run ε) where
  pure a := fun next => .value a next
  bind m f := fun next =>
    match m next with
    | .value a next => f a next
    | .error e next => .error e next
    | .exhausted => .exhausted

/-- Failing. -/
def fail (e : ε) : Run ε α := fun next => .error e next

/-- Calls nest too deep. -/
def exhausted : Run ε α := fun _ => .exhausted

/-- A new identity. -/
def fresh : Run ε Nat := fun next => .value next (next + 1)

/-- The computation whose outcome is known. -/
def ofExcept : Except ε α → Run ε α
  | .ok a => pure a
  | .error e => fail e

/-- Another view of the error. -/
def mapError (f : ε → ε') (m : Run ε α) : Run ε' α := fun next =>
  match m next with
  | .value a next => .value a next
  | .error e next => .error (f e) next
  | .exhausted => .exhausted

/-- The outcome as a value. -/
def attempt (m : Run ε α) : Run ε' (Except ε α) := fun next =>
  match m next with
  | .value a next => .value (.ok a) next
  | .error e next => .value (.error e) next
  | .exhausted => .exhausted

end Run

/-- How a callable is called. -/
abbrev Caller := Code → List Value → Run RuntimeError Value

/-- What a function of the host does. -/
inductive HostPlan
  | finish (outcome : Except RuntimeError Value)
  | invoke (code : Code) (args : List Value) (resume : Except RuntimeError Value → HostPlan)

namespace HostPlan

/-- Carrying out a plan. -/
def run (call : Caller) : HostPlan → Run RuntimeError Value
  | finish outcome => Run.ofExcept outcome
  | invoke code args resume => do
    let outcome ← (call code args).attempt
    run call (resume outcome)

end HostPlan

/-- **The functions of a host**, by name. -/
abbrev Host := String → List Value → HostPlan

end Ascription
