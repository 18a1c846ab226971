/-!
# Proofs/Except — results that may be errors

A sequence of steps succeeds when each step does, and fails as the first that does not.
-/

namespace Ascription

theorem Except.bind_eq_ok {ε α β : Type} {x : Except ε α} {f : α → Except ε β} {b : β} :
    (x >>= f) = .ok b ↔ ∃ a, x = .ok a ∧ f a = .ok b := by
  cases x <;> simp [bind, Except.bind]

theorem Except.map_eq_ok {ε α β : Type} {x : Except ε α} {f : α → β} {b : β} :
    x.map f = .ok b ↔ ∃ a, x = .ok a ∧ f a = b := by
  cases x <;> simp [Except.map]

theorem Except.mapError_eq_ok {ε ε' α : Type} {x : Except ε α} {f : ε → ε'} {a : α} :
    x.mapError f = .ok a ↔ x = .ok a := by
  cases x with
  | ok b =>
    constructor <;>
    · intro h
      cases h
      rfl
  | error e =>
    constructor <;>
    · intro h
      cases h

theorem Except.map_eq_error {ε α β : Type} {x : Except ε α} {f : α → β} {e : ε} :
    x.map f = .error e ↔ x = .error e := by
  cases x <;> simp [Except.map]

theorem Except.bind_eq_error {ε α β : Type} {x : Except ε α} {f : α → Except ε β} {e : ε} :
    (x >>= f) = .error e ↔ x = .error e ∨ ∃ a, x = .ok a ∧ f a = .error e := by
  cases x <;> simp [bind, Except.bind]

/-- The errors of a sequence are those of its steps. -/
theorem Except.then_mapError {ε ε' β : Type} {x : Except ε Unit} {y : Except ε β} {f : ε → ε'} :
    (x >>= fun _ => y).mapError f = (x.mapError f >>= fun _ => y.mapError f) := by
  cases x <;> rfl

/-- A step that only accepts or refuses. -/
theorem Except.then_eq_ok {ε β : Type} {x : Except ε Unit} {y : Except ε β} {b : β} :
    (x >>= fun _ => y) = .ok b ↔ x = .ok () ∧ y = .ok b := by
  rw [Except.bind_eq_ok]
  exact ⟨fun ⟨⟨⟩, h, h'⟩ => ⟨h, h'⟩, fun ⟨h, h'⟩ => ⟨(), h, h'⟩⟩

theorem Except.mapError_eq_error {ε ε' α : Type} {x : Except ε α} {f : ε → ε'} {e : ε'} :
    x.mapError f = .error e ↔ ∃ e', x = .error e' ∧ e = f e' := by
  cases x with
  | ok a =>
    constructor
    · intro h
      cases h
    · rintro ⟨_, h, -⟩
      cases h
  | error e' =>
    constructor
    · intro h
      cases h
      exact ⟨e', rfl, rfl⟩
    · rintro ⟨_, h, rfl⟩
      cases h
      rfl

theorem Except.then_eq_error {ε β : Type} {x : Except ε Unit} {y : Except ε β} {e : ε} :
    (x >>= fun _ => y) = .error e ↔ x = .error e ∨ x = .ok () ∧ y = .error e := by
  rw [Except.bind_eq_error]
  exact or_congr_right ⟨fun ⟨⟨⟩, h, h'⟩ => ⟨h, h'⟩, fun ⟨h, h'⟩ => ⟨(), h, h'⟩⟩

/-- **Steps over a list fail at the first that does**: those before it succeed. -/
theorem Except.forM_eq_error {ε α : Type} {step : α → Except ε Unit} {l : List α} {e : ε} :
    l.forM step = .error e ↔ ∃ before a after, l = before ++ a :: after ∧
      (∀ b ∈ before, step b = .ok ()) ∧ step a = .error e := by
  induction l with
  | nil =>
    refine ⟨nofun, ?_⟩
    rintro ⟨before, a, after, h, -⟩
    simp at h
  | cons b l ih =>
    have hcons : (b :: l).forM step = (step b >>= fun _ => l.forM step) := rfl
    rw [hcons, Except.then_eq_error, ih]
    constructor
    · rintro (h | ⟨h, before, a, after, rfl, hbefore, ha⟩)
      · exact ⟨[], b, l, rfl, List.forall_mem_nil _, h⟩
      · exact ⟨b :: before, a, after, rfl, List.forall_mem_cons.mpr ⟨h, hbefore⟩, ha⟩
    · rintro ⟨before, a, after, hsplit, hbefore, ha⟩
      obtain ⟨rfl, h⟩ | ⟨before, rfl, h⟩ := List.cons_eq_append_iff.mp hsplit
      · cases h
        exact .inl ha
      · obtain ⟨hb, hbefore⟩ := List.forall_mem_cons.mp hbefore
        exact .inr ⟨hb, before, a, after, h, hbefore, ha⟩

/-- The error of a result that is one. -/
def Except.error? {ε α : Type} : Except ε α → Option ε
  | .error e => some e
  | .ok _ => none

theorem Except.error?_eq_some {ε α : Type} {x : Except ε α} {e : ε} :
    error? x = some e ↔ x = .error e := by
  cases x <;> simp [error?]

theorem Except.error?_eq_none {ε α : Type} {x : Except ε α} :
    error? x = none ↔ ∃ a, x = .ok a := by
  cases x <;> simp [error?]

/-- The last step cannot fail. -/
theorem Except.error?_ok {ε α β : Type} {x : Except ε α} {f : α → β} :
    error? (x >>= fun a => .ok (f a)) = error? x := by
  cases x <;> rfl

/-- A step that fails or not, whatever the first one gives. -/
theorem Except.error?_bind {ε α β : Type} {x : Except ε α} {f : α → Except ε β} {e? : Option ε}
    (h : ∀ a, error? (f a) = e?) : error? (x >>= f) = (error? x).or e? := by
  cases x with
  | error e => rfl
  | ok a => exact h a

/-- Success with a value can be decided without comparing errors. -/
instance Except.decidableEqOk {ε α : Type} [DecidableEq α] (x : Except ε α) (a : α) :
    Decidable (x = .ok a) :=
  match x with
  | .ok b => decidable_of_iff (b = a) (by simp)
  | .error _ => .isFalse (by simp)

end Ascription
