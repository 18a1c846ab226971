import Ascription.Proofs.Phrase.Elaborate.Like

/-!
# Proofs/Registry/Grows — a registry only grows

    initial ──call──▸ r ──call──▸ … ──call──▸ r'        r' extends r

A host defines aliases and declares functions in any order.  A call is refused exactly when its name
is taken, and then the registry stays as it was; otherwise what it defines comes behind all else.
-/

namespace Ascription

namespace Registry

/-- **What a host asks of a registry.** -/
inductive Call
  | defineAlias (name : String) (target : Ty)
  | declareFunction (name : String) (signature : Ty)

/-- What a registry answers to a call. -/
def answer (r : Registry) : Call → Except TypeError Registry
  | .defineAlias name target => r.defineAlias name target
  | .declareFunction name signature => r.declareFunction name signature

/-- The registry after a call, as it was if the call is refused. -/
def next (r : Registry) (call : Call) : Registry :=
  match r.answer call with
  | .ok r' => r'
  | .error _ => r

/-- **The registry after calls**, accepted or refused. -/
def after (r : Registry) (calls : List Call) : Registry := calls.foldl next r

/-- Is the name of a call taken, by the language or by a call before it? -/
def Taken (r : Registry) : Call → Prop
  | .defineAlias name _ => isReservedTypeName name = true ∨ name ∈ r.aliases.map Prod.fst
  | .declareFunction name _ => Builtin.isName name = true ∨ name ∈ r.functions.map Prod.fst

/-- The registry with what a call defines, behind all else. -/
def append (r : Registry) : Call → Registry
  | .defineAlias name target => { r with aliases := r.aliases ++ [(name, target)] }
  | .declareFunction name signature => { r with functions := r.functions ++ [(name, signature)] }

variable {r r' : Registry} {call : Call}

/-! ## One call -/

/-- Entering a name that is neither reserved nor known. -/
theorem guarded_eq_ok {reserved : Bool} {e e' : TypeError} {entries : List (String × Ty)}
    {name : String} {t : Ty} {f : List (String × Ty) → Registry} :
    (if reserved then .error e
      else if Entries.contains entries name then .error e'
      else .ok (f (Entries.insert name t entries)) : Except TypeError Registry) = .ok r' ↔
      ¬ (reserved = true ∨ name ∈ entries.map Prod.fst) ∧ r' = f (entries ++ [(name, t)]) := by
  rw [not_or, ← Entries.contains_eq_false]
  cases reserved with
  | true => simp
  | false =>
    cases hknown : Entries.contains entries name with
    | true => simp
    | false =>
      rw [Entries.insert_of_notMem (Entries.contains_eq_false.mp hknown)]
      simp [eq_comm]

theorem defineAlias_eq_ok {name : String} {target : Ty} :
    r.defineAlias name target = .ok r' ↔
      ¬ r.Taken (.defineAlias name target) ∧ r' = r.append (.defineAlias name target) :=
  guarded_eq_ok (f := fun aliases => { r with aliases })

theorem declareFunction_eq_ok {name : String} {signature : Ty} :
    r.declareFunction name signature = .ok r' ↔
      ¬ r.Taken (.declareFunction name signature) ∧
        r' = r.append (.declareFunction name signature) :=
  guarded_eq_ok (f := fun functions => { r with functions })

/-- **What a registry accepts**: a call whose name is not taken. -/
theorem answer_eq_ok : r.answer call = .ok r' ↔ ¬ r.Taken call ∧ r' = r.append call := by
  cases call with
  | defineAlias => exact defineAlias_eq_ok
  | declareFunction => exact declareFunction_eq_ok

/-- **What a registry refuses** leaves it as it was. -/
theorem next_of_taken (h : r.Taken call) : (∃ e, r.answer call = .error e) ∧ r.next call = r := by
  rw [next]
  cases hanswer : r.answer call with
  | ok r' => exact absurd h (answer_eq_ok.mp hanswer).1
  | error e => exact ⟨⟨e, rfl⟩, rfl⟩

theorem next_of_free (h : ¬ r.Taken call) :
    r.answer call = .ok (r.append call) ∧ r.next call = r.append call := by
  have hanswer := answer_eq_ok.mpr ⟨h, rfl⟩
  rw [next, hanswer]
  exact ⟨rfl, rfl⟩

/-- What comes behind all else hides nothing. -/
theorem append_extends : (r.append call).Extends r := by
  intro n t h
  cases call with
  | declareFunction => exact h
  | defineAlias name target =>
    obtain ⟨s, hs, rfl⟩ := Option.map_eq_some_iff.mp h
    rw [append, alias?, List.lookup_append, hs]
    rfl

theorem next_extends : (r.next call).Extends r := by
  by_cases h : r.Taken call
  · rw [(next_of_taken h).2]
    exact .refl r
  · rw [(next_of_free h).2]
    exact append_extends

theorem Built.next (h : r.Built) : (r.next call).Built := by
  rw [Registry.next]
  split
  case h_1 r' hanswer =>
    cases call with
    | defineAlias => exact .defineAlias h hanswer
    | declareFunction => exact .declareFunction h hanswer
  case h_2 => exact h

/-! ## Many calls -/

variable {calls : List Call}

/-- **A registry only grows.** -/
theorem after_extends : (r.after calls).Extends r := by
  induction calls generalizing r with
  | nil => exact .refl r
  | cons call calls ih => exact fun n t h => ih n t (next_extends n t h)

theorem Built.after (h : r.Built) : (r.after calls).Built := by
  induction calls generalizing r with
  | nil => exact h
  | cons call calls ih => exact ih h.next

/-! ## What a host cannot change -/

/-- **No alias has a reserved name.** -/
theorem Built.notMem_aliases (h : r.Built) {n : String} (hn : isReservedTypeName n = true) :
    n ∉ r.aliases.map Prod.fst := by
  have hnone := Option.map_eq_none_iff.mp (h.alias?_reserved hn)
  rw [← Entries.contains_eq_false, Entries.contains, hnone]
  rfl

/-- **The built-in functions keep their signatures.** -/
theorem Built.function?_builtin (h : r.Built) (b : Builtin) :
    r.function? b.name = some b.signature := by
  induction h with
  | initial => cases b <;> rfl
  | defineAlias _ defined ih =>
    obtain ⟨-, rfl⟩ := defineAlias_eq_ok.mp defined
    exact ih
  | declareFunction _ declared ih =>
    obtain ⟨-, rfl⟩ := declareFunction_eq_ok.mp declared
    rw [function?] at ih
    rw [append, function?, List.lookup_append, ih]
    rfl

end Registry

end Ascription
