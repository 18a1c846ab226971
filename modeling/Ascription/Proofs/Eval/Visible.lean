import Ascription.Proofs.Eval.Like

/-!
# Proofs/Eval/Visible — a scope matters through the names an expression mentions

    s, s' agree on the names of e  ──▸  e.evaluate s, e.evaluate s' end alike, up to captured scopes

Two scopes may have other levels, in another order, with other bindings: as long as the variables
an expression reads, or takes as parameters, and the functions it calls are the same in both, it
ends in the same way.  Only a closure that comes out keeps the scope it was made in, and nothing
can look at it but by a call.
-/

namespace Ascription

/-! ## Values without captured scopes -/

/-- Code without the scope that a closure was made in. -/
def Code.withoutScope : Code → Code
  | closure _ params body => closure [] params body
  | c => c

/-- **A value without the scopes captured** by its closures. -/
def Value.withoutScopes (v : Value) : Value := v.mapCode Code.withoutScope

/-- **Two runs of one program**: whatever they see is equal. -/
def Likeness.equal : Likeness where
  spans := Eq
  errors := Eq
  faults := Eq
  hosts := True
  levels := False
  plain _ _ := rfl
  raised := by
    rintro s _ r _ rfl rfl
    rfl
  caught := by
    rintro f _ rfl
    rfl

theorem Code.Like.withoutScope_eq {c d : Code} (h : Code.Like .equal c d) :
    c.withoutScope = d.withoutScope := by
  cases h with
  | builtin | host => rfl
  | closure body => rw [Code.withoutScope, Code.withoutScope, body.eq]

/-! ## Everything is like itself -/

namespace Scope

theorem sizeOf_lt_of_value? {s : Scope} {name : String} {v : Value} (h : s.value? name = some v) :
    sizeOf v < sizeOf s := by
  obtain ⟨⟨vs, fs⟩, hl, hv⟩ := List.exists_of_findSome?_eq_some h
  have hlevel := List.sizeOf_lt_of_mem hl
  have hvalue := Entries.sizeOf_lt_of_mem (Entries.mem_of_lookup hv)
  simp only [Level.values, Level.mk.sizeOf_spec] at hlevel hvalue
  omega

theorem sizeOf_lt_of_function? {s : Scope} {name : String} {f : FunctionEntry}
    (h : s.function? name = some f) : sizeOf f.code < sizeOf s := by
  obtain ⟨⟨vs, fs⟩, hl, hf⟩ := List.exists_of_findSome?_eq_some h
  have hlevel := List.sizeOf_lt_of_mem hl
  have hentry := Entries.sizeOf_lt_of_mem (Entries.mem_of_lookup hf)
  obtain ⟨signature, code⟩ := f
  simp only [Level.functions, Level.mk.sizeOf_spec, FunctionEntry.mk.sizeOf_spec,
    FunctionEntry.code] at hlevel hentry ⊢
  omega

end Scope

mutual

/-- Code is like itself, with all it reaches through captured scopes. -/
theorem Code.like_self : ∀ c : Code, Code.Like .equal c c
  | .builtin _ => .builtin
  | .host _ => .host trivial
  | .closure s params body => by
    refine .closure (.self fun _ _ => rfl) (fun name _ => ?_) (fun name _ => ?_) nofun
    · cases hv : Scope.value? s name with
      | none => exact .none
      | some v => exact .some (Value.related_self v)
    · cases hf : Scope.function? s name with
      | none => exact .none
      | some f => exact .some (Code.like_self f.code)
termination_by c => sizeOf c
decreasing_by
  · have hlt := Scope.sizeOf_lt_of_value? hv
    simp only [Code.closure.sizeOf_spec]
    omega
  · have hlt := Scope.sizeOf_lt_of_function? hf
    simp only [Code.closure.sizeOf_spec]
    omega

theorem Value.related_self : ∀ v : Value, Value.Related (Code.Like .equal) v v
  | .string _ => .string
  | .int _ => .int
  | .float _ => .float
  | .bool _ => .bool
  | .none => .none
  | .list vs => .list (List.forall₂_same.mpr fun v _ => Value.related_self v)
  | .map es => .map (.same fun e _ => Value.related_self e.2)
  | .record _ fs => .record (.same fun e _ => Value.related_self e.2)
  | .callable _ c => .callable (Code.like_self c)
termination_by v => sizeOf v
decreasing_by
  · have hlt := List.sizeOf_lt_of_mem ‹v ∈ vs›
    simp only [Value.list.sizeOf_spec]
    omega
  · have hlt := Entries.sizeOf_lt_of_mem ‹e ∈ es›
    simp only [Value.map.sizeOf_spec]
    omega
  · have hlt := Entries.sizeOf_lt_of_mem ‹e ∈ fs›
    simp only [Value.record.sizeOf_spec]
    omega
  · simp only [Value.callable.sizeOf_spec]
    omega

end

/-! ## Runs -/

theorem Scope.agree_of_eq {e : Expr} {s s' : Scope}
    (hvalues : ∀ name, e.Reads name → s.value? name = s'.value? name)
    (hfunctions : ∀ name, e.Calls name → s.function? name = s'.function? name) :
    s.Agree .equal e s' := by
  refine ⟨fun name hname => ?_, fun name hname => ?_, nofun⟩
  · rw [hvalues name hname]
    cases s'.value? name with
    | none => exact .none
    | some v => exact .some (Value.related_self v)
  · rw [hfunctions name hname]
    cases s'.function? name with
    | none => exact .none
    | some f => exact .some (Code.like_self f.code)

/-- A host whose functions call their first argument with the others. -/
def Host.applying : Host
  | _, .callable _ code :: rest => .invoke code rest .finish
  | _, _ => .finish (.ok .none)

theorem Host.applying_parametric {E : RuntimeError → RuntimeError → Prop} :
    Host.Parametric E Host.applying := by
  intro R name vs ws h
  cases h with
  | nil => exact .finish (.ok .none)
  | cons hfirst hrest =>
    cases hfirst with
    | callable code => exact .invoke code hrest fun _ _ h => .finish h
    | _ => exact .finish (.ok .none)

namespace Expr

/-- **A scope matters through the names an expression mentions.**  In two scopes with the same
values for the variables it reads or takes as parameters, and the same functions under the names it
calls, an expression ends in the same way: with the same error at the same span, or with values that
differ at most in the scopes captured by closures.  A value without callables is the same. -/
theorem evaluate_sees_names {host : Host} (hhost : host.Parametric Eq) {e : Expr} {s s' : Scope}
    (hvalues : ∀ name, e.Reads name → s.value? name = s'.value? name)
    (hfunctions : ∀ name, e.Calls name → s.function? name = s'.function? name) (depth : Nat) :
    Run.Related Eq (fun v w => v.withoutScopes = w.withoutScopes ∧ (v.Inert → v = w))
      (e.evaluate host depth s) (e.evaluate host depth s') := by
  intro next
  have hrun := @evaluate_like .equal host (fun _ => hhost) depth e e s s' (.self fun _ _ => rfl)
    (Scope.agree_of_eq hvalues hfunctions) next
  generalize e.evaluate host depth s next = o, e.evaluate host depth s' next = o' at hrun
  cases hrun with
  | value h => exact .value ⟨h.mapCode_eq fun _ _ hcode => hcode.withoutScope_eq, h.eq_of_inert⟩
  | error h => exact .error h
  | exhausted => exact .exhausted

/-- A lambda that reads a variable and is called by the host, in a scope that binds the variable on
an outer level among others, and in one that binds it alone. -/
theorem evaluate_sees_names_called : ∃ (e : Expr) (s s' : Scope),
    (∀ name, e.Reads name → s.value? name = s'.value? name) ∧
    (∀ name, e.Calls name → s.function? name = s'.function? name) ∧
    s.value? "y" ≠ none ∧ s'.value? "y" = none ∧
    e.evaluate Host.applying 3 s 0 = .value (.int 1) 1 ∧
    e.evaluate Host.applying 3 s' 0 = .value (.int 1) 1 := by
  obtain ⟨e, he⟩ : ∃ e : Expr, e = .call default (.lambda default ["a"] (.get default "x" .int)) "f"
    .int [.literal default (.int 3)] := ⟨_, rfl⟩
  obtain ⟨s, hs⟩ : ∃ s : Scope, s = [.mk [("y", .bool true)] [],
    .mk [("z", .none), ("x", .int 1)] [("f", .mk none (.host "f"))]] := ⟨_, rfl⟩
  obtain ⟨s', hs'⟩ : ∃ s' : Scope, s' = [.mk [("x", .int 1)] [("f", .mk none (.host "f"))]] :=
    ⟨_, rfl⟩
  have hagree : e.Everywhere fun n => (∀ name ∈ n.names, s.value? name = s'.value? name) ∧
      ∀ name ∈ n.callee?, s.function? name = s'.function? name := by
    subst he hs hs'
    refine .node ⟨nofun, ?_⟩ (List.forall_mem_cons.mpr ⟨.node ⟨?_, nofun⟩ ?_, ?_⟩)
    · rintro name ⟨⟩
      rfl
    · exact List.forall_mem_singleton.mpr rfl
    · exact List.forall_mem_singleton.mpr (.node ⟨List.forall_mem_singleton.mpr rfl, nofun⟩ nofun)
    · exact List.forall_mem_singleton.mpr (.node ⟨nofun, nofun⟩ nofun)
  have hreads : ∀ name, e.Reads name → s.value? name = s'.value? name :=
    fun name ⟨n, hn, hname⟩ => (hagree n hn).1 name hname
  have hcalls : ∀ name, e.Calls name → s.function? name = s'.function? name :=
    fun name ⟨n, hn, hname⟩ => (hagree n hn).2 name hname
  have hvalue : e.evaluate Host.applying 3 s 0 = .value (.int 1) 1 := by
    subst he hs
    rfl
  have hrun := evaluate_sees_names Host.applying_parametric hreads hcalls 3 0
  rw [hvalue] at hrun
  refine ⟨e, s, s', hreads, hcalls, ?_, ?_, hvalue, ?_⟩
  · subst hs
    nofun
  · subst hs'
    rfl
  · generalize e.evaluate Host.applying 3 s' 0 = o at hrun
    cases hrun with
    | value h => rw [h.2 .int]

end Expr

end Ascription
