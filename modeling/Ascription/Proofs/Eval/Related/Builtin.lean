import Ascription.Proofs.Eval.Related

/-!
# Proofs/Eval/Related/Builtin — built-in functions on related arguments

Each built-in function counts its arguments, looks at the form of those it needs, and goes through a
list or map with a callable.  None of these steps tells related arguments apart: they have the same
number and the same forms, and what is called is related.
-/

namespace Ascription

namespace Builtin

variable {E : RuntimeError → RuntimeError → Prop} {R : Code → Code → Prop} {b : Builtin}

/-! ## Data -/

section Data

variable {v w : Value} {vs ws kept kept' : List Value}

theorem among_eq (h : List.Forall₂ (Value.Related R) vs ws) (hv : Value.Related R v w) :
    among vs v = among ws w := by
  induction h with
  | nil => rfl
  | cons hitem _ ih =>
    rw [among, among, List.any_cons, List.any_cons, hitem.equal_eq hv]
    exact congrArg (_ || ·) ih

theorem distinctFrom_related (hkept : List.Forall₂ (Value.Related R) kept kept')
    (h : List.Forall₂ (Value.Related R) vs ws) :
    List.Forall₂ (Value.Related R) (distinctFrom kept vs) (distinctFrom kept' ws) := by
  induction h generalizing kept kept' with
  | nil => exact hkept
  | cons hitem _ ih =>
    rw [distinctFrom, distinctFrom, among_eq hkept hitem]
    split
    · exact ih hkept
    · exact ih (List.rel_append hkept (.cons hitem .nil))

theorem front_related (h : List.Forall₂ (Value.Related R) vs ws) (n : Int64) :
    List.Forall₂ (Value.Related R) (front vs n) (front ws n) := by
  rw [front, front, h.length_eq]
  split
  · exact List.forall₂_take _ h
  · exact List.forall₂_take _ h

end Data

/-! ## Arguments -/

section Arguments

variable (hE : ∀ r, r.Plain → E r r) {α β : Type} {P : α → β → Prop} {index : Nat} {v w : Value}

include hE

theorem arity_related {n : Nat} {vs ws : List Value}
    (h : List.Forall₂ (Value.Related R) vs ws) : Run.Related E P (arity b n vs) (arity b n ws) := by
  rw [arity, arity, h.length_eq]
  exact .fail (hE _ trivial)

theorem expectInt_related (h : Value.Related R v w) :
    Run.Related E Eq (expectInt b index v) (expectInt b index w) := by
  cases h with
  | int => exact .pure rfl
  | _ => exact .fail (hE _ trivial)

theorem expectString_related (h : Value.Related R v w) :
    Run.Related E Eq (expectString b index v) (expectString b index w) := by
  cases h with
  | string => exact .pure rfl
  | _ => exact .fail (hE _ trivial)

theorem expectList_related (h : Value.Related R v w) :
    Run.Related E (List.Forall₂ (Value.Related R)) (expectList b index v)
      (expectList b index w) := by
  cases h with
  | list items => exact .pure items
  | _ => exact .fail (hE _ trivial)

theorem expectCallable_related (h : Value.Related R v w) :
    Run.Related E R (expectCallable b index v) (expectCallable b index w) := by
  cases h with
  | callable code => exact .pure code
  | _ => exact .fail (hE _ trivial)

end Arguments

/-! ## Loops -/

section Loops

variable {t t' : Value → Run RuntimeError Bool} {f f' : Value → Run RuntimeError Value}
  {vs ws : List Value} {es fs : List (MapKey × Value)}

theorem test_related (hE : ∀ r, r.Plain → E r r) {call call' : Caller}
    (hcall : Caller.Related E R call call') {c d : Code} (hcode : R c d) {v w : Value}
    (h : Value.Related R v w) : Run.Related E Eq (test call b c v) (test call' b d w) := by
  refine .bind (hcall hcode (.cons h .nil)) fun answer answer' hanswer => ?_
  cases hanswer with
  | bool => exact .pure rfl
  | _ => exact .fail (hE _ trivial)

theorem keepItems_related (ht : ∀ v w, Value.Related R v w → Run.Related E Eq (t v) (t' w))
    (h : List.Forall₂ (Value.Related R) vs ws) :
    Run.Related E (List.Forall₂ (Value.Related R)) (keepItems t vs) (keepItems t' ws) := by
  induction h with
  | nil => exact .pure .nil
  | cons hitem _ ih =>
    refine .bind (ht _ _ hitem) fun pass _ hpass => .bind ih fun _ _ hkept => .pure ?_
    subst hpass
    cases pass with
    | true => exact .cons hitem hkept
    | false => exact hkept

theorem keepEntries_related (ht : ∀ v w, Value.Related R v w → Run.Related E Eq (t v) (t' w))
    (h : Entries.Related (Value.Related R) es fs) :
    Run.Related E (Entries.Related (Value.Related R)) (keepEntries t es) (keepEntries t' fs) := by
  induction h with
  | nil => exact .pure .nil
  | cons hvalue _ ih =>
    refine .bind (ht _ _ hvalue) fun pass _ hpass => .bind ih fun _ _ hkept => .pure ?_
    subst hpass
    cases pass with
    | true => exact .cons hvalue hkept
    | false => exact hkept

theorem mapItems_related
    (hf : ∀ v w, Value.Related R v w → Run.Related E (Value.Related R) (f v) (f' w))
    (h : List.Forall₂ (Value.Related R) vs ws) :
    Run.Related E (List.Forall₂ (Value.Related R)) (mapItems f vs) (mapItems f' ws) := by
  induction h with
  | nil => exact .pure .nil
  | cons hitem _ ih =>
    exact .bind (hf _ _ hitem) fun _ _ himage => .bind ih fun _ _ himages =>
      .pure (.cons himage himages)

theorem mapEntries_related
    (hf : ∀ v w, Value.Related R v w → Run.Related E (Value.Related R) (f v) (f' w))
    (h : Entries.Related (Value.Related R) es fs) :
    Run.Related E (Entries.Related (Value.Related R)) (mapEntries f es) (mapEntries f' fs) := by
  induction h with
  | nil => exact .pure .nil
  | cons hvalue _ ih =>
    exact .bind (hf _ _ hvalue) fun _ _ himage => .bind ih fun _ _ himages =>
      .pure (.cons himage himages)

theorem anyItem_related (ht : ∀ v w, Value.Related R v w → Run.Related E Eq (t v) (t' w))
    (h : List.Forall₂ (Value.Related R) vs ws) :
    Run.Related E Eq (anyItem t vs) (anyItem t' ws) := by
  induction h with
  | nil => exact .pure rfl
  | cons hitem _ ih =>
    refine .bind (ht _ _ hitem) fun pass _ hpass => ?_
    subst hpass
    cases pass with
    | true => exact .pure rfl
    | false => exact ih

end Loops

/-! ## The functions -/

/-- **A built-in function ends alike** on related arguments, called by callers that answer alike. -/
theorem run_related (hE : ∀ r, r.Plain → E r r) {call call' : Caller}
    (hcall : Caller.Related E R call call') {vs ws : List Value}
    (hargs : List.Forall₂ (Value.Related R) vs ws) :
    Run.Related E (Value.Related R) (b.run call vs) (b.run call' ws) := by
  -- A wrong number of arguments is the same wrong number on both sides.
  have harity : ∀ n, Run.Related E (Value.Related R) (arity b n vs) (arity b n ws) := fun n =>
    arity_related hE hargs
  cases b with
  | contains =>
    rcases hargs with _ | ⟨hcollection, _ | ⟨hv, _ | _⟩⟩
    case cons.cons.nil =>
      cases hcollection with
      | list items =>
        rw [run, run, among_eq items hv]
        exact .pure .bool
      | map entries =>
        rw [run, run, among_eq entries.values hv]
        exact .pure .bool
      | _ => exact .fail (hE _ trivial)
    all_goals exact harity 2
  | count =>
    rcases hargs with _ | ⟨hcollection, _ | _⟩
    case cons.nil =>
      cases hcollection with
      | list items =>
        rw [run, run, items.length_eq]
        exact .pure .int
      | map entries =>
        rw [run, run, entries.length_eq]
        exact .pure .int
      | _ => exact .fail (hE _ trivial)
    all_goals exact harity 1
  | filter =>
    rcases hargs with _ | ⟨hcollection, _ | ⟨hf, _ | _⟩⟩
    case cons.cons.nil =>
      refine .bind (expectCallable_related hE hf) fun c d hcode => ?_
      have htest := fun v w (h : Value.Related R v w) =>
        @test_related E R filter hE call call' hcall c d hcode v w h
      cases hcollection with
      | list items => exact .bind (keepItems_related htest items) fun _ _ h => .pure (.list h)
      | map entries => exact .bind (keepEntries_related htest entries) fun _ _ h => .pure (.map h)
      | _ => exact .fail (hE _ trivial)
    all_goals exact harity 2
  | isSome =>
    rcases hargs with _ | ⟨hv, _ | _⟩
    case cons.nil => cases hv <;> exact .pure .bool
    all_goals exact harity 1
  | map =>
    rcases hargs with _ | ⟨hcollection, _ | ⟨hf, _ | _⟩⟩
    case cons.cons.nil =>
      refine .bind (expectCallable_related hE hf) fun c d hcode => ?_
      have himage := fun v w (h : Value.Related R v w) => hcall hcode (.cons h .nil)
      cases hcollection with
      | list items => exact .bind (mapItems_related himage items) fun _ _ h => .pure (.list h)
      | map entries => exact .bind (mapEntries_related himage entries) fun _ _ h => .pure (.map h)
      | _ => exact .fail (hE _ trivial)
    all_goals exact harity 2
  | some =>
    rcases hargs with _ | ⟨hlist, _ | ⟨hf, _ | _⟩⟩
    case cons.cons.nil =>
      refine .bind (expectList_related hE hlist) fun us us' hitems =>
        .bind (expectCallable_related hE hf) fun c d hcode => ?_
      refine .bind (anyItem_related (fun v w h => test_related hE hcall hcode h) hitems)
        fun answer _ h => .pure ?_
      subst h
      exact .bool
    all_goals exact harity 2
  | substr =>
    rcases hargs with _ | ⟨htext, _ | ⟨hstart, _ | ⟨hamount, _ | _⟩⟩⟩
    case cons.cons.cons.nil =>
      refine .bind (expectString_related hE htext) fun s _ hs =>
        .bind (expectInt_related hE hstart) fun start _ hstart =>
        .bind (expectInt_related hE hamount) fun amount _ hamount => .pure ?_
      subst hs hstart hamount
      exact .string
    all_goals exact harity 3
  | take =>
    rcases hargs with _ | ⟨hlist, _ | ⟨hn, _ | _⟩⟩
    case cons.cons.nil =>
      refine .bind (expectList_related hE hlist) fun us us' hitems =>
        .bind (expectInt_related hE hn) fun n _ hn => .pure ?_
      subst hn
      exact .list (front_related hitems n)
    all_goals exact harity 2
  | unique =>
    rcases hargs with _ | ⟨hlist, _ | _⟩
    case cons.nil =>
      exact .bind (expectList_related hE hlist) fun us us' hitems =>
        .pure (.list (distinctFrom_related .nil hitems))
    all_goals exact harity 1

end Builtin

end Ascription
