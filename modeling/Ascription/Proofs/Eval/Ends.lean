import Ascription.Proofs.Entries
import Ascription.Proofs.Eval.Run

/-!
# Proofs/Eval/Ends — computations that end

A computation **ends** when it stops with a value or an error whatever identity comes next.
Sequences end when their steps do; built-in functions end when what they call does.
-/

namespace Ascription

namespace Run

variable {ε ε' α β : Type}

/-- **Ending**, with a property of the value there is. -/
def Ends (post : α → Prop) (m : Run ε α) : Prop :=
  ∀ next, (∃ a next', m next = .value a next' ∧ post a) ∨ ∃ e next', m next = .error e next'

namespace Ends

variable {post post' : α → Prop} {m : Run ε α}

theorem ne_exhausted (h : Ends post m) (next : Nat) : m next ≠ .exhausted := by
  obtain ⟨a, next', hm, -⟩ | ⟨e, next', hm⟩ := h next <;> rw [hm] <;> nofun

theorem imp (h : Ends post m) (himp : ∀ a, post a → post' a) : Ends post' m := fun next =>
  (h next).imp_left fun ⟨a, next', hm, ha⟩ => ⟨a, next', hm, himp a ha⟩

theorem pure {a : α} (h : post a) : Ends post (Pure.pure a : Run ε α) := fun next =>
  .inl ⟨a, next, rfl, h⟩

theorem fail {e : ε} : Ends post (Run.fail e : Run ε α) := fun next => .inr ⟨e, next, rfl⟩

theorem fresh : Ends (fun _ => True) (Run.fresh : Run ε Nat) := fun next =>
  .inl ⟨next, next + 1, rfl, trivial⟩

theorem bind {f : α → Run ε β} {post' : β → Prop} (h : Ends post m)
    (hf : ∀ a, post a → Ends post' (f a)) : Ends post' (m >>= f) := by
  intro next
  obtain ⟨a, n, hm, ha⟩ | ⟨e, n, hm⟩ := h next
  · rw [bind_value hm]
    exact hf a ha n
  · rw [bind_error hm]
    exact .inr ⟨e, n, rfl⟩

theorem mapError {f : ε → ε'} (h : Ends post m) : Ends post (m.mapError f) := by
  intro next
  obtain ⟨a, n, hm, ha⟩ | ⟨e, n, hm⟩ := h next
  · exact .inl ⟨a, n, by rw [Run.mapError, hm], ha⟩
  · exact .inr ⟨f e, n, by rw [Run.mapError, hm]⟩

end Ends

end Run

open Run

/-! ## Values that hold no callable -/

/-- **A value without callables** in it. -/
inductive Value.Inert : Value → Prop
  | string {s} : Inert (.string s)
  | int {n} : Inert (.int n)
  | float {x} : Inert (.float x)
  | bool {b} : Inert (.bool b)
  | none : Inert .none
  | list {vs} (items : ∀ v ∈ vs, Inert v) : Inert (.list vs)
  | map {es} (entries : ∀ e ∈ es, Inert e.2) : Inert (.map es)
  | record {kind fs} (fields : ∀ f ∈ fs, Inert f.2) : Inert (.record kind fs)

namespace Value.Inert

theorem items {vs : List Value} : Inert (.list vs) → ∀ v ∈ vs, Inert v
  | .list h => h

theorem entries {es : List (MapKey × Value)} : Inert (.map es) → ∀ e ∈ es, Inert e.2
  | .map h => h

theorem fields {kind : Option String} {fs : List (String × Value)} :
    Inert (.record kind fs) → ∀ f ∈ fs, Inert f.2
  | .record h => h

theorem ofLiteral {value : Literal} : Inert (.ofLiteral value) := by
  cases value <;> constructor

theorem anonymous {fs : List (String × Value)} (h : ∀ f ∈ fs, Inert f.2) :
    Inert (.anonymous fs) :=
  .record fun f hf => h f (Entries.mem_of_mem_ofList hf)

end Value.Inert

/-! ## Built-in functions -/

namespace Builtin

variable {f : Value → Run RuntimeError Value} {t : Value → Run RuntimeError Bool}

theorem ends_keepItems {vs : List Value} (h : ∀ v ∈ vs, Ends (fun _ => True) (t v)) :
    Ends (fun ws => ∀ w ∈ ws, w ∈ vs) (keepItems t vs) := by
  induction vs with
  | nil => exact .pure nofun
  | cons v vs ih =>
    obtain ⟨hv, h⟩ := List.forall_mem_cons.mp h
    refine .bind hv fun pass _ => .bind (ih h) fun ws hws => .pure ?_
    have hkept : ∀ w ∈ ws, w ∈ v :: vs := fun w hw => List.mem_cons_of_mem v (hws w hw)
    cases pass with
    | true => exact List.forall_mem_cons.mpr ⟨List.mem_cons_self, hkept⟩
    | false => exact hkept

theorem ends_keepEntries {es : List (MapKey × Value)}
    (h : ∀ e ∈ es, Ends (fun _ => True) (t e.2)) :
    Ends (fun ws => ∀ w ∈ ws, w ∈ es) (keepEntries t es) := by
  induction es with
  | nil => exact .pure nofun
  | cons e es ih =>
    obtain ⟨hv, h⟩ := List.forall_mem_cons.mp h
    refine .bind hv fun pass _ => .bind (ih h) fun ws hws => .pure ?_
    have hkept : ∀ w ∈ ws, w ∈ e :: es := fun w hw => List.mem_cons_of_mem e (hws w hw)
    cases pass with
    | true => exact List.forall_mem_cons.mpr ⟨List.mem_cons_self, hkept⟩
    | false => exact hkept

theorem ends_mapItems {post : Value → Prop} {vs : List Value} (h : ∀ v ∈ vs, Ends post (f v)) :
    Ends (fun ws => ∀ w ∈ ws, post w) (mapItems f vs) := by
  induction vs with
  | nil => exact .pure nofun
  | cons v vs ih =>
    obtain ⟨hv, h⟩ := List.forall_mem_cons.mp h
    exact .bind hv fun w hw => .bind (ih h) fun ws hws =>
      .pure (List.forall_mem_cons.mpr ⟨hw, hws⟩)

theorem ends_mapEntries {post : Value → Prop} {es : List (MapKey × Value)}
    (h : ∀ e ∈ es, Ends post (f e.2)) :
    Ends (fun ws => ∀ w ∈ ws, post w.2) (mapEntries f es) := by
  induction es with
  | nil => exact .pure nofun
  | cons e es ih =>
    obtain ⟨hv, h⟩ := List.forall_mem_cons.mp h
    exact .bind hv fun w hw => .bind (ih h) fun ws hws =>
      .pure (List.forall_mem_cons.mpr ⟨hw, hws⟩)

theorem ends_anyItem {vs : List Value} (h : ∀ v ∈ vs, Ends (fun _ => True) (t v)) :
    Ends (fun _ => True) (anyItem t vs) := by
  induction vs with
  | nil => exact .pure trivial
  | cons v vs ih =>
    obtain ⟨hv, h⟩ := List.forall_mem_cons.mp h
    refine .bind hv fun pass _ => ?_
    cases pass with
    | true => exact .pure trivial
    | false => exact ih h

theorem ends_test {call : Caller} {b : Builtin} {code : Code} {v : Value} {post : Value → Prop}
    (h : Ends post (call code [v])) : Ends (fun _ => True) (test call b code v) := by
  refine .bind h fun w _ => ?_
  cases w with
  | bool answer => exact .pure trivial
  | _ => exact .fail

theorem mem_of_mem_distinctFrom {vs kept : List Value} {v : Value} (h : v ∈ distinctFrom kept vs) :
    v ∈ kept ∨ v ∈ vs := by
  induction vs generalizing kept with
  | nil => exact .inl h
  | cons w vs ih =>
    obtain h | h := ih h
    · split at h
      · exact .inl h
      · obtain h | h := List.mem_append.mp h
        · exact .inl h
        · exact .inr (List.mem_cons.mpr (.inl (List.mem_singleton.mp h)))
    · exact .inr (List.mem_cons_of_mem w h)

theorem mem_of_mem_front {vs : List Value} {n : Int64} {v : Value} (h : v ∈ front vs n) :
    v ∈ vs := by
  rw [front] at h
  split at h <;> exact List.mem_of_mem_take h

section Expect

variable {b : Builtin} {index : Nat} {v : Value}

theorem ends_expectInt : Ends (fun _ => True) (expectInt b index v) := by
  cases v with
  | int n => exact .pure trivial
  | _ => exact .fail

theorem ends_expectString : Ends (fun _ => True) (expectString b index v) := by
  cases v with
  | string s => exact .pure trivial
  | _ => exact .fail

theorem ends_expectList : Ends (fun vs => v = .list vs) (expectList b index v) := by
  cases v with
  | list vs => exact .pure rfl
  | _ => exact .fail

theorem ends_expectCallable :
    Ends (fun code => ∃ i, v = .callable i code) (expectCallable b index v) := by
  cases v with
  | callable i code => exact .pure ⟨i, rfl⟩
  | _ => exact .fail

end Expect

/-- The functions that call a callable, their second argument. -/
def callers : List Builtin := [filter, map, some]

section Arguments

variable {Q : Prop} {call : Caller} {args : List Value}

/-- An argument that is a list holds no callable. -/
theorem inert_items (hargs : Q → ∀ v ∈ args, v.Inert ∨ ∃ i code, v = .callable i code)
    {vs : List Value} (hvs : .list vs ∈ args) : ∀ v ∈ vs, Q → v.Inert := by
  intro v hv hq
  obtain h | ⟨i, code, h⟩ := hargs hq _ hvs
  · exact h.items v hv
  · cases h

/-- An argument that is a map holds no callable. -/
theorem inert_entries (hargs : Q → ∀ v ∈ args, v.Inert ∨ ∃ i code, v = .callable i code)
    {es : List (MapKey × Value)} (hes : .map es ∈ args) : ∀ e ∈ es, Q → e.2.Inert := by
  intro e he hq
  obtain h | ⟨i, code, h⟩ := hargs hq _ hes
  · exact h.entries e he
  · cases h

variable {v f : Value}
  (hargs : Q → ∀ w ∈ [v, f], w.Inert ∨ ∃ i code, w = .callable i code)
  (hcall : ∀ i code, f = .callable i code → ∀ w, (Q → w.Inert) →
    Ends (fun a => Q → a.Inert) (call code [w]))

include hargs hcall

theorem ends_filter : Ends (fun a => Q → a.Inert) (filter.run call [v, f]) := by
  refine .bind ends_expectCallable fun code hcode => ?_
  obtain ⟨i, rfl⟩ := hcode
  have htest : ∀ w, (Q → w.Inert) → Ends (fun _ => True) (test call filter code w) := fun w hw =>
    ends_test (hcall i code rfl w hw)
  cases v with
  | list vs =>
    have hvs := inert_items hargs List.mem_cons_self
    exact .bind (ends_keepItems fun w hw => htest w (hvs w hw)) fun ws hws =>
      .pure fun hq => .list fun w hw => hvs w (hws w hw) hq
  | map es =>
    have hes := inert_entries hargs List.mem_cons_self
    exact .bind (ends_keepEntries fun e he => htest e.2 (hes e he)) fun ws hws =>
      .pure fun hq => .map fun w hw => hes w (hws w hw) hq
  | _ => exact .fail

theorem ends_map : Ends (fun a => Q → a.Inert) (map.run call [v, f]) := by
  refine .bind ends_expectCallable fun code hcode => ?_
  obtain ⟨i, rfl⟩ := hcode
  have himage := hcall i code rfl
  cases v with
  | list vs =>
    have hvs := inert_items hargs List.mem_cons_self
    exact .bind (ends_mapItems fun w hw => himage w (hvs w hw)) fun ws hws =>
      .pure fun hq => .list fun w hw => hws w hw hq
  | map es =>
    have hes := inert_entries hargs List.mem_cons_self
    exact .bind (ends_mapEntries fun e he => himage e.2 (hes e he)) fun ws hws =>
      .pure fun hq => .map fun w hw => hws w hw hq
  | _ => exact .fail

theorem ends_some : Ends (fun a => Q → a.Inert) (some.run call [v, f]) := by
  refine .bind ends_expectList fun vs hvs => ?_
  subst hvs
  refine .bind ends_expectCallable fun code hcode => ?_
  obtain ⟨i, rfl⟩ := hcode
  have hvs := inert_items hargs List.mem_cons_self
  exact .bind (ends_anyItem fun w hw => ends_test (hcall i code rfl w (hvs w hw))) fun _ _ =>
    .pure fun _ => .bool

end Arguments

/-- **A built-in function ends** when the calls of its second argument do.  Under the assumption `Q`
no callable is inside the arguments nor comes back from those calls; then none comes out. -/
theorem ends_run {Q : Prop} {call : Caller} {b : Builtin} {args : List Value}
    (hargs : Q → ∀ v ∈ args, v.Inert ∨ ∃ i code, v = .callable i code)
    (hcall : b ∈ callers → ∀ v i code, args = [v, .callable i code] → ∀ w, (Q → w.Inert) →
      Ends (fun a => Q → a.Inert) (call code [w])) :
    Ends (fun a => Q → a.Inert) (b.run call args) := by
  cases b with
  | contains =>
    rcases args with _ | ⟨collection, _ | ⟨v, _ | _⟩⟩
    case cons.cons.nil =>
      cases collection with
      | list | map => exact .pure fun _ => .bool
      | _ => exact .fail
    all_goals exact .fail
  | count =>
    rcases args with _ | ⟨collection, _ | _⟩
    case cons.nil =>
      cases collection with
      | list | map => exact .pure fun _ => .int
      | _ => exact .fail
    all_goals exact .fail
  | filter =>
    rcases args with _ | ⟨collection, _ | ⟨f, _ | _⟩⟩
    case cons.cons.nil =>
      exact ends_filter hargs fun i code hf => hcall (by decide) collection i code (hf ▸ rfl)
    all_goals exact .fail
  | isSome =>
    rcases args with _ | ⟨v, _ | _⟩
    case cons.nil => cases v <;> exact .pure fun _ => .bool
    all_goals exact .fail
  | map =>
    rcases args with _ | ⟨collection, _ | ⟨f, _ | _⟩⟩
    case cons.cons.nil =>
      exact ends_map hargs fun i code hf => hcall (by decide) collection i code (hf ▸ rfl)
    all_goals exact .fail
  | some =>
    rcases args with _ | ⟨list, _ | ⟨f, _ | _⟩⟩
    case cons.cons.nil =>
      exact ends_some hargs fun i code hf => hcall (by decide) list i code (hf ▸ rfl)
    all_goals exact .fail
  | substr =>
    rcases args with _ | ⟨text, _ | ⟨start, _ | ⟨amount, _ | _⟩⟩⟩
    case cons.cons.cons.nil =>
      exact .bind ends_expectString fun s _ => .bind ends_expectInt fun start _ =>
        .bind ends_expectInt fun amount _ => .pure fun _ => .string
    all_goals exact .fail
  | take =>
    rcases args with _ | ⟨list, _ | ⟨n, _ | _⟩⟩
    case cons.cons.nil =>
      refine .bind ends_expectList fun vs hvs => .bind ends_expectInt fun n _ => .pure fun hq => ?_
      subst hvs
      exact .list fun w hw => inert_items hargs List.mem_cons_self w (mem_of_mem_front hw) hq
    all_goals exact .fail
  | unique =>
    rcases args with _ | ⟨list, _ | _⟩
    case cons.nil =>
      refine .bind ends_expectList fun vs hvs => .pure fun hq => ?_
      subst hvs
      refine .list fun w hw => ?_
      have hmem := (mem_of_mem_distinctFrom hw).resolve_left List.not_mem_nil
      exact inert_items hargs List.mem_cons_self w hmem hq
    all_goals exact .fail

end Builtin

end Ascription
