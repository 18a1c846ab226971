import Ascription.Lowering.Rust
import Ascription.Proofs.Except
import Ascription.Proofs.Expr.Within

/-!
# Proofs/Lowering — the check before writing and the writing itself

    preorder e :  e, then the nodes of its parts from left to right

The check looks for the first node in pre-order whose form is not supported, whether it goes by the
structure of the expression or keeps a stack of the nodes to come.  The writer meets the nodes in
the same order and stops at the first struct literal, so it refuses what the check refuses, with
the same error.
-/

namespace Ascription

namespace Expr

/-! ## Pre-order -/

/-- **The nodes of an expression in pre-order**: the expression, then those of its parts from left
to right. -/
def preorder (e : Expr) : List Expr :=
  e :: e.children.attach.flatMap fun c => preorder c.1
termination_by sizeOf e
decreasing_by exact sizeOf_lt_of_mem_children c.2

theorem preorder_eq (e : Expr) : e.preorder = e :: e.children.flatMap preorder := by
  rw [preorder, List.flatMap_subtype fun _ _ => rfl, List.unattach_attach]

/-- The nodes in pre-order are all that stands within the expression. -/
theorem mem_preorder {n e : Expr} : n ∈ e.preorder ↔ Within n e := by
  induction e using children_induction with
  | h e ih =>
  rw [preorder_eq, List.mem_cons, List.mem_flatMap]
  constructor
  · rintro (rfl | ⟨c, hc, hn⟩)
    · exact .refl
    · exact .part hc ((ih c hc).mp hn)
  · rintro (_ | ⟨hc, hn⟩)
    · exact .inl rfl
    · exact .inr ⟨_, hc, (ih _ hc).mpr hn⟩

/-! ## The first node of another form -/

section

variable {forms : List Form}

theorem firstOutsideFields_eq {fs : List (String × Expr)} :
    firstOutsideFields forms fs = firstOutsideAll forms (fs.map Prod.snd) := by
  induction fs with
  | nil => rfl
  | cons f fs ih => rw [firstOutsideFields, ih, List.map_cons, firstOutsideAll]

/-- A node comes before its parts. -/
theorem firstOutside_eq {e : Expr} : firstOutside forms e =
    if forms.contains e.form then firstOutsideAll forms e.children else some e := by
  cases e with
  | get | literal | call | list => rfl
  | struct => rw [firstOutside, firstOutsideFields_eq, form, children]
  | binary | negative | lambda | field | offset =>
    simp only [firstOutside, form, children, firstOutsideAll, Option.or_none]

theorem firstOutsideAll_eq_find? {es : List Expr}
    (h : ∀ e ∈ es, firstOutside forms e = e.preorder.find? fun n => !forms.contains n.form) :
    firstOutsideAll forms es = (es.flatMap preorder).find? fun n => !forms.contains n.form := by
  induction es with
  | nil => rfl
  | cons e es ih =>
    obtain ⟨he, hes⟩ := List.forall_mem_cons.mp h
    rw [firstOutsideAll, he, ih hes, List.flatMap_cons, List.find?_append]

/-- **The check finds the first node in pre-order** of another form. -/
theorem firstOutside_eq_find? (e : Expr) :
    firstOutside forms e = e.preorder.find? fun n => !forms.contains n.form := by
  induction e using children_induction with
  | h e ih =>
  rw [firstOutside_eq, firstOutsideAll_eq_find? ih, preorder_eq, List.find?_cons]
  cases forms.contains e.form <;> rfl

/-- **The check with a stack**: the node on top is looked at and replaced by its parts, the first
of them on top. -/
def firstOutsideStack (forms : List Form) : List Expr → Option Expr
  | [] => none
  | e :: stack =>
    if forms.contains e.form then firstOutsideStack forms (e.children ++ stack) else some e
termination_by stack => (stack.flatMap preorder).length
decreasing_by simp [preorder_eq e]

theorem firstOutsideStack_eq_find? (stack : List Expr) : firstOutsideStack forms stack =
    (stack.flatMap preorder).find? fun n => !forms.contains n.form := by
  fun_induction firstOutsideStack with
  | case1 => rfl
  | case2 e stack h ih =>
    rw [ih, List.flatMap_append, List.flatMap_cons, preorder_eq e, List.cons_append,
      List.find?_cons, h]
    rfl
  | case3 e stack h =>
    rw [List.flatMap_cons, preorder_eq e, List.cons_append, List.find?_cons,
      Bool.eq_false_iff.mpr h]
    rfl

/-- The stack and the structure of the expression lead to the same node. -/
theorem firstOutside_eq_stack {e : Expr} :
    firstOutside forms e = firstOutsideStack forms [e] := by
  rw [firstOutside_eq_find?, firstOutsideStack_eq_find?, List.flatMap_singleton]

end

end Expr

/-! ## Any backend

A backend whose name and forms are given and whose writing is left open: what lowering does without
looking at the writing is what it does for every writing. -/

section

open Ascription.Expr (Within firstOutsideStack firstOutsideStack_eq_find? firstOutside_eq_stack
  mem_preorder)

variable {forms : List Form} {e n : Expr}

/-- Nothing is found when every node within the expression has one of the forms. -/
theorem Expr.firstOutsideStack_eq_none :
    firstOutsideStack forms [e] = none ↔ ∀ n, Within n e → n.form ∈ forms := by
  rw [firstOutsideStack_eq_find?, List.flatMap_singleton, List.find?_eq_none]
  simp only [mem_preorder, Bool.not_eq_true', Bool.not_eq_false, List.contains_iff_mem]

/-- What is found comes first in pre-order among the nodes of another form. -/
theorem Expr.firstOutsideStack_eq_some : firstOutsideStack forms [e] = some n ↔
    n.form ∉ forms ∧ ∃ before after, e.preorder = before ++ n :: after ∧
      ∀ m ∈ before, m.form ∈ forms := by
  rw [firstOutsideStack_eq_find?, List.flatMap_singleton, List.find?_eq_some_iff_append]
  simp only [Bool.not_not, Bool.not_eq_true', List.contains_iff_mem, ← Bool.not_eq_true]

/-- Lowering goes by what the check with a stack finds. -/
theorem lower_eq_stack {α : Type} {backend : Backend α} : lower backend e =
    match firstOutsideStack backend.supported [e] with
    | some node => .error ⟨backend.name, node.form, node.span⟩
    | none => backend.emit e := by
  cases hfound : firstOutsideStack backend.supported [e] with
  | none => simp only [lower, firstOutside_eq_stack, hfound]
  | some node => simp only [lower, firstOutside_eq_stack, hfound]

/-- **Lowering looks before it writes.** The backend gets to write exactly when every node within
the expression has a form that it supports; otherwise the node of another form that comes first in
pre-order is refused, whatever the backend would write. -/
theorem lower_reports_first (name : String) (forms : List Form) (e : Expr) :
    ((∀ (α : Type) (emit : Expr → Except LowerError α), lower ⟨name, forms, emit⟩ e = emit e) ↔
      ∀ n, Within n e → n.form ∈ forms) ∧
    ((∃ n, Within n e ∧ n.form ∉ forms) →
      ∃ before n after, e.preorder = before ++ n :: after ∧ (∀ m ∈ before, m.form ∈ forms) ∧
        n.form ∉ forms ∧
        ∀ (α : Type) (emit : Expr → Except LowerError α),
          lower ⟨name, forms, emit⟩ e = .error ⟨name, n.form, n.span⟩) := by
  cases hfound : firstOutsideStack forms [e] with
  | none =>
    have hall := Expr.firstOutsideStack_eq_none.mp hfound
    refine ⟨⟨fun _ => hall, fun _ α emit => ?_⟩, fun ⟨n, hn, hform⟩ => absurd (hall n hn) hform⟩
    rw [lower_eq_stack, hfound]
  | some n =>
    obtain ⟨hform, before, after, heq, hbefore⟩ := Expr.firstOutsideStack_eq_some.mp hfound
    have hrefused (α : Type) (emit : Expr → Except LowerError α) :
        lower ⟨name, forms, emit⟩ e = .error ⟨name, n.form, n.span⟩ := by
      rw [lower_eq_stack, hfound]
    have hn : Within n e := mem_preorder.mp (by simp [heq])
    refine ⟨⟨fun hwrites => ?_, fun hall => absurd (hall n hn) hform⟩,
      fun _ => ⟨before, n, after, heq, hbefore, hform, hrefused⟩⟩
    -- a backend that never refuses tells refusing from writing
    exact nomatch (hrefused Unit fun _ => .ok ()).symm.trans (hwrites Unit fun _ => .ok ())

/-- A struct literal in the body of a lambda comes before the negation in its field and the index
behind it. -/
theorem lower_reports_first_lambda :
    let record : Expr := .struct ⟨⟨1, 16⟩, ⟨1, 28⟩⟩
      [("a", .negative ⟨⟨1, 20⟩, ⟨1, 27⟩⟩ (.get ⟨⟨1, 22⟩, ⟨1, 27⟩⟩ "x" .int))]
    let lambda : Expr := .lambda ⟨⟨1, 12⟩, ⟨1, 28⟩⟩ ["x"] record
    let e : Expr := .call ⟨⟨1, 1⟩, ⟨1, 36⟩⟩ (.list ⟨⟨1, 1⟩, ⟨1, 3⟩⟩ []) "map" .any
      [lambda, .offset ⟨⟨1, 30⟩, ⟨1, 35⟩⟩ (.list ⟨⟨1, 30⟩, ⟨1, 32⟩⟩ [])
        (.literal ⟨⟨1, 33⟩, ⟨1, 34⟩⟩ (.int 0))]
    let forms := [Form.get, .call, .lambda, .list]
    (∃ n, Within n e ∧ n.form ∉ forms) ∧
      ∃ before n after, e.preorder = before ++ n :: after ∧ (∀ m ∈ before, m.form ∈ forms) ∧
        n.form ∉ forms ∧
        ∀ (α : Type) (emit : Expr → Except LowerError α),
          lower ⟨"lists", forms, emit⟩ e = .error ⟨"lists", n.form, n.span⟩ := by
  intro record lambda e forms
  have hbody : Within record lambda := .part List.mem_cons_self .refl
  have hargs : lambda ∈ e.children := List.mem_cons_of_mem _ List.mem_cons_self
  have houtside : ∃ n, Within n e ∧ n.form ∉ forms := ⟨record, .part hargs hbody, by decide⟩
  exact ⟨houtside, (lower_reports_first "lists" forms e).2 houtside⟩

end

/-! ## Writing Rust -/

namespace Rust

open Ascription.Expr (Within firstOutside firstOutsideAll mem_preorder firstOutside_eq_find?)

/-- The error for a node that cannot be written. -/
def refusal (n : Expr) : LowerError := ⟨name, n.form, n.span⟩

mutual

/-- **The writer refuses at the first struct literal.** -/
theorem error?_emit : ∀ e : Expr,
    Except.error? (emit e) = (firstOutside supported e).map refusal
  | .get _ _ _ | .literal _ _ | .struct _ _ => rfl
  | .binary _ op l r => by
    have hform : supported.contains op.form = true := by cases op <;> rfl
    rw [firstOutside, if_pos hform, Option.map_or, ← error?_emit l, ← error?_emit r]
    exact Except.error?_bind fun _ => Except.error?_ok
  | .negative _ e => Except.error?_ok.trans (error?_emit e)
  | .call _ t _ _ as => by
    change _ = ((firstOutside supported t).or (firstOutsideAll supported as)).map refusal
    rw [Option.map_or, ← error?_emit t, ← error?_emitAll as]
    exact Except.error?_bind fun _ => Except.error?_ok
  | .lambda _ _ b => Except.error?_ok.trans (error?_emit b)
  | .list _ es => Except.error?_ok.trans (error?_emitAll es)
  | .field _ t _ _ => Except.error?_ok.trans (error?_emit t)
  | .offset _ t k => by
    change _ = ((firstOutside supported t).or (firstOutside supported k)).map refusal
    rw [Option.map_or, ← error?_emit t, ← error?_emit k]
    refine Except.error?_bind fun _ => ?_
    cases isMap t <;> exact Except.error?_ok

theorem error?_emitAll (es : List Expr) :
    Except.error? (emitAll es) = (firstOutsideAll supported es).map refusal := by
  cases es with
  | nil => rfl
  | cons e es =>
    rw [firstOutsideAll, Option.map_or, ← error?_emit e, ← error?_emitAll es]
    exact Except.error?_bind fun _ => Except.error?_ok

end

/-- Only struct literals are not supported. -/
theorem firstOutside_supported (e : Expr) :
    firstOutside supported e = e.preorder.find? fun n => n.form == .struct := by
  have hform : ∀ form : Form, (!supported.contains form) = (form == .struct) := by
    rintro (_ | _) <;> rfl
  simp only [firstOutside_eq_find?, hform]

/-- **Checked and direct lowering agree**: they write the same text where no struct literal stands
in the expression, and otherwise refuse the first one in pre-order. -/
theorem lower_eq_emit (e : Expr) :
    lower backend e = emit e ∧
      match e.preorder.find? fun n => n.form == .struct with
      | none => (∀ n, Within n e → n.form ≠ .struct) ∧ ∃ text, emit e = .ok text
      | some n => n.form = .struct ∧ emit e = .error ⟨"rust", .struct, n.span⟩ := by
  have herror := error?_emit e
  rw [firstOutside_supported] at herror
  rw [lower, show backend.supported = supported from rfl, firstOutside_supported]
  cases hfound : e.preorder.find? fun n => n.form == .struct with
  | none =>
    rw [hfound, Option.map_none, Except.error?_eq_none] at herror
    refine ⟨rfl, fun n hn => ?_, herror⟩
    simpa using List.find?_eq_none.mp hfound n (mem_preorder.mpr hn)
  | some n =>
    have hform : n.form = .struct := by simpa using List.find?_some hfound
    rw [hfound, Option.map_some, Except.error?_eq_some] at herror
    rw [refusal, hform] at herror
    refine ⟨?_, hform, herror⟩
    change Except.error (⟨name, n.form, n.span⟩ : LowerError) = emit e
    rw [hform, herror]

end Rust

end Ascription
