import Ascription.Proofs.Expr.Decidable
import Ascription.Proofs.Expr.StaticType
import Ascription.Proofs.Parser.TwoPass
import Ascription.Proofs.Rule

/-!
# Proofs/Expr/WellTyped — what is accepted is well typed

    types of the parts while reading ──rules──▸ Ruled ──▸ WellTyped ◂──type?── finished tree

The rules judge types that the parser computes on its way, `type?` computes the types of a finished
tree.  At every node, lambda bodies included, the second finds what the first have accepted, and no
lambda stands where a type is needed.
-/

namespace Ascription

open Phrase

/-- **What an operator takes**, on the types of its sides. -/
def BinaryOp.Takes (left right : Ty) : BinaryOp → Prop
  | eq => right.equal left = true
  | or => left.isBool = true ∧ right.isBool = true
  | gt | subtract => left.isNumeric = true ∧ right.isNumeric = true ∧ right.equal left = true

namespace Parser

theorem operatorRule_eq_ok {op : BinaryOp} {left right : Typed} :
    operatorRule op left right = .ok () ↔ op.Takes left.type right.type := by
  cases op with
  | eq => exact Rule.expectEqual_eq_ok
  | or => exact Rule.disjunction_eq_ok
  | gt | subtract => exact Rule.arithmetic_eq_ok

end Parser

namespace Expr

/-- **The static types of the parts of a node obey its rule**, and an index has the type its rule
gives. -/
def WellTyped : Expr → Prop
  | get _ _ _ | literal _ _ | call _ _ _ _ _ | lambda _ _ _ | list _ [] => True
  | binary _ op left right =>
    ∃ l r, left.type? = some l ∧ right.type? = some r ∧ op.Takes l r
  | negative _ operand => ∃ t, operand.type? = some t ∧ t.isNumeric = true
  | list _ (first :: others) =>
    ∃ t, first.type? = some t ∧ ∀ e ∈ others, ∃ s, e.type? = some s ∧ s.isSubtype t = true
  | struct _ fields => (fields.map Prod.fst).Nodup ∧ ∀ f ∈ fields, ∃ t, f.2.type? = some t
  | field _ target name type =>
    ∃ t, target.type? = some t ∧ ∀ fields, t.fields? = some fields → fields.lookup name = some type
  | offset span target key =>
    ∃ t k element, target.type? = some t ∧ key.type? = some k ∧
      ((t.canonical = .list element ∧ k.equal .int = true) ∨
        ∃ k', t.canonical = .map k' element ∧ k.equal k' = true) ∧
      (offset span target key).type? = some element ∧
      Rule.offsetType ⟨t, target.span⟩ ⟨k, key.span⟩ = .ok element

/-- What the rules accept is well typed. -/
theorem Ruled.wellTyped {T : Ty → Prop} {e : Expr} (h : e.Ruled T) : e.WellTyped := by
  cases e with
  | get | literal | call | lambda => trivial
  | binary span op left right =>
    obtain ⟨x, y, hx, hy, hrule⟩ := Parser.joinRule_eq_ok.mp h
    exact ⟨x.type, y.type, (typed_eq_ok.mp hx).1, (typed_eq_ok.mp hy).1,
      Parser.operatorRule_eq_ok.mp hrule⟩
  | negative span operand =>
    obtain ⟨x, hx, hrule⟩ := Parser.negationRule_eq_ok.mp h
    exact ⟨x.type, (typed_eq_ok.mp hx).1, Rule.expectNumeric_eq_ok.mp hrule⟩
  | list span items =>
    cases items with
    | nil => trivial
    | cons first others =>
      obtain ⟨t, ht, helements⟩ := Parser.listRule_cons_eq_ok.mp h
      refine ⟨t, staticType_eq_ok.mp ht, fun e he => ?_⟩
      obtain ⟨x, hx, hsub⟩ := elementRule_eq_ok.mp helements e he
      exact ⟨x.type, (typed_eq_ok.mp hx).1, Rule.listElement_eq_ok.mp hsub⟩
  | struct span fields =>
    refine ⟨h.1, fun f hf => ?_⟩
    obtain ⟨x, hx⟩ := h.2 f hf
    exact ⟨x.type, (typed_eq_ok.mp hx).1⟩
  | field span target name type =>
    obtain ⟨ascribed, at', -, hrule⟩ := h
    obtain ⟨t, ht, hrule⟩ := Parser.fieldRule_eq_ok.mp hrule
    exact ⟨t, staticType_eq_ok.mp ht, fun fields hfields => Rule.fieldType_eq_ok hfields hrule⟩
  | offset span target key =>
    obtain ⟨element, hrule⟩ := h
    obtain ⟨⟨t, s⟩, ⟨k, s'⟩, hx, hy, hrule⟩ := Parser.offsetRule_eq_ok.mp hrule
    obtain ⟨ht, rfl⟩ := typed_eq_ok.mp hx
    obtain ⟨hk, rfl⟩ := typed_eq_ok.mp hy
    have hr := Rule.offsetType_eq_ok.mp hrule
    have hc : elementType t = element := by
      obtain ⟨hc, -⟩ | ⟨k', hc, -⟩ := hr <;> rw [elementType, hc]
    refine ⟨t, k, element, ht, hk, hr, ?_, hrule⟩
    rw [type?, ht, Option.map_some, hc]

end Expr

open Ascription.Expr

/-- **Every node of an accepted text has obeyed its rule**, whatever holds of the types that the
registry resolves and the declarations hold. -/
theorem ruled_of_parseWith {T : Ty → Prop} {source : String} {r : Registry} {ds : Declarations}
    {e : Expr} (h : parseWith source r ds = .ok e) (hr : ∀ {w t}, r.resolve w = .ok t → T t)
    (hd : ∀ d ∈ ds, T d.type) : Everywhere (Ruled T) e := by
  obtain ⟨⟨e, ds'⟩, hp, rfl⟩ := Except.map_eq_ok.mp h
  obtain ⟨tokens, -, u, -, hu⟩ := parseProgram_eq_ok.mp hp
  exact (elaborate_ruled hr u hd hu).1

/-- **What is accepted is well typed**: every expression in it but the lambdas has a static type,
and every node obeys its rule on the static types of its parts. -/
theorem parseWith_well_typed {source : String} {r : Registry} {ds : Declarations} {e : Expr}
    (h : parseWith source r ds = .ok e) {n : Expr} (hn : Within n e) :
    (n.form ≠ .lambda → ∃ t, n.type? = some t) ∧ n.WellTyped := by
  have hruled : n.Ruled fun _ => True :=
    ruled_of_parseWith h (fun _ => trivial) (fun _ _ => trivial) n hn
  exact ⟨type?_isSome hruled, hruled.wellTyped⟩

/-- A comparison in the body of a lambda that is given to a call on a lambda. -/
theorem parseWith_well_typed_argument : ∃ e n,
    parseWith "(|x| x:int).twice:int(|y| y:int > 1) - 2" .initial [] = .ok e ∧ Within n e ∧
      n.form = .gt ∧ (n.form ≠ .lambda → ∃ t, n.type? = some t) ∧ n.WellTyped := by
  have h : parseWith "(|x| x:int).twice:int(|y| y:int > 1) - 2" .initial [] =
      .ok (.binary ⟨⟨1, 2⟩, ⟨1, 41⟩⟩ .subtract
        (.call ⟨⟨1, 2⟩, ⟨1, 37⟩⟩
          (.lambda ⟨⟨1, 2⟩, ⟨1, 11⟩⟩ ["x"] (.get ⟨⟨1, 6⟩, ⟨1, 11⟩⟩ "x" .int)) "twice" .int
          [.lambda ⟨⟨1, 23⟩, ⟨1, 36⟩⟩ ["y"] (.binary ⟨⟨1, 27⟩, ⟨1, 36⟩⟩ .gt
            (.get ⟨⟨1, 27⟩, ⟨1, 32⟩⟩ "y" .int) (.literal ⟨⟨1, 35⟩, ⟨1, 36⟩⟩ (.int 1)))])
        (.literal ⟨⟨1, 40⟩, ⟨1, 41⟩⟩ (.int 2))) := by
    decide +kernel
  refine ⟨_, .binary ⟨⟨1, 27⟩, ⟨1, 36⟩⟩ .gt (.get ⟨⟨1, 27⟩, ⟨1, 32⟩⟩ "y" .int)
    (.literal ⟨⟨1, 35⟩, ⟨1, 36⟩⟩ (.int 1)), h, ?within, rfl, parseWith_well_typed h ?within⟩
  -- Into the call, into its argument, and into the body of that.
  exact .part List.mem_cons_self
    (.part (List.mem_cons_of_mem _ List.mem_cons_self) (.part List.mem_cons_self .refl))

end Ascription
