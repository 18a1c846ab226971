import Ascription.Proofs.Parser.Complete

/-!
# Proofs/Parser/Complete/Expr — a phrase is read as an expression

An expression is read up to what can stand behind one (`Place.atEnd`), an operand up to that or an
operator, a primary up to that or a step.
-/

namespace Ascription

open Phrase Grammar

/-- An expression up to what can stand behind one. -/
def Ended (c : Place) (u : Phrase) (c' : Place) : Prop := Expression c u c' ∧ c'.atEnd = true

namespace Place

theorem next_ne_of_behindPrimary {c : Place} (h : c.behindPrimary = true) :
    c.next ≠ some (.punct .colon) ∧ c.next ≠ some (.punct .leftParen) := by
  constructor <;>
  · intro hc
    simp [behindPrimary, behindOperand, atEnd, atOperator, atStep, Parser.operator?, hc] at h

end Place

namespace Grammar

variable {r : Registry} {ds₀ : Declarations}

/-- If the second pass succeeds behind a step, it succeeds before it. -/
theorem Step.elaborate_target {target u : Phrase} {c c' : Place} {x : Expr × Declarations}
    (h : Step target c u c') (he : elaborate r u ds₀ = .ok x) :
    ∃ a ds, elaborate r target ds₀ = .ok (a, ds) := by
  cases h with
  | field =>
    obtain ⟨a, _, _, h, -⟩ := elaborate_field.mp he
    exact ⟨a, _, h⟩
  | annotated =>
    obtain ⟨a, _, _, h, -⟩ := elaborate_field.mp he
    exact ⟨a, _, h⟩
  | call =>
    obtain ⟨a, ds, _, _, h, -⟩ := elaborate_call.mp he
    exact ⟨a, ds, h⟩
  | offset =>
    obtain ⟨a, ds, _, _, h, -⟩ := elaborate_offset.mp he
    exact ⟨a, ds, h⟩

theorem Steps.elaborate_target : ∀ {target c u c'}, Steps target c u c' →
    ∀ {x}, elaborate r u ds₀ = .ok x → ∃ a ds, elaborate r target ds₀ = .ok (a, ds)
  | _, _, _, _, .nil, _, he => ⟨_, _, he⟩
  | _, _, _, _, .cons step others, _, he => by
      obtain ⟨_, _, h⟩ := others.elaborate_target he
      exact step.elaborate_target h
termination_by structural _ _ _ _ h => h

/-- …and so for the operators behind an operand. -/
theorem Operators.elaborate_left : ∀ {left c u c'}, Operators left c u c' →
    ∀ {x}, elaborate r u ds₀ = .ok x → ∃ a ds, elaborate r left ds₀ = .ok (a, ds)
  | _, _, _, _, .nil, _, he => ⟨_, _, he⟩
  | _, _, _, _, .cons _ _ others, _, he => by
      obtain ⟨_, _, h⟩ := others.elaborate_left he
      obtain ⟨a, ds, _, h, -⟩ := elaborate_binary.mp h
      exact ⟨a, ds, h⟩
termination_by structural _ _ _ _ h => h

end Grammar

namespace Parser

variable {r : Registry} {expr : Parser Expr} {n : Nat}

section Parts

variable (h : Complete n Ended (elaborate r) expr)

include h

/-- **A list of expressions is read.** -/
theorem exprs_complete {close : Punct} (hclose : closes close = true) :
    Complete n (Closed Expression close) (each (fun _ => elaborate r) [])
      (items (fun _ => expr) close) := by
  have hitem : Complete n (fun c u c' => Expression c u c' ∧ atMark close c') (elaborate r) expr :=
    h.imp fun hu => ⟨hu.1, atEnd_of_atMark hclose hu.2⟩
  refine items_complete (f := fun _ => elaborate r) ?_ (fun hu => hu.opens ?_) Expression.shorter
    fun _ => hitem
  all_goals cases close <;> first | decide | cases hclose

theorem fieldLiteral_complete (done : List (String × Expr)) :
    Complete (n + 1) (fun c x c' => Field c x c' ∧ atMark .rightBrace c') (elaborateField r done)
      (fieldLiteral expr done) := by
  rintro _ _ _ ⟨⟨hv⟩, hmark⟩ hn ds x ds' he
  obtain ⟨hc, e, t, hv', ht, rfl⟩ := elaborateField_eq_ok.mp he
  simp at hn
  refine bind_eq_done.mpr ⟨_, _, expectName_state, ?_⟩
  simp only [hc, Bool.false_eq_true, if_false]
  refine bind_eq_done.mpr ⟨_, _, expect_state, ?_⟩
  refine bind_eq_done.mpr ⟨_, _, h ⟨hv, atEnd_of_atMark rfl hmark⟩ (by simp; omega) hv', ?_⟩
  exact bind_eq_done.mpr ⟨_, _, typed_eq_done.mpr ⟨ht, rfl⟩, rfl⟩

/-- **An innermost expression of the grammar is read.** -/
theorem primary_complete :
    Complete (n + 1) (fun c u c' => Primary c u c' ∧ c'.behindPrimary = true) (elaborate r)
      (primary r expr) := by
  rintro c u c' ⟨hu, hend⟩ hn ds a ds' he
  refine bind_eq_done.mpr ⟨_, _, peek_state, ?_⟩
  cases hu with
  | int | float | string =>
    obtain ⟨rfl, rfl⟩ := elaborate_literal.mp he
    exact bind_eq_done.mpr ⟨_, _, advance_state, rfl⟩
  | name =>
    obtain ⟨d, hd, rfl, rfl⟩ := elaborate_reference.mp he
    refine bind_eq_done.mpr ⟨_, _, expectName_state, ?_⟩
    refine bind_eq_done.mpr ⟨_, _, accept_state_of_ne (Place.next_ne_of_behindPrimary hend).1, ?_⟩
    refine bind_eq_done.mpr ⟨_, _, state_eq_done.mpr ⟨rfl, rfl⟩, ?_⟩
    simp [Place.state, hd]
    rfl
  | annotated type =>
    obtain ⟨t, t', hr, ht, rfl, rfl⟩ := elaborate_annotated.mp he
    refine bind_eq_done.mpr ⟨_, _, expectName_state, ?_⟩
    refine bind_eq_done.mpr ⟨_, _, accept_state, ?_⟩
    refine bind_eq_done.mpr ⟨_, _, type_complete type (Nat.lt_succ_self _)
      (resolved_eq_ok.mpr ⟨hr, rfl⟩), ?_⟩
    refine bind_eq_done.mpr ⟨_, _, previousSpan_state, ?_⟩
    refine bind_eq_done.mpr ⟨_, _, state_eq_done.mpr ⟨rfl, rfl⟩, ?_⟩
    exact bind_eq_done.mpr ⟨_, _, judge_ok ht, rfl⟩
  | lambda list body greedy =>
    obtain ⟨b, hb, rfl⟩ := elaborate_lambda.mp he
    have hle := list.shorter Name.shorter
    simp at hn hle
    refine bind_eq_done.mpr ⟨_, _, expect_state, ?_⟩
    refine bind_eq_done.mpr ⟨_, _, kept_complete (by decide) (fun h => h.opens _) Name.shorter
      expectName_complete ⟨_, _, _, list, rfl⟩ (Nat.lt_succ_self _) rfl, ?_⟩
    exact bind_eq_done.mpr ⟨_, _, h ⟨body, atEnd_of_settled greedy hend⟩ (by simp; omega) hb, rfl⟩
  | thunk body greedy =>
    obtain ⟨b, hb, rfl⟩ := elaborate_lambda.mp he
    simp at hn
    refine bind_eq_done.mpr ⟨_, _, expect_state, ?_⟩
    exact bind_eq_done.mpr ⟨_, _, h ⟨body, atEnd_of_settled greedy hend⟩ (by simp; omega) hb, rfl⟩
  | parens inner =>
    simp at hn
    refine bind_eq_done.mpr ⟨_, _, expect_state, ?_⟩
    refine bind_eq_done.mpr ⟨_, _, h ⟨inner, rfl⟩ (by simp; omega) he, ?_⟩
    exact bind_eq_done.mpr ⟨_, _, expect_state, rfl⟩
  | list list =>
    obtain ⟨es, hes, hrule, rfl⟩ := elaborate_list.mp he
    simp at hn
    refine bind_eq_done.mpr ⟨_, _, expect_state, ?_⟩
    refine bind_eq_done.mpr ⟨_, _, exprs_complete h rfl ⟨_, _, _, list, rfl⟩ (by simp; omega)
      (elaborateAll_eq_each.symm.trans hes), ?_⟩
    refine bind_eq_done.mpr ⟨(), _, checkElements_eq_done.mpr ⟨hrule, rfl⟩, ?_⟩
    exact bind_eq_done.mpr ⟨_, _, previousSpan_state, rfl⟩
  | struct list =>
    obtain ⟨fs, hfs, rfl⟩ := elaborate_struct.mp he
    simp at hn
    refine bind_eq_done.mpr ⟨_, _, expect_state, ?_⟩
    refine bind_eq_done.mpr ⟨_, _, items_complete (by decide) (fun h => h.opens _) Field.shorter
      (fieldLiteral_complete h) ⟨_, _, _, list, rfl⟩ (by simp; omega)
      (elaborateFields_eq_each.symm.trans hfs), ?_⟩
    exact bind_eq_done.mpr ⟨_, _, previousSpan_state, rfl⟩

/-! ## Steps -/

/-- **A step of the grammar is read**, behind the tree of its target. -/
theorem stepsFrom_step {target u : Phrase} {c c' : Place} (hu : Step target c u c')
    (hend : c'.behindPrimary = true) (hn : c.size < n + 1) {ds₀ ds ds' : Declarations} {e a : Expr}
    (het : elaborate r target ds₀ = .ok (e, ds)) (heu : elaborate r u ds₀ = .ok (a, ds'))
    (m : Nat) : stepsFrom r expr (m + 1) e (c.state ds) = stepsFrom r expr m a (c'.state ds') := by
  rw [stepsFrom, bind_done peek_state]
  cases hu with
  | field =>
    obtain ⟨e', t, t', he, ht, hrule, rfl⟩ := elaborate_field.mp heu
    cases het.symm.trans he
    cases ht
    refine bind_done (bind_eq_done.mpr ⟨_, _, expect_state, ?_⟩)
    refine bind_eq_done.mpr ⟨_, _, expectName_state, ?_⟩
    obtain ⟨hcolon, hparen⟩ := Place.next_ne_of_behindPrimary hend
    refine bind_eq_done.mpr ⟨false, _, looksAt_eq_done.mpr ⟨by simpa using hparen, rfl⟩, ?_⟩
    refine bind_eq_done.mpr ⟨_, _, accept_state_of_ne hcolon, ?_⟩
    refine bind_eq_done.mpr ⟨none, _, rfl, ?_⟩
    refine bind_eq_done.mpr ⟨_, _, looksAt_state, ?_⟩
    exact access_eq_done.mpr ⟨t', hrule, rfl, rfl⟩
  | annotated type =>
    obtain ⟨e', t, t', he, ht, hrule, rfl⟩ := elaborate_field.mp heu
    cases het.symm.trans he
    obtain ⟨t₀, hr, rfl⟩ := Except.map_eq_ok.mp ht
    refine bind_done (bind_eq_done.mpr ⟨_, _, expect_state, ?_⟩)
    refine bind_eq_done.mpr ⟨_, _, expectName_state, ?_⟩
    refine bind_eq_done.mpr ⟨_, _, looksAt_state, ?_⟩
    refine bind_eq_done.mpr ⟨_, _, accept_state, ?_⟩
    refine bind_eq_done.mpr ⟨_, _, map_eq_done.mpr ⟨t₀, type_complete type (Nat.lt_succ_self _)
      (resolved_eq_ok.mpr ⟨hr, rfl⟩), rfl⟩, ?_⟩
    have hparen := (Place.next_ne_of_behindPrimary hend).2
    refine bind_eq_done.mpr ⟨false, _, looksAt_eq_done.mpr ⟨by simpa using hparen, rfl⟩, ?_⟩
    exact access_eq_done.mpr ⟨t', hrule, rfl, rfl⟩
  | call type list =>
    obtain ⟨e', ds₁, t, es, he, hr, hes, rfl⟩ := elaborate_call.mp heu
    cases het.symm.trans he
    have hlt := type.shorter
    simp at hn hlt
    refine bind_done (bind_eq_done.mpr ⟨_, _, expect_state, ?_⟩)
    refine bind_eq_done.mpr ⟨_, _, expectName_state, ?_⟩
    refine bind_eq_done.mpr ⟨_, _, looksAt_state, ?_⟩
    refine bind_eq_done.mpr ⟨_, _, accept_state, ?_⟩
    refine bind_eq_done.mpr ⟨_, _, map_eq_done.mpr ⟨t, type_complete type (Nat.lt_succ_self _)
      (resolved_eq_ok.mpr ⟨hr, rfl⟩), rfl⟩, ?_⟩
    refine bind_eq_done.mpr ⟨true, _, looksAt_eq_done.mpr ⟨rfl, rfl⟩, ?_⟩
    refine bind_eq_done.mpr ⟨_, _, expect_state, ?_⟩
    refine bind_eq_done.mpr ⟨_, _, exprs_complete h rfl ⟨_, _, _, list, rfl⟩ (by simp; omega)
      (elaborateAll_eq_each.symm.trans hes), ?_⟩
    exact bind_eq_done.mpr ⟨_, _, previousSpan_state, rfl⟩
  | offset index =>
    obtain ⟨e', ds₁, k, t, he, hk, hrule, rfl⟩ := elaborate_offset.mp heu
    cases het.symm.trans he
    obtain ⟨tt, kt, htt, hkt, hrule⟩ := offsetRule_eq_ok.mp hrule
    simp at hn
    refine bind_done (bind_eq_done.mpr ⟨_, _, expect_state, ?_⟩)
    refine bind_eq_done.mpr ⟨_, _, h ⟨index, rfl⟩ (by simp; omega) hk, ?_⟩
    refine bind_eq_done.mpr ⟨_, _, expect_state, ?_⟩
    refine bind_eq_done.mpr ⟨_, _, typed_eq_done.mpr ⟨htt, rfl⟩, ?_⟩
    refine bind_eq_done.mpr ⟨_, _, typed_eq_done.mpr ⟨hkt, rfl⟩, ?_⟩
    exact bind_eq_done.mpr ⟨_, _, judge_ok hrule, rfl⟩

/-- The steps behind a target, up to what can stand behind an operand. -/
theorem stepsFrom_complete {ds₀ ds' : Declarations} {u : Phrase} {a : Expr} {c' : Place}
    (hend : c'.behindOperand = true) (heu : elaborate r u ds₀ = .ok (a, ds')) :
    ∀ m {target : Phrase} {c : Place}, Steps target c u c' → c.size < m → c.size < n + 1 →
      ∀ {e ds}, elaborate r target ds₀ = .ok (e, ds) →
        stepsFrom r expr m e (c.state ds) = .done a (c'.state ds')
  | 0, _, _, _, hm, _, _, _, _ => absurd hm (Nat.not_lt_zero _)
  | m + 1, target, c, hsteps, hm, hn, e, ds, het => by
      cases hsteps with
      | nil =>
        cases het.symm.trans heu
        exact stepsFrom_succ_of_not_atStep (Place.atStep_of_behindOperand hend)
      | cons step others =>
        obtain ⟨b, ds₁, heb⟩ := others.elaborate_target heu
        have hlt := step.shorter
        rw [stepsFrom_step h step (behindPrimary_of_steps others hend) hn het heb]
        exact stepsFrom_complete hend heu m others (by omega) (by omega) heb

/-! ## Operands and operators -/

theorem operandFrom_complete : ∀ m {c u c'}, Operand c u c' → c'.behindOperand = true →
    c.size < m → c.size < n + 1 → ∀ {ds a ds'}, elaborate r u ds = .ok (a, ds') →
      operandFrom r expr m (c.state ds) = .done a (c'.state ds')
  | 0, _, _, _, _, _, hm, _, _, _, _, _ => absurd hm (Nat.not_lt_zero _)
  | m + 1, c, u, c', hu, hend, hm, hn, ds, a, ds', he => by
      cases hu with
      | negation operand =>
        obtain ⟨b, hb, hrule, rfl⟩ := elaborate_negative.mp he
        obtain ⟨t, ht, hrule⟩ := negationRule_eq_ok.mp hrule
        simp at hm hn
        refine bind_eq_done.mpr ⟨true, _, looksAt_eq_done.mpr ⟨rfl, rfl⟩, ?_⟩
        refine bind_eq_done.mpr ⟨_, _, expect_state, ?_⟩
        refine bind_eq_done.mpr ⟨_, _, operandFrom_complete m operand hend (by simp; omega)
          (by simp; omega) hb, ?_⟩
        refine bind_eq_done.mpr ⟨_, _, typed_eq_done.mpr ⟨ht, rfl⟩, ?_⟩
        exact bind_eq_done.mpr ⟨_, _, judge_ok hrule, rfl⟩
      | steps primary steps =>
        obtain ⟨b, ds₁, hb⟩ := steps.elaborate_target he
        have hlt := primary.shorter
        refine bind_eq_done.mpr ⟨false, _,
          looksAt_eq_done.mpr ⟨by simpa using primary.next_ne_minus, rfl⟩, ?_⟩
        refine bind_eq_done.mpr
          ⟨_, _, primary_complete h ⟨primary, behindPrimary_of_steps steps hend⟩
          hn hb, ?_⟩
        exact stepsFrom_complete h hend he _ steps (Nat.lt_succ_self _) (by omega) hb

theorem operand_complete :
    Complete (n + 1) (fun c u c' => Operand c u c' ∧ c'.behindOperand = true) (elaborate r)
      (operand r expr) :=
  fun _ _ _ hu hn _ _ _ he => operandFrom_complete h _ hu.1 hu.2 (Nat.lt_succ_self _) hn he

/-- The operators behind an operand, up to what can stand behind an expression. -/
theorem operatorsFrom_complete {ds₀ ds' : Declarations} {u : Phrase} {a : Expr} {c' : Place}
    (hend : c'.atEnd = true) (heu : elaborate r u ds₀ = .ok (a, ds')) :
    ∀ m {left : Phrase} {c : Place}, Operators left c u c' → c.size < m → c.size < n + 1 →
      ∀ {e ds}, elaborate r left ds₀ = .ok (e, ds) →
        operatorsFrom (operand r expr) m e (c.state ds) = .done a (c'.state ds')
  | 0, _, _, _, hm, _, _, _, _ => absurd hm (Nat.not_lt_zero _)
  | m + 1, left, c, hops, hm, hn, e, ds, hel => by
      refine bind_eq_done.mpr ⟨_, _, peek_state, ?_⟩
      cases hops with
      | nil =>
        cases hel.symm.trans heu
        have hop : operator? c'.next = none := by
          simpa [Place.atOperator] using Place.atOperator_of_atEnd hend
        rw [hop]
        rfl
      | cons operator operand others =>
        obtain ⟨b, ds₁, heb⟩ := others.elaborate_left heu
        obtain ⟨e', ds₂, right, he, hright, hrule, rfl⟩ := elaborate_binary.mp heb
        cases hel.symm.trans he
        have hlt := operand.shorter
        simp at hm hn hlt
        rw [Place.next_cons, operator]
        refine bind_eq_done.mpr ⟨_, _, advance_state, ?_⟩
        refine bind_eq_done.mpr ⟨_, _, operand_complete h
          ⟨operand, behindOperand_of_operators others hend⟩ (by simp; omega) hright, ?_⟩
        refine bind_eq_done.mpr ⟨_, _, join_eq_done.mpr ⟨hrule, rfl, rfl⟩, ?_⟩
        exact operatorsFrom_complete hend heu m others (by omega) (by omega) heb

/-! ## Expressions -/

theorem exprStep_complete : Complete (n + 1) Ended (elaborate r) (exprStep r expr) := by
  rintro c u c' ⟨hu, hend⟩ hn ds a ds' he
  cases hu with
  | declaration type body =>
    obtain ⟨t, ds₁, hr, hrule, he⟩ := elaborate_declaration.mp he
    have hlt := type.shorter
    simp at hn hlt
    refine bind_eq_done.mpr ⟨true, _, looksAtDeclaration_eq_done.mpr ⟨rfl, rfl⟩, ?_⟩
    refine bind_eq_done.mpr ⟨(), _, ?_, h ⟨body, hend⟩ (by omega) he⟩
    refine bind_eq_done.mpr ⟨_, _, expectName_state, ?_⟩
    refine bind_eq_done.mpr ⟨_, _, expectName_state, ?_⟩
    refine bind_eq_done.mpr ⟨_, _, expect_state, ?_⟩
    refine bind_eq_done.mpr ⟨_, _, type_complete type (Nat.lt_succ_self _)
      (resolved_eq_ok.mpr ⟨hr, rfl⟩), ?_⟩
    refine bind_eq_done.mpr ⟨_, _, state_eq_done.mpr ⟨rfl, rfl⟩, ?_⟩
    exact bind_eq_done.mpr ⟨_, _, judge_ok hrule, rfl⟩
  | operation start first others =>
    obtain ⟨b, ds₁, hb⟩ := others.elaborate_left he
    have hlt := first.shorter
    refine bind_eq_done.mpr ⟨false, _, looksAtDeclaration_eq_done.mpr ⟨start, rfl⟩, ?_⟩
    refine bind_eq_done.mpr ⟨_, _, operand_complete h
      ⟨first, behindOperand_of_operators others hend⟩ hn hb, ?_⟩
    exact operatorsFrom_complete h hend he _ others (Nat.lt_succ_self _) (by omega) hb

end Parts

/-- **An expression of the grammar is read.** -/
theorem exprFrom_complete : ∀ n, Complete n Ended (elaborate r) (exprFrom r n)
  | 0, _, _, _, _, hn => absurd hn (Nat.not_lt_zero _)
  | n + 1, _, _, _, hu, hn => exprStep_complete (exprFrom_complete n) hu hn

end Parser

end Ascription
