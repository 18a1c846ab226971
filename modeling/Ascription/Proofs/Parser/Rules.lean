import Ascription.Proofs.Parser.Cursor
import Ascription.Parser.Expr

/-!
# Proofs/Parser/Rules — static rules judged while reading

A rule that a parser judges on the way leaves the state alone, and accepts exactly what the rule of
the second pass accepts.
-/

namespace Ascription

open Phrase

namespace Parser

variable {s s' : ParserState}

theorem typed_eq_done {e : Expr} {t : Typed} :
    typed e s = .done t s' ↔ Phrase.typed e = .ok t ∧ s = s' := by
  unfold typed Phrase.typed
  rw [bind_eq_done, Except.bind_eq_ok]
  constructor
  · rintro ⟨a, _, h, h'⟩
    obtain ⟨ht, rfl⟩ := judge_eq_done.mp h
    cases h'
    exact ⟨⟨a, ht, rfl⟩, rfl⟩
  · rintro ⟨⟨a, h, h'⟩, rfl⟩
    cases h'
    exact ⟨a, s, judge_eq_done.mpr ⟨h, rfl⟩, rfl⟩

theorem joinRule_eq_ok {op : BinaryOp} {left right : Expr} :
    joinRule op left right = .ok () ↔
      ∃ l r, Phrase.typed left = .ok l ∧ Phrase.typed right = .ok r ∧
        operatorRule op l r = .ok () := by
  simp [joinRule, Except.bind_eq_ok]

theorem negationRule_eq_ok {operand : Expr} :
    negationRule operand = .ok () ↔
      ∃ t, Phrase.typed operand = .ok t ∧ Rule.negation t = .ok () := by
  simp [negationRule, Except.bind_eq_ok]

theorem elementRule_cons_eq_ok {first : Ty} {e : Expr} {es : List Expr} :
    elementRule first (e :: es) = .ok () ↔
      ∃ t, Phrase.typed e = .ok t ∧ Rule.listElement first t = .ok () ∧
        elementRule first es = .ok () := by
  rw [elementRule, Except.bind_eq_ok]
  constructor
  · rintro ⟨t, ht, h⟩
    obtain ⟨⟨⟩, h, h'⟩ := Except.bind_eq_ok.mp h
    exact ⟨t, ht, h, h'⟩
  · rintro ⟨t, ht, h, h'⟩
    exact ⟨t, ht, Except.bind_eq_ok.mpr ⟨(), h, h'⟩⟩

theorem listRule_cons_eq_ok {first : Expr} {others : List Expr} :
    listRule (first :: others) = .ok () ↔
      ∃ t, staticType first = .ok t ∧ elementRule t others = .ok () := by
  simp [listRule, Except.bind_eq_ok]

theorem fieldRule_eq_ok {target : Expr} {name : String} {ascribed : Option Ty} {span : Span}
    {t : Ty} :
    fieldRule target name ascribed span = .ok t ↔
      ∃ tt, staticType target = .ok tt ∧ Rule.fieldType tt name ascribed span = .ok t := by
  simp [fieldRule, Except.bind_eq_ok]

theorem offsetRule_eq_ok {target key : Expr} {t : Ty} :
    offsetRule target key = .ok t ↔
      ∃ tt kt, Phrase.typed target = .ok tt ∧ Phrase.typed key = .ok kt ∧
        Rule.offsetType tt kt = .ok t := by
  simp [offsetRule, Except.bind_eq_ok]

/-- **Joining two operands judges the rule of the operator.** -/
theorem join_eq_done {op : BinaryOp} {left right e : Expr} :
    join op left right s = .done e s' ↔
      joinRule op left right = .ok () ∧
        e = .binary (Span.merge left.span right.span) op left right ∧ s = s' := by
  simp only [join, bind_eq_done, typed_eq_done, judge_eq_done, pure_eq_done, joinRule_eq_ok]
  grind

/-- …and a list literal those of its elements. -/
theorem checkElements_eq_done {es : List Expr} :
    checkElements es s = .done () s' ↔ listRule es = .ok () ∧ s = s' := by
  cases es with
  | nil => exact pure_eq_done.trans (by simp [listRule])
  | cons first others =>
    have h : ∀ t : Ty, (others.forM (fun e => do judge (Rule.listElement t (← typed e))) :
        Parser PUnit) s = .done () s' ↔ elementRule t others = .ok () ∧ s = s' := by
      intro t
      induction others with
      | nil => exact pure_eq_done.trans (by simp [elementRule])
      | cons e es ih =>
        refine bind_eq_done.trans ?_
        rw [elementRule_cons_eq_ok]
        constructor
        · rintro ⟨⟨⟩, s₁, h₁, h₂⟩
          obtain ⟨a, s₂, h₃, h₄⟩ := bind_eq_done.mp h₁
          obtain ⟨ha, rfl⟩ := typed_eq_done.mp h₃
          obtain ⟨hr, rfl⟩ := judge_eq_done.mp h₄
          obtain ⟨hs, rfl⟩ := ih.mp h₂
          exact ⟨⟨a, ha, hr, hs⟩, rfl⟩
        · rintro ⟨⟨a, ha, hr, hs⟩, rfl⟩
          refine ⟨(), s, ?_, ih.mpr ⟨hs, rfl⟩⟩
          exact bind_eq_done.mpr ⟨a, s, typed_eq_done.mpr ⟨ha, rfl⟩, judge_ok hr⟩
    rw [checkElements, bind_eq_done, listRule_cons_eq_ok]
    constructor
    · rintro ⟨t, s₁, h₁, h₂⟩
      obtain ⟨ht, rfl⟩ := judge_eq_done.mp h₁
      obtain ⟨hs, rfl⟩ := (h t).mp h₂
      exact ⟨⟨t, ht, hs⟩, rfl⟩
    · rintro ⟨⟨t, ht, hs⟩, rfl⟩
      exact ⟨t, s, judge_ok ht, (h t).mpr ⟨hs, rfl⟩⟩

/-- A field access judges the rule of fields. -/
theorem access_eq_done {target e : Expr} {name : String} {ascribed : Option Ty} {span : Span} :
    (do
      let targetType ← judge (staticType target)
      let t ← judge (Rule.fieldType targetType name ascribed span)
      return .field (Span.merge target.span (← previousSpan)) target name t : Parser Expr) s
        = .done e s' ↔
      ∃ t, fieldRule target name ascribed span = .ok t ∧
        e = .field (Span.merge target.span s.previous) target name t ∧ s = s' := by
  simp only [bind_eq_done, judge_eq_done, previousSpan_eq_done, pure_eq_done, fieldRule_eq_ok]
  grind

/-! ## Looking ahead -/

theorem looksAtDeclaration_eq_done {b : Bool} :
    looksAtDeclaration s = .done b s' ↔ s.place.atDeclaration = b ∧ s = s' :=
  done_eq_done

/-- The tokens a declaration starts with. -/
theorem atDeclaration_cons {p span : Span} {name : String} {ts : List Token}
    (h : Place.atDeclaration ⟨p, ⟨.name name, span⟩ :: ts⟩ = true) : name = "declare" := by
  rw [Place.atDeclaration] at h
  split at h
  case h_1 heq =>
    cases heq
    rfl
  case h_2 => cases h

/-- **Steps end** where none is next. -/
theorem stepsFrom_succ_of_not_atStep {r : Registry} {expr : Parser Expr} {n : Nat} {e : Expr}
    (h : s.place.atStep = false) : stepsFrom r expr (n + 1) e s = .done e s := by
  rw [stepsFrom, bind_done (peek_eq_done.mpr ⟨rfl, rfl⟩)]
  rw [Place.atStep] at h
  generalize s.place.next = k at h ⊢
  rcases k with _ | k
  · rfl
  · cases k with
    | punct q => cases q with
      | dot | leftBracket => cases h
      | _ => rfl
    | _ => rfl

end Parser

end Ascription
