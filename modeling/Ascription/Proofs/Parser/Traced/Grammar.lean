import Ascription.Proofs.Parser.Traced.Spends

/-!
# Proofs/Parser/Traced/Grammar — the tokens of a text pay for its parse

    exprFrom (n + 1)  ──▸  a few calls  ──▸  a first token, which pays for what comes next

Whatever the grammar asks for, it takes a token after a few calls, or fails.  For each production
the credits are given that it needs until then, and those that it leaves: they cover what its
callers do before they take a token of their own.
-/

namespace Ascription

namespace Parser

namespace Traced

variable {α : Type}

/-- **A part of a text**: it takes a token before it has spent 9 credits, and leaves 20. -/
abbrev Part (p : Traced α) (q : Parser α) : Prop := Spends 9 (fun _ => 20) p q

/-! ## Lists -/

section Lists

variable {item : List α → Traced α} {item' : List α → Parser α} {close : Punct}

/-- **Each round takes an item**, and leaves a credit for it. -/
theorem itemsFrom_spends (h : ∀ xs, Part (item xs) (item' xs)) {fuel : Nat} {xs : List α} :
    Spends (xs.length + 11) (fun ys => ys.length + 20) (itemsFrom item close fuel xs)
      (Parser.itemsFrom item' close fuel xs) := by
  induction fuel generalizing xs with
  | zero => exact .exhausted
  | succ fuel ih =>
    refine .call <| .bind .looksAt fun closed => ?_
    cases closed with
    | true => exact .bind .expect fun _ => .pure (by omega)
    | false =>
      have hitem : Spends (xs.length + 9) (fun _ => xs.length + 20) (item xs) (item' xs) :=
        (h xs).covers (by omega) fun _ => by omega
      refine .bind hitem fun x => .bind .accept fun comma => ?_
      cases comma with
      | true => exact ih.more (by simp)
      | false => exact .bind .expect fun _ => .pure (by simp)

theorem items_spends (h : ∀ xs, Part (item xs) (item' xs)) :
    Spends 12 (fun ys => ys.length + 20) (items item close) (Parser.items item' close) :=
  .call fun s => itemsFrom_spends h s

end Lists

/-! ## Types -/

section Types

variable {registry : Registry} {type : Traced TypeExpr} {type' : Parser TypeExpr}
  (h : Spends 4 (fun _ => 20) type type')

include h

theorem typeField_spends : Spends 2 (fun _ => 20) (typeField type) (Parser.typeField type') :=
  .call <| .bind .expectName fun ⟨_, _⟩ => .bind .expect fun _ => .bind h.frame fun _ =>
    .pure (by decide)

theorem types_spends {close : Punct} : Spends 12 (fun ts => ts.length + 20)
    (items (fun _ => type) close) (Parser.items (fun _ => type') close) :=
  items_spends fun _ => h.more (by decide)

theorem structType_spends : Spends 2 (fun _ => 20) (structType type) (Parser.structType type') :=
  have hfields : Spends 12 _ (items (fun _ => typeField type) .rightBrace) _ :=
    items_spends fun _ => (typeField_spends h).more (by decide)
  .call <| .bind .expect fun _ => .bind hfields.frame fun _ => .bind .previousSpan fun _ =>
    .pure (by omega)

theorem funcType_spends {start : Span} :
    Spends 2 (fun _ => 20) (funcType type start) (Parser.funcType type' start) :=
  .call <| .bind .expect fun _ => .bind (types_spends h).frame fun _ => .bind .expect fun _ =>
    .bind (h.more (by omega)) fun _ => .pure (by decide)

theorem typeArgs_spends {name : String} {span : Span} :
    Spends 2 (fun _ => 0) (typeArgs type name span) (Parser.typeArgs type' name span) := by
  refine .call <| .bind .accept fun less => ?_
  cases less with
  | false => exact .pure (by decide)
  | true =>
    refine .bind (types_spends h).frame fun args => ?_
    cases args with
    | nil => exact .pure (by omega)
    | cons => exact .bind .previousSpan fun _ => .pure (by omega)

/-- **One step of the grammar of types.** -/
theorem typeStep_spends : Spends 4 (fun _ => 20) (typeStep type) (Parser.typeStep type') := by
  refine .call <| .bind .peek fun next => ?_
  rcases next with _ | k
  · exact .expected
  cases k with
  | name name =>
    refine .bind .expectName fun ⟨name, span⟩ => .bind .looksAt fun paren => ?_
    split
    · exact (funcType_spends h).covers (by decide) fun _ => by decide
    · exact (typeArgs_spends h).covers (by decide) fun _ => by decide
  | punct p =>
    cases p with
    | leftBrace => exact structType_spends h
    | _ => exact .expected
  | _ => exact .expected

end Types

variable {registry : Registry}

theorem typeFrom_spends {fuel : Nat} :
    Spends 4 (fun _ => 20) (typeFrom fuel) (Parser.typeFrom fuel) := by
  induction fuel with
  | zero => exact .exhausted
  | succ fuel ih => exact typeStep_spends ih

theorem type_spends : Spends 5 (fun _ => 19) (type registry) (Parser.type registry) :=
  have hwritten : Spends 4 (fun _ => 20) typeExpr Parser.typeExpr := fun s => typeFrom_spends s
  .call <| .bind hwritten fun _ => .judge

/-! ## Primaries -/

theorem reference_spends {name : String} {span : Span} :
    Spends 4 (fun _ => 0) (reference registry name span) (Parser.reference registry name span) := by
  refine .call <| .bind .accept fun colon => ?_
  cases colon with
  | true =>
    exact .bind type_spends.frame fun _ => .bind .previousSpan fun _ => .bind .state fun _ =>
      .bind .judge fun _ => .pure (by decide)
  | false =>
    refine .bind .state fun s => ?_
    cases s.declarations.find? name with
    | some d => exact .pure (by decide)
    | none => exact .fail

theorem literal_spends {value : Literal} :
    Spends 2 (fun _ => 30) (literal value) (Parser.literal value) :=
  .call <| .bind .advance fun _ => .pure (by decide)

/-- **The check of the elements** costs a credit for each. -/
theorem checkElements_spends {es : List Expr} {c : Nat} :
    Spends (c + es.length) (fun _ => c) (checkElements es) (Parser.checkElements es) := by
  cases es with
  | nil => exact .pure (Nat.le_refl _)
  | cons first others =>
    refine .bind .judge fun t => ?_
    induction others with
    | nil => exact .pure (Nat.le_refl _)
    | cons e others ih =>
      have helement : ∀ s a s', (do judge (Rule.listElement t (← Parser.typed e)) : Parser Unit) s =
          .done a s' → s'.tokens = s.tokens := by
        intro s a s' h
        obtain ⟨_, s₁, htyped, hjudge⟩ := bind_eq_done.mp h
        obtain ⟨-, rfl⟩ := typed_eq_done.mp htyped
        obtain ⟨-, rfl⟩ := judge_eq_done.mp hjudge
        rfl
      exact .bind (.still helement) fun _ => ih

theorem goOnWith_spends {declarations : Declarations} {c : Nat} :
    Spends (c + 1) (fun _ => c) (liftM (goOnWith declarations)) (goOnWith declarations) :=
  .still fun _ _ _ h => by
    cases h
    rfl

theorem declaration_spends :
    Spends 2 (fun _ => 20) (declaration registry) (Parser.declaration registry) :=
  .call <| .bind .expectName fun _ => .bind .expectName fun ⟨_, _⟩ => .bind .expect fun _ =>
    .bind type_spends.frame fun _ => .bind .state fun _ => .bind .judge fun _ =>
      (goOnWith_spends (c := 20)).more (by decide)

section Expressions

variable {expr : Traced Expr} {expr' : Parser Expr} (h : Part expr expr')

include h

theorem lambda_spends {start : Span} {params : List String} :
    Spends 10 (fun _ => 20) (lambda expr start params) (Parser.lambda expr' start params) :=
  .call <| .bind h fun _ => .pure (by decide)

theorem exprs_spends {close : Punct} : Spends 12 (fun es => es.length + 20)
    (items (fun _ => expr) close) (Parser.items (fun _ => expr') close) :=
  items_spends fun _ => h

theorem listLiteral_spends : Spends 2 (fun _ => 30) (listLiteral expr) (Parser.listLiteral expr') :=
  .call <| .bind .expect fun _ => .bind (exprs_spends h).frame fun es =>
    .bind ((checkElements_spends (c := 40)).more (by omega)) fun _ =>
      .bind .previousSpan fun _ => .pure (by decide)

theorem fieldLiteral_spends {before : List (String × Expr)} :
    Part (fieldLiteral expr before) (Parser.fieldLiteral expr' before) := by
  refine .call <| .bind .expectName fun ⟨name, span⟩ => ?_
  dsimp only
  split
  · exact .fail
  · exact .bind .expect fun _ => .bind h.frame fun _ => .bind .typed fun _ => .pure (by decide)

theorem structLiteral_spends :
    Spends 2 (fun _ => 30) (structLiteral expr) (Parser.structLiteral expr') :=
  .call <| .bind .expect fun _ => .bind (items_spends fun _ => fieldLiteral_spends h).frame fun _ =>
    .bind .previousSpan fun _ => .pure (by omega)

/-- **The innermost expressions.** -/
theorem primary_spends :
    Spends 4 (fun _ => 30) (primary registry expr) (Parser.primary registry expr') := by
  refine .call <| .bind .peek fun next => ?_
  rcases next with _ | k
  · exact .expected
  cases k with
  | int | float | string => exact literal_spends
  | name name =>
    exact .bind .expectName fun ⟨_, _⟩ => reference_spends.covers (by decide) fun _ => by decide
  | punct p =>
    cases p with
    | pipe =>
      have hparams : Spends 12 _ (items (fun _ => liftM expectName) .pipe) _ :=
        items_spends fun _ => (Spends.expectName (c := 8)).covers (by decide) fun _ => by decide
      exact .bind .expect fun _ => .bind hparams.frame fun _ =>
        (lambda_spends h).covers (by omega) fun _ => by omega
    | doublePipe =>
      exact .bind .expect fun _ => (lambda_spends h).covers (by decide) fun _ => by decide
    | leftParen =>
      exact .bind .expect fun _ => .bind h.frame fun _ => .bind .expect fun _ => .pure (by decide)
    | leftBracket => exact listLiteral_spends h
    | leftBrace => exact structLiteral_spends h
    | _ => exact .expected

/-! ## Steps -/

theorem access_spends {target : Expr} {name : String} {span : Span} {annotated : Option Ty} :
    Spends 30 (fun _ => 20) (access expr target name span annotated) (do
      match annotated, ← looksAt .leftParen with
      | some result, true =>
        let _ ← expect .leftParen
        let args ← Parser.items (fun _ => expr') .rightParen
        return .call (Span.merge target.span (← previousSpan)) target name result args
      | annotated, _ =>
        let targetType ← judge (staticType target)
        let t ← judge (Rule.fieldType targetType name annotated span)
        return .field (Span.merge target.span (← previousSpan)) target name t : Parser Expr) := by
  refine .bind .looksAt fun paren => ?_
  rcases annotated with _ | result <;> cases paren
  case some.true =>
    exact .bind .expect fun _ => .bind (exprs_spends h).frame fun _ => .bind .previousSpan fun _ =>
      .pure (by omega)
  all_goals
    exact .bind .judge fun _ => .bind .judge fun _ => .bind .previousSpan fun _ => .pure (by decide)

theorem member_spends {target : Expr} :
    Spends 2 (fun _ => 20) (member registry expr target) (Parser.member registry expr' target) := by
  refine .call <| .bind .expect fun _ => .bind .expectName fun ⟨name, span⟩ =>
    .bind .looksAt fun paren => ?_
  cases paren with
  | true => exact .bind .here fun _ => .fail
  | false =>
    have hannotated : Spends 40 (fun _ => 30) (some <$> type registry)
        (some <$> Parser.type registry) :=
      .map (type_spends.covers (by decide) fun _ => by decide)
    refine .bind .accept fun colon => ?_
    cases colon with
    | true => exact .bind (hannotated.more (by decide)) fun _ => access_spends h
    | false =>
      have hfield : Spends 30 (fun _ => 20) (access expr target name span none) _ := access_spends h
      exact hfield.more (by decide)

theorem offset_spends {target : Expr} :
    Spends 2 (fun _ => 20) (offset expr target) (Parser.offset expr' target) :=
  .call <| .bind .expect fun _ => .bind h.frame fun _ => .bind .expect fun _ =>
    .bind .typed fun _ => .bind .typed fun _ => .bind .judge fun _ => .pure (by decide)

/-- **Each round takes a step.** -/
theorem stepsFrom_spends {fuel : Nat} {e : Expr} :
    Spends 4 (fun _ => 2) (stepsFrom registry expr fuel e)
      (Parser.stepsFrom registry expr' fuel e) := by
  induction fuel generalizing e with
  | zero => exact .exhausted
  | succ fuel ih =>
    refine .call <| .bind .peek fun next => ?_
    rcases next with _ | k
    · exact .pure (by decide)
    cases k with
    | punct p =>
      cases p with
      | dot => exact .bind (member_spends h) fun _ => ih.more (by decide)
      | leftBracket => exact .bind (offset_spends h) fun _ => ih.more (by decide)
      | _ => exact .pure (by decide)
    | _ => exact .pure (by decide)

theorem steps_spends {e : Expr} :
    Spends 5 (fun _ => 2) (steps registry expr e) (Parser.steps registry expr' e) :=
  .call fun s => stepsFrom_spends h s

/-! ## Operators -/

theorem operandFrom_spends {fuel : Nat} :
    Spends 6 (fun _ => 25) (operandFrom registry expr fuel)
      (Parser.operandFrom registry expr' fuel) := by
  induction fuel with
  | zero => exact .exhausted
  | succ fuel ih =>
    refine .call <| .bind .looksAt fun minus => ?_
    cases minus with
    | true =>
      exact .bind .expect fun _ => .bind ih.frame fun _ => .bind .typed fun _ =>
        .bind .judge fun _ => .pure (by decide)
    | false =>
      exact .bind (primary_spends h) fun _ => (steps_spends h).covers (by decide) fun _ => by decide

theorem operand_spends :
    Spends 7 (fun _ => 25) (operand registry expr) (Parser.operand registry expr') :=
  .call fun s => operandFrom_spends h s

/-- **Each round takes an operator.** -/
theorem operatorsFrom_spends {fuel : Nat} {left : Expr} :
    Spends 4 (fun _ => 2) (operatorsFrom (operand registry expr) fuel left)
      (Parser.operatorsFrom (Parser.operand registry expr') fuel left) := by
  induction fuel generalizing left with
  | zero => exact .exhausted
  | succ fuel ih =>
    refine .call <| .bind .peek fun next => ?_
    cases operator? next with
    | none => exact .pure (by decide)
    | some op =>
      exact .bind .advance fun _ => .bind (operand_spends h).frame fun _ => .bind .join fun _ =>
        ih.more (by decide)

theorem operators_spends {left : Expr} :
    Spends 5 (fun _ => 2) (operators (operand registry expr) left)
      (Parser.operators (Parser.operand registry expr') left) :=
  .call fun s => operatorsFrom_spends h s

/-! ## Expressions -/

/-- **One step of the grammar of expressions.** -/
theorem exprStep_spends : Part (exprStep registry expr) (Parser.exprStep registry expr') := by
  refine .call <| .bind .looksAtDeclaration fun declared => ?_
  cases declared with
  | true => exact .bind (declaration_spends.more (by decide)) fun _ => h.more (by decide)
  | false =>
    exact .bind (operand_spends h).frame fun _ =>
      (operators_spends h).covers (by decide) fun _ => by decide

end Expressions

/-- **An expression**, however deep the expressions inside it may be. -/
theorem exprFrom_spends {fuel : Nat} :
    Part (exprFrom registry fuel) (Parser.exprFrom registry fuel) := by
  induction fuel with
  | zero => exact .exhausted
  | succ fuel ih => exact exprStep_spends ih

end Traced

end Parser

end Ascription
