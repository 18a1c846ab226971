import Ascription.Parser.Expr
import Ascription.Proofs.Parser.Takes.Type

/-!
# Proofs/Parser/Takes/Expr — expressions take tokens and know where they fail

    exprFrom (n + 1)  ──▸  a first token  ──▸  exprFrom n for the expressions inside

Whatever is read has a span of tokens.  A static rule that is not met blames an operand or
the span it is given; a variable that is declared twice is blamed where it is declared
again, wherever it was before.
-/

namespace Ascription

/-! ## Static rules -/

namespace Rule

variable {P : Span → Prop} {e : TypeError}

theorem expectEqual_error {expected : Ty} {found : Typed} (h : P found.span)
    (he : expectEqual expected found = .error e) : P e.span := by
  rw [expectEqual] at he
  split at he <;> cases he
  exact h

theorem expectNumeric_error {op : Operator} {operand : Typed} (h : P operand.span)
    (he : expectNumeric op operand = .error e) : P e.span := by
  rw [expectNumeric] at he
  split at he <;> cases he
  exact h

theorem expectBool_error {op : Operator} {operand : Typed} (h : P operand.span)
    (he : expectBool op operand = .error e) : P e.span := by
  rw [expectBool] at he
  split at he <;> cases he
  exact h

theorem arithmetic_error {op : Operator} {left right : Typed} (hleft : P left.span)
    (hright : P right.span) (he : arithmetic op left right = .error e) : P e.span := by
  obtain he | ⟨_, -, he⟩ := Except.bind_eq_error.mp he
  · exact expectNumeric_error hleft he
  obtain he | ⟨_, -, he⟩ := Except.bind_eq_error.mp he
  · exact expectNumeric_error hright he
  · exact expectEqual_error hright he

/-- **What is wrong with operands is said of one of them.** -/
theorem operatorRule_error {op : BinaryOp} {left right : Typed} (hleft : P left.span)
    (hright : P right.span) (he : Parser.operatorRule op left right = .error e) : P e.span := by
  cases op with
  | eq => exact expectEqual_error hright he
  | or =>
    obtain he | ⟨_, -, he⟩ := Except.bind_eq_error.mp he
    · exact expectBool_error hleft he
    · exact expectBool_error hright he
  | gt | subtract => exact arithmetic_error hleft hright he

theorem fieldType_error {target : Ty} {field : String} {annotated : Option Ty} {span : Span}
    (h : P span) (he : fieldType target field annotated span = .error e) : P e.span := by
  unfold fieldType at he
  split at he
  case h_1 =>
    split at he
    · cases he
      exact h
    split at he
    · cases he
    obtain he | ⟨_, -, he⟩ := Except.bind_eq_error.mp he
    · exact expectEqual_error h he
    · cases he
  case h_2 => cases he
  case h_3 =>
    cases he
    exact h

theorem offsetType_error {target key : Typed} (htarget : P target.span) (hkey : P key.span)
    (he : offsetType target key = .error e) : P e.span := by
  rw [offsetType] at he
  split at he
  case h_3 =>
    cases he
    exact htarget
  all_goals
    obtain he | ⟨_, -, he⟩ := Except.bind_eq_error.mp he
    · exact expectEqual_error hkey he
    · cases he

theorem listElement_error {first : Ty} {element : Typed} (h : P element.span)
    (he : listElement first element = .error e) : P e.span := by
  rw [listElement] at he
  split at he <;> cases he
  exact h

end Rule

namespace Declarations

variable {P : Span → Prop} {ds : Declarations} {name : String} {t : Ty} {span : Span}
  {e : TypeError}

/-- A variable declared twice is blamed at the second declaration, one that is annotated otherwise
at the annotation; the first declaration may be no text's. -/
theorem declare_error (h : P span) (he : ds.declare name t span = .error e) : P e.span := by
  rw [declare] at he
  split at he <;> cases he
  exact h

theorem checkAnnotated_error (h : P span) (he : ds.checkAnnotated name t span = .error e) :
    P e.span := by
  rw [checkAnnotated] at he
  split at he
  · split at he <;> cases he
    exact h
  · cases he

end Declarations

/-- An expression whose span may be blamed. -/
abbrev Blame.node (B : Blame) (e : Expr) : Prop := B.spans e.span

namespace Parser

section

variable {B : Blame} {n : Nat} {s : ParserState} {registry : Registry} {expr : Parser Expr}

/-! ## Primaries -/

theorem staticType_error {P : Span → Prop} {e : Expr} {err : TypeError} (h : P e.span)
    (he : staticType e = .error err) : P err.span := by
  rw [staticType] at he
  split at he <;> cases he
  exact h

theorem typed_keeps {e : Expr} (h : B.node e) : Keeps B n (fun t => B.spans t.span) (typed e) :=
  Keeps.bind (.judge fun _ he => staticType_error h he) fun _ _ => .pure h

theorem reference_keeps {name : String} {span : Span} (h : B.spans span) :
    Keeps B n B.node (reference registry name span) := by
  refine Keeps.accept.bind fun colon _ => ?_
  cases colon with
  | true =>
    refine Takes.type.keeps.bind fun _ _ => Keeps.previousSpan.bind fun _ hstop =>
      Keeps.state.bind fun _ _ => ?_
    have hspan := B.merge h hstop
    exact Keeps.bind (.judge fun _ he => Declarations.checkAnnotated_error hspan he) fun _ _ =>
      .pure hspan
  | false =>
    refine Keeps.state.bind fun s _ => ?_
    split
    · exact .pure h
    · exact .fail .undeclared h

/-- A literal is read where one is next. -/
theorem literal_meets {value : Literal} (hs : s.Stands B) (hnext : s.tokens ≠ []) :
    (literal value s).Meets B.errors fun e s' => s'.Past B s.tokens.length ∧ B.node e :=
  (advance_meets hs hnext).bind fun _ _ h => .done h

theorem lambda_keeps (h : Takes B n B.node expr) {start : Span} (hstart : B.spans start)
    {params : List String} : Keeps B n B.node (lambda expr start params) :=
  h.keeps.bind fun _ hbody => .pure (B.merge hstart hbody)

theorem checkElements_keeps {es : List Expr} (h : ∀ e ∈ es, B.node e) :
    Keeps B n (fun _ => True) (checkElements es) := by
  cases es with
  | nil => exact .pure trivial
  | cons first others =>
    obtain ⟨hfirst, hothers⟩ := List.forall_mem_cons.mp h
    refine Keeps.bind (.judge fun _ he => staticType_error hfirst he) fun t _ => ?_
    induction others with
    | nil => exact .pure trivial
    | cons e others ih =>
      obtain ⟨he, hothers⟩ := List.forall_mem_cons.mp hothers
      have hjudged : Keeps B n (fun _ => True) (do judge (Rule.listElement t (← typed e))) :=
        (typed_keeps he).bind fun _ ht => .judge fun _ herr => Rule.listElement_error ht herr
      exact hjudged.bind fun _ _ => ih (List.forall_mem_cons.mpr ⟨hfirst, hothers⟩) hothers

theorem listLiteral_takes (h : Takes B n B.node expr) : Takes B (n + 1) B.node (listLiteral expr) :=
  (Takes.expect (by decide)).first fun _ hstart =>
    (Keeps.items (fun _ _ => h) (by decide)).bind fun _ helements =>
    (checkElements_keeps helements).bind fun _ _ => Keeps.previousSpan.bind fun _ hstop =>
      .pure (B.merge hstart hstop)

theorem fieldLiteral_takes (h : Takes B n B.node expr) {before : List (String × Expr)} :
    Takes B n (fun _ => True) (fieldLiteral expr before) := by
  refine Takes.expectName.bind fun ⟨name, span⟩ hspan => ?_
  dsimp only
  split
  · exact .fail .illTyped hspan
  · exact (Takes.expect (by decide)).keeps.bind fun _ _ => h.keeps.bind fun _ hvalue =>
      (typed_keeps hvalue).bind fun _ _ => .pure trivial

theorem structLiteral_takes (h : Takes B n B.node expr) :
    Takes B (n + 1) B.node (structLiteral expr) :=
  (Takes.expect (by decide)).first fun _ hstart =>
    (Keeps.items (R := fun _ => True) (fun _ _ => fieldLiteral_takes h) (by decide)).bind fun _ _ =>
      Keeps.previousSpan.bind fun _ hstop => .pure (B.merge hstart hstop)

/-- **The innermost expressions** take a token before they read the expressions inside. -/
theorem primary_takes (h : Takes B n B.node expr) :
    Takes B (n + 1) B.node (primary registry expr) := by
  intro s hs hn
  rw [primary, peek_bind]
  rcases hk : s.place.next with _ | k
  · exact expected_meets hs (by decide)
  cases k with
  | int | float | string => exact literal_meets hs (tokens_ne_nil hk)
  | name name =>
    have hname : Takes B (n + 1) B.node (do
        let written ← expectName
        reference registry written.1 written.2) :=
      Takes.expectName.first fun _ hspan => reference_keeps hspan
    exact hname s hs hn
  | punct p =>
    cases p with
    | pipe =>
      have hlambda : Takes B (n + 1) B.node (do
          let start ← expect .pipe
          let params ← items (fun _ => expectName) .pipe
          lambda expr start (params.map Prod.fst)) :=
        (Takes.expect (by decide)).first fun _ hstart =>
          (Keeps.items (fun _ _ => Takes.expectName) (by decide)).bind fun _ _ =>
            lambda_keeps h hstart
      exact hlambda s hs hn
    | doublePipe =>
      have hthunk : Takes B (n + 1) B.node (do
          let start ← expect .doublePipe
          lambda expr start []) :=
        (Takes.expect (by decide)).first fun _ hstart => lambda_keeps h hstart
      exact hthunk s hs hn
    | leftParen =>
      have hparens : Takes B (n + 1) B.node (do
          let _ ← expect .leftParen
          let inner ← expr
          let _ ← expect .rightParen
          return inner) :=
        (Takes.expect (by decide)).first fun _ _ => h.keeps.bind fun _ hinner =>
          (Takes.expect (by decide)).keeps.bind fun _ _ => .pure hinner
      exact hparens s hs hn
    | leftBracket => exact listLiteral_takes h s hs hn
    | leftBrace => exact structLiteral_takes h s hs hn
    | _ => exact expected_meets hs (by decide)

/-! ## Steps -/

/-- A call without a return type blames the parenthesis. -/
theorem untypedCall_meets {name : String} {k : Nat} {Q : Expr → ParserState → Prop}
    (hs : s.Past B k) (hnext : s.place.next = some (.punct .leftParen)) :
    ((do failForm (.untypedCall name) (← here)) s).Meets B.errors Q := by
  obtain ⟨tokens, f, p, ds⟩ := s
  cases tokens with
  | nil => cases hnext
  | cons t ts => exact .failed (B.located .untypedCall (hs.stands.tokens t List.mem_cons_self))

/-- What follows a member's name and its annotation: the arguments of a call, or nothing. -/
theorem access_keeps (h : Takes B n B.node expr) {target : Expr} (htarget : B.node target)
    {span : Span} (hspan : B.spans span) (name : String) (annotated : Option Ty) :
    Keeps B n B.node (do
      match annotated, ← looksAt .leftParen with
      | some result, true =>
        let _ ← expect .leftParen
        let args ← items (fun _ => expr) .rightParen
        return .call (Span.merge target.span (← previousSpan)) target name result args
      | annotated, _ =>
        let targetType ← judge (staticType target)
        let t ← judge (Rule.fieldType targetType name annotated span)
        return .field (Span.merge target.span (← previousSpan)) target name t : Parser Expr) := by
  refine Keeps.looksAt.bind fun _ _ => ?_
  split
  · exact (Takes.expect (by decide)).keeps.bind fun _ _ =>
      (Keeps.items (fun _ _ => h) (by decide)).bind fun _ _ =>
      Keeps.previousSpan.bind fun _ hstop => .pure (B.merge htarget hstop)
  · refine Keeps.bind (.judge fun _ he => staticType_error htarget he) fun _ _ => ?_
    refine Keeps.bind (.judge fun _ he => Rule.fieldType_error hspan he) fun _ _ => ?_
    exact Keeps.previousSpan.bind fun _ hstop => .pure (B.merge htarget hstop)

theorem member_takes (h : Takes B n B.node expr) {target : Expr} (htarget : B.node target) :
    Takes B n B.node (member registry expr target) := by
  refine (Takes.expect (by decide)).bind fun _ _ =>
    Takes.expectName.keeps.bind fun ⟨name, span⟩ hspan => ?_
  intro k hk s hs
  dsimp only
  rw [looksAt_bind]
  split
  case isTrue hnext => exact untypedCall_meets hs (beq_iff_eq.mp hnext)
  case isFalse =>
    refine (Keeps.accept k hk s hs).bind fun colon s₁ ⟨hs₁, _⟩ => ?_
    cases colon with
    | true =>
      have hannotated : Keeps B n (fun _ => True) (some <$> type registry) :=
        Takes.type.keeps.bind fun _ _ => .pure trivial
      exact hannotated.bind (fun _ _ => access_keeps h htarget hspan name _) k hk s₁ hs₁
    | false => exact access_keeps h htarget hspan name none k hk s₁ hs₁

theorem offset_takes (h : Takes B n B.node expr) {target : Expr} (htarget : B.node target) :
    Takes B n B.node (offset expr target) :=
  (Takes.expect (by decide)).bind fun _ _ => h.keeps.bind fun _ hkey =>
    (Takes.expect (by decide)).keeps.bind fun _ hstop =>
    (typed_keeps htarget).bind fun _ ht => (typed_keeps hkey).bind fun _ hk =>
      Keeps.bind (.judge fun _ he => Rule.offsetType_error ht hk he) fun _ _ =>
        .pure (B.merge htarget hstop)

/-- **Each step takes tokens**, so there is fuel for all of them. -/
theorem stepsFrom_meets (h : Takes B n B.node expr) {fuel k : Nat} (hk : k ≤ n) {e : Expr}
    (he : B.node e) (hs : s.Past B k) (hfuel : s.tokens.length < fuel) :
    (stepsFrom registry expr fuel e s).Meets B.errors fun e s' => s'.Past B k ∧ B.node e := by
  induction fuel generalizing s e with
  | zero => exact absurd hfuel (Nat.not_lt_zero _)
  | succ fuel ih =>
    have hstep : ∀ p : Parser Expr, Takes B n B.node p →
        ((p >>= stepsFrom registry expr fuel) s).Meets B.errors
          fun e s' => s'.Past B k ∧ B.node e := by
      intro p hp
      refine (hp s hs.stands (Nat.lt_of_lt_of_le hs.fewer hk)).bind fun e' s₁ ⟨hs₁, he'⟩ => ?_
      exact ih he' (hs₁.mono (Nat.le_of_lt hs.fewer))
        (Nat.lt_of_lt_of_le hs₁.fewer (Nat.le_of_lt_succ hfuel))
    rw [stepsFrom, peek_bind]
    rcases s.place.next with _ | k
    · exact .done ⟨hs, he⟩
    cases k with
    | punct p =>
      cases p with
      | dot => exact hstep _ (member_takes h he)
      | leftBracket => exact hstep _ (offset_takes h he)
      | _ => exact .done ⟨hs, he⟩
    | _ => exact .done ⟨hs, he⟩

theorem steps_keeps (h : Takes B n B.node expr) {e : Expr} (he : B.node e) :
    Keeps B n B.node (steps registry expr e) := fun _ hk _ hs =>
  stepsFrom_meets h hk he hs (Nat.lt_succ_self _)

/-! ## Operators -/

theorem operandFrom_takes (h : Takes B n B.node expr) {fuel : Nat} (hfuel : fuel ≤ n + 1) :
    Takes B fuel B.node (operandFrom registry expr fuel) := by
  induction fuel with
  | zero => exact fun _ _ hn => absurd hn (Nat.not_lt_zero _)
  | succ fuel ih =>
    have hn : fuel ≤ n := Nat.le_of_succ_le_succ hfuel
    intro s hs hlength
    rw [operandFrom, looksAt_bind]
    split
    case isTrue =>
      have hnegative : Takes B (fuel + 1) B.node (do
          let start ← expect .minus
          let operand ← operandFrom registry expr fuel
          judge (Rule.negation (← typed operand))
          return .negative (Span.merge start operand.span) operand) :=
        (Takes.expect (by decide)).first fun _ hstart =>
          (ih (Nat.le_of_succ_le hfuel)).keeps.bind fun _ hoperand =>
          (typed_keeps hoperand).bind fun _ ht =>
            Keeps.bind (.judge fun _ he => Rule.expectNumeric_error ht he) fun _ _ =>
              .pure (B.merge hstart hoperand)
      exact hnegative s hs hlength
    case isFalse =>
      have hsteps : Takes B (fuel + 1) B.node (primary registry expr >>= steps registry expr) :=
        (primary_takes (h.mono hn)).first fun _ he => steps_keeps (h.mono hn) he
      exact hsteps s hs hlength

/-- **An operand** starts with a token of its own. -/
theorem operand_takes (h : Takes B n B.node expr) :
    Takes B (n + 1) B.node (operand registry expr) :=
  fun s hs hn => operandFrom_takes h hn s hs (Nat.lt_succ_self _)

theorem join_keeps {op : BinaryOp} {left right : Expr} (hleft : B.node left)
    (hright : B.node right) : Keeps B n B.node (join op left right) :=
  (typed_keeps hleft).bind fun _ hl => (typed_keeps hright).bind fun _ hr =>
    Keeps.bind (.judge fun _ he => Rule.operatorRule_error hl hr he) fun _ _ =>
      .pure (B.merge hleft hright)

/-- **Each operator takes tokens**, so there is fuel for all of them. -/
theorem operatorsFrom_meets {next : Parser Expr} (h : Takes B n B.node next) {fuel k : Nat}
    (hk : k ≤ n) {left : Expr} (hleft : B.node left) (hs : s.Past B k)
    (hfuel : s.tokens.length < fuel) :
    (operatorsFrom next fuel left s).Meets B.errors fun e s' => s'.Past B k ∧ B.node e := by
  induction fuel generalizing s left with
  | zero => exact absurd hfuel (Nat.not_lt_zero _)
  | succ fuel ih =>
    rw [operatorsFrom, peek_bind]
    cases hop : operator? s.place.next with
    | none => exact .done ⟨hs, hleft⟩
    | some op =>
      have hnext : s.tokens ≠ [] := by
        intro hnil
        rw [ParserState.place, Place.next, hnil] at hop
        cases hop
      have hlength : s.tokens.length ≤ k := Nat.le_of_lt hs.fewer
      have hn : s.tokens.length ≤ n := Nat.le_trans hlength hk
      refine (advance_meets hs.stands hnext).bind fun _ s₁ h₁ => ?_
      refine (h.keeps _ hn s₁ h₁.1).bind fun right s₂ h₂ => ?_
      refine (join_keeps hleft h₂.2 _ hn s₂ h₂.1).bind fun e s₃ h₃ => ?_
      exact ih h₃.2 (h₃.1.mono hlength) (Nat.lt_of_lt_of_le h₃.1.fewer (Nat.le_of_lt_succ hfuel))

theorem operators_keeps {next : Parser Expr} (h : Takes B n B.node next) {left : Expr}
    (hleft : B.node left) : Keeps B n B.node (operators next left) := fun _ hk _ hs =>
  operatorsFrom_meets h hk hleft hs (Nat.lt_succ_self _)

/-! ## Expressions -/

theorem declaration_takes : Takes B n (fun _ => True) (declaration registry) :=
  Takes.expectName.bind fun _ _ => Takes.expectName.keeps.bind fun ⟨_, _⟩ hspan =>
    (Takes.expect (by decide)).keeps.bind fun _ _ => Takes.type.keeps.bind fun _ _ =>
    Keeps.state.bind fun _ _ =>
      Keeps.bind (.judge fun _ he => Declarations.declare_error hspan he)
        fun _ _ => fun _ _ _ hs => .done ⟨hs.declare, trivial⟩

/-- **One step of the grammar of expressions** takes a token before it reads the expressions
inside. -/
theorem exprStep_takes (h : Takes B n B.node expr) :
    Takes B (n + 1) B.node (exprStep registry expr) := by
  intro s hs hn
  change Reply.Meets _ _ ((if s.place.atDeclaration then (do declaration registry; expr) else
    (operand registry expr >>= operators (operand registry expr))) s)
  split
  case isTrue =>
    have hdeclaration : Takes B (n + 1) B.node (do declaration registry; expr) :=
      declaration_takes.first fun _ _ => h.keeps
    exact hdeclaration s hs hn
  case isFalse =>
    have hoperation : Takes B (n + 1) B.node
        (operand registry expr >>= operators (operand registry expr)) :=
      (operand_takes h).first fun _ hleft =>
        operators_keeps ((operand_takes h).mono (Nat.le_succ n)) hleft
    exact hoperation s hs hn

theorem exprFrom_takes {fuel : Nat} : Takes B fuel B.node (exprFrom registry fuel) := by
  induction fuel with
  | zero => exact fun _ _ hn => absurd hn (Nat.not_lt_zero _)
  | succ fuel ih => exact exprStep_takes ih

end

/-- **An expression** takes tokens, and fails where the text may be blamed. -/
theorem Takes.expr {B : Blame} {n : Nat} {registry : Registry} : Takes B n B.node (expr registry) :=
  fun s hs _ => exprFrom_takes s hs (Nat.lt_succ_self _)

end Parser

end Ascription
