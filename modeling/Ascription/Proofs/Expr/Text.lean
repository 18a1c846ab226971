import Ascription.Expr.Text
import Ascription.Proofs.Number.Plain
import Ascription.Proofs.Phrase.Reads
import Ascription.Proofs.Ty.Text

/-!
# Proofs/Expr/Text — the text of an expression reads as the expression

    chain := primary step*          the text of most forms
    term  := chain | '-' term       …of negations
    sum   := term (operator term)*  …of binary operations

Each form is written for one of three productions, and stands bare where a looser one is asked for.
Parentheses make a chain of anything, so what is written in them can stand everywhere.
-/

namespace Ascription

open Grammar Lexer

namespace Grammar

variable {c c' c'' : Place} {u v w : Phrase}

theorem Steps.snoc : ∀ {u c v c' w c''}, Steps u c v c' → Step v c' w c'' → Steps u c w c''
  | _, _, _, _, _, _, .nil, h => .cons h .nil
  | _, _, _, _, _, _, .cons step others, h => .cons step (others.snoc h)

theorem Operators.snoc {k : TokenKind} {op : BinaryOp} {p s : Span} {ts : List Token}
    (hop : Parser.operator? (some k) = some op) (hw : Operand ⟨s, ts⟩ w c') :
    ∀ {u c v c₁}, Operators u c v c₁ → c₁ = ⟨p, ⟨k, s⟩ :: ts⟩ → Operators u c (.binary op v w) c'
  | _, _, _, _, .nil, rfl => .cons hop hw .nil
  | _, _, _, _, .cons operator operand others, h =>
      .cons operator operand (others.snoc hop hw h)

/-- **A chain**: a primary with its steps, no declaration. -/
def Chain (c : Place) (u : Phrase) (c' : Place) : Prop :=
  c.atDeclaration = false ∧ ∃ v c₁, Primary c v c₁ ∧ Steps v c₁ u c'

/-- **A term**: an operand, no declaration. -/
def Term (c : Place) (u : Phrase) (c' : Place) : Prop := c.atDeclaration = false ∧ Operand c u c'

/-- **A sum**: operands with operators between them, no declaration. -/
def Sum (c : Place) (u : Phrase) (c' : Place) : Prop :=
  c.atDeclaration = false ∧ ∃ v c₁, Operand c v c₁ ∧ Operators v c₁ u c'

theorem Chain.of_primary (hc : c.atDeclaration = false) (h : Primary c u c') : Chain c u c' :=
  ⟨hc, u, c', h, .nil⟩

theorem Chain.step (h : Chain c u c') (hstep : Step u c' v c'') : Chain c v c'' := by
  obtain ⟨hc, w, c₁, hprimary, hsteps⟩ := h
  exact ⟨hc, w, c₁, hprimary, hsteps.snoc hstep⟩

theorem Chain.term (h : Chain c u c') : Term c u c' := by
  obtain ⟨hc, v, c₁, hprimary, hsteps⟩ := h
  exact ⟨hc, .steps hprimary hsteps⟩

theorem Term.sum (h : Term c u c') : Sum c u c' := ⟨h.1, u, c', h.2, .nil⟩

theorem Sum.expression (h : Sum c u c') : Expression c u c' := by
  obtain ⟨hc, v, c₁, hoperand, hoperators⟩ := h
  exact .operation hc hoperand hoperators

end Grammar

/-! ## What may stand behind -/

/-- A word ends here, and no point follows. -/
def Apart (cs : List Char) : Prop := Breaks cs ∧ cs.head? ≠ some '.'

theorem apart_nil : Apart [] := ⟨fun _ h => (nomatch h), fun h => (nomatch h)⟩

theorem apart_cons {c : Char} {cs : List Char} (h : isReserved c = true) (hc : c ≠ '.') :
    Apart (c :: cs) := ⟨breaks_cons h, fun h => hc (Option.some.inj h)⟩

/-- The words that end whatever comes before them. -/
def closings : List TokenKind :=
  [.punct .comma, .punct .rightParen, .punct .rightBracket, .punct .rightBrace]

/-- An expression ends here. -/
def Closed (ks : List TokenKind) : Prop := ∀ k ∈ ks.head?, k ∈ closings

theorem closed_nil : Closed [] := fun _ h => nomatch h

theorem closed_cons {k : TokenKind} {ks : List TokenKind} (h : k ∈ closings) :
    Closed (k :: ks) := by
  rintro _ ⟨⟩
  exact h

theorem Closed.notLess {ks : List TokenKind} (h : Closed ks) : NotLess ks := by
  intro hless
  have hmem := h _ hless
  simp [closings] at hmem

theorem Closed.settled {c : Place} (h : Closed c.kinds) : c.settled = true := by
  rw [Place.settled, Place.atOperator, Place.atStep, Place.next_eq]
  cases hk : c.kinds with
  | nil => rfl
  | cons k ks =>
    have hmem : k ∈ closings := h k (hk ▸ rfl)
    simp only [closings, List.mem_cons, List.not_mem_nil, or_false] at hmem
    obtain rfl | rfl | rfl | rfl := hmem <;> rfl

namespace Expr

/-- What may stand behind the characters of an expression. -/
def Behind (e : Expr) (cs : List Char) : Prop :=
  Breaks cs ∧ (e.isLoose = true → cs.head? ≠ some '.')

/-- What may stand behind the words of an expression: a lambda goes as far as it can. -/
def After (e : Expr) (ks : List TokenKind) : Prop := NotLess ks ∧ (e.isLambda = true → Closed ks)

/-- **The production that a form is written for.** -/
def production : Expr → Place → Phrase → Place → Prop
  | binary _ _ _ _ => Sum
  | negative _ _ => Term
  | _ => Chain

/-- **The text of the expression reads as the expression.** -/
def ReadsBack (r : Registry) (e : Expr) : Prop :=
  Renders e.Behind e.After e.production e.text (Reads r e)

theorem production_expression {e : Expr} {c c' : Place} {u : Phrase} (h : e.production c u c') :
    Expression c u c' := by
  cases e with
  | binary => exact Sum.expression h
  | negative => exact Sum.expression (Term.sum h)
  | _ => exact (Chain.term h).sum.expression

variable {r : Registry} {e : Expr}

/-- As an expression. -/
theorem ReadsBack.expression (h : ReadsBack r e) :
    Renders Apart Closed Expression e.text (Reads r e) :=
  h.mono (fun _ h => ⟨h.1, fun _ => h.2⟩) (fun _ h => ⟨h.notLess, fun _ => h⟩) production_expression

/-- Text in parentheses is a chain. -/
theorem renders_parens {text : String} {P : Phrase → Prop}
    (h : Renders Apart Closed Expression text P) :
    Renders (fun _ => True) (fun _ => True) Chain (parenthesized true text) P := by
  intro rest after _ _ hrest
  obtain ⟨ks, hlex, hread⟩ := h (apart_cons rfl (by decide)) (closed_cons (by decide))
    (.char ')' .rightParen rfl trivial hrest)
  refine ⟨.punct .leftParen :: ks, ?_, fun c hc => ?_⟩
  · rw [parenthesized, if_pos rfl]
    simpa using Lexes.char '(' .leftParen rfl trivial hlex
  · obtain ⟨p, s, ts, rfl, hts⟩ := Place.kinds_eq_cons hc
    obtain ⟨u, c', hu, hc', hp⟩ := hread _ hts
    obtain ⟨p', s₁, ts₁, rfl, hts₁⟩ := Place.kinds_eq_cons hc'
    exact ⟨u, _, .of_primary rfl (.parens hu), hts₁, hp⟩

/-- As the target of a step. -/
theorem ReadsBack.target (h : ReadsBack r e) :
    Renders Breaks NotLess Chain (parenthesized e.isLoose e.text) (Reads r e) := by
  cases hloose : e.isLoose with
  | true => exact (renders_parens h.expression).mono (fun _ _ => trivial) (fun _ _ => trivial) id
  | false =>
    have hlambda : e.isLambda = false := by simp_all [isLoose]
    have hchain : e.production = Chain := by
      cases e with
      | binary | negative => simp [isLoose, isBinary, isNegative] at hloose
      | _ => rfl
    rw [ReadsBack, hchain] at h
    exact h.mono (fun _ h => ⟨h, by simp [hloose]⟩) (fun _ h => ⟨h, by simp [hlambda]⟩) id

/-- As an operand. -/
theorem ReadsBack.operand (h : ReadsBack r e) :
    Renders Apart NotLess Term (parenthesized (e.isBinary || e.isLambda) e.text) (Reads r e) := by
  cases hparens : e.isBinary || e.isLambda with
  | true =>
    exact (renders_parens h.expression).mono (fun _ _ => trivial) (fun _ _ => trivial) Chain.term
  | false =>
    obtain ⟨hbinary, hlambda⟩ := Bool.or_eq_false_iff.mp hparens
    refine Renders.mono h (fun _ h => ⟨h.1, fun _ => h.2⟩) (fun _ h => ⟨h, by simp [hlambda]⟩) ?_
    intro c u c' hu
    cases e with
    | binary => cases hbinary
    | negative => exact hu
    | _ => exact Chain.term hu

/-- As the left operand of an operator. -/
theorem ReadsBack.left (h : ReadsBack r e) :
    Renders Apart NotLess Sum (parenthesized e.isLambda e.text) (Reads r e) := by
  cases hlambda : e.isLambda with
  | true =>
    exact (renders_parens h.expression).mono (fun _ _ => trivial) (fun _ _ => trivial)
      fun h => h.term.sum
  | false =>
    refine Renders.mono h (fun _ h => ⟨h.1, fun _ => h.2⟩) (fun _ h => ⟨h, by simp [hlambda]⟩) ?_
    intro c u c' hu
    cases e with
    | binary => exact hu
    | negative => exact Term.sum hu
    | _ => exact (Chain.term hu).sum

theorem textAll_eq_map {es : List Expr} : textAll es = es.map text := by
  induction es with
  | nil => rfl
  | cons e es ih => rw [textAll, ih, List.map_cons]

theorem textFields_eq_map {fs : List (String × Expr)} :
    textFields fs = fs.map fun f => f.1 ++ ": " ++ f.2.text := by
  induction fs with
  | nil => rfl
  | cons f fs ih => rw [textFields, ih, List.map_cons]

/-- As the expressions of a list. -/
theorem renders_all {es : List Expr} (h : ∀ e ∈ es, ReadsBack r e) :
    Renders Apart Closed (Listed Expression) (", ".intercalate (textAll es)) (ReadsAll r es) := by
  rw [textAll_eq_map]
  exact renders_listed .nil .cons (fun _ => apart_cons rfl (by decide))
    (fun _ => closed_cons (by decide)) fun e he => (h e he).expression

end Expr

end Ascription
