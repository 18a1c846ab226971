import Ascription.Proofs.Parser.Takes.Expr
import Ascription.Proofs.Parser.Traced.Grammar

/-!
# Proofs/Parser/Progress — reading gets on with the text

    call ──▸ a value, behind a token         round ──▸ once more, behind a token
                                               └────▸ out of the loop

Whatever the tokens are, a call that answers has taken one and a loop that goes on has taken one in
the round before, and none is given back.  So fuel for every token never runs out, and the calls in
the run of a text are linear in its tokens.
-/

namespace Ascription

namespace Parser

variable {α β : Type} {Q : α → Prop} {R : β → Prop} {s : ParserState}

/-! ## Moving on -/

/-- **A parser that gives no token back**, and takes one where its value has the property. -/
def Moves (Q : α → Prop) (p : Parser α) : Prop :=
  ∀ s a s', p s = .done a s' →
    s'.tokens <:+ s.tokens ∧ (Q a → s'.tokens.length < s.tokens.length)

/-- **A parser that takes a token** whenever it answers. -/
abbrev Advances (p : Parser α) : Prop := Moves (fun _ => True) p

/-- What takes a token before it has spent its credits has more of them in the end. -/
theorem Traced.Spends.moves {c : Nat} {Q : α → Nat} {p : Traced α} {q : Parser α}
    (h : Traced.Spends c Q p q) : Moves (fun a => c < Q a) q := by
  intro s a s' hdone
  obtain ⟨hreply, hdescends, hcredits⟩ := h s
  rw [hreply, hdone] at hdescends hcredits
  simp only [Reply.rest, Reply.left] at hcredits
  exact ⟨hdescends.suffix, fun hc => by omega⟩

theorem Traced.Spends.advances {c : Nat} {Q : α → Nat} {p : Traced α} {q : Parser α}
    (h : Traced.Spends c Q p q) (hQ : ∀ a, c < Q a) : Advances q := fun s a s' hdone =>
  (h.moves s a s' hdone).imp_right fun htakes _ => htakes (hQ a)

namespace Moves

variable {p : Parser α} {f : α → Parser β}

theorem pure {a : α} (h : ¬ Q a) : Moves Q (pure a) := by
  rintro s _ _ ⟨⟩
  exact ⟨List.suffix_refl _, fun hQ => absurd hQ h⟩

/-- What goes on has to take the token itself… -/
theorem bind (hp : Moves Q p) (hf : ∀ a, Moves R (f a)) : Moves R (p >>= f) := by
  intro s b s' h
  obtain ⟨a, s₁, ha, hb⟩ := bind_eq_done.mp h
  obtain ⟨hsuffix, -⟩ := hp s a s₁ ha
  obtain ⟨hsuffix', htakes⟩ := hf a s₁ b s' hb
  exact ⟨hsuffix'.trans hsuffix, fun hR => Nat.lt_of_lt_of_le (htakes hR) hsuffix.length_le⟩

/-- …unless one was taken before. -/
theorem behind (hp : Advances p) (hf : ∀ a, Moves (fun _ => False) (f a)) : Moves R (p >>= f) := by
  intro s b s' h
  obtain ⟨a, s₁, ha, hb⟩ := bind_eq_done.mp h
  obtain ⟨hsuffix, htakes⟩ := hp s a s₁ ha
  obtain ⟨hsuffix', -⟩ := hf a s₁ b s' hb
  exact ⟨hsuffix'.trans hsuffix, fun _ => Nat.lt_of_le_of_lt hsuffix'.length_le (htakes trivial)⟩

end Moves

/-! ## Loops -/

instance : LawfulMonad Parser :=
  have id_map : ∀ {α : Type} (p : Parser α), id <$> p = p := by
    intro α p
    funext s
    simp only [Functor.map]
    cases p s <;> rfl
  have bind_assoc : ∀ {α β γ : Type} (p : Parser α) (f : α → Parser β) (g : β → Parser γ),
      p >>= f >>= g = p >>= fun a => f a >>= g := by
    intro α β γ p f g
    funext s
    simp only [Bind.bind]
    cases p s <;> rfl
  LawfulMonad.mk' Parser id_map (fun _ _ => rfl) bind_assoc

/-- **A loop of rounds**: a round goes on, behind a token it has taken, or leaves the loop with a
value. -/
structure Loops (round : α → Parser (α ⊕ β)) (loop : Nat → α → Parser β) : Prop where
  unrolls : ∀ fuel a, loop (fuel + 1) a = round a >>= Sum.elim (loop fuel) pure
  advances : ∀ a, Moves (fun next => next.isLeft) (round a)

/-- A round of a list: its closing mark, or an item and what is behind it. -/
def itemsRound (item : List α → Parser α) (close : Punct) (xs : List α) :
    Parser (List α ⊕ List α) := do
  if ← looksAt close then
    let _ ← expect close
    return .inr xs
  else
    let x ← item xs
    if ← accept .comma then return .inl (xs ++ [x])
    else
      let _ ← expect close
      return .inr (xs ++ [x])

theorem itemsRound_moves {item : List α → Parser α} (h : ∀ xs, Advances (item xs)) {close : Punct}
    {xs : List α} : Moves (fun next => next.isLeft) (itemsRound item close xs) := by
  refine .bind (Traced.Spends.looksAt (c := 0)).moves fun closed => ?_
  cases closed with
  | true => exact .bind (Traced.Spends.expect (c := 0)).moves fun _ => .pure Bool.false_ne_true
  | false =>
    refine .behind (h xs) fun x => .bind (Traced.Spends.accept (c := 0)).moves fun comma => ?_
    cases comma with
    | true => exact .pure not_false
    | false => exact .bind (Traced.Spends.expect (c := 0)).moves fun _ => .pure not_false

theorem itemsFrom_loops {item : List α → Parser α} (h : ∀ xs, Advances (item xs)) {close : Punct} :
    Loops (itemsRound item close) (itemsFrom item close) where
  advances _ := itemsRound_moves h
  unrolls fuel xs := by
    rw [itemsFrom, itemsRound, bind_assoc]
    refine bind_congr fun closed => ?_
    cases closed with
    | true => simp only [if_true, bind_assoc, pure_bind, Sum.elim_inr]
    | false =>
      simp only [Bool.false_eq_true, if_false, bind_assoc]
      refine bind_congr fun x => bind_congr fun comma => ?_
      cases comma with
      | true => rfl
      | false => simp only [Bool.false_eq_true, if_false, bind_assoc, pure_bind, Sum.elim_inr]

/-- A round of steps. -/
def stepsRound (registry : Registry) (expr : Parser Expr) (e : Expr) : Parser (Expr ⊕ Expr) := do
  match ← peek with
  | some (.punct .dot) => return .inl (← member registry expr e)
  | some (.punct .leftBracket) => return .inl (← offset expr e)
  | _ => return .inr e

/-- A round of operators: the next one with its operand, or none. -/
def operatorsRound (next : Parser Expr) (left : Expr) : Parser (Expr ⊕ Expr) := do
  match operator? (← peek) with
  | none => return .inr left
  | some op =>
    let _ ← advance
    let right ← next
    return .inl (← join op left right)

section Expressions

variable {registry : Registry} {expr : Traced Expr} {expr' : Parser Expr}

theorem stepsRound_moves (h : Traced.Part expr expr') {e : Expr} :
    Moves (fun next => next.isLeft) (stepsRound registry expr' e) := by
  have hmember : Advances (member registry expr' e) :=
    (Traced.member_spends h).advances fun _ => by decide
  have hoffset : Advances (offset expr' e) := (Traced.offset_spends h).advances fun _ => by decide
  refine .bind (Traced.Spends.peek (c := 0)).moves fun next => ?_
  split
  · exact .behind hmember fun _ => .pure not_false
  · exact .behind hoffset fun _ => .pure not_false
  · exact .pure Bool.false_ne_true

theorem stepsFrom_loops (h : Traced.Part expr expr') :
    Loops (stepsRound registry expr') (stepsFrom registry expr') where
  advances _ := stepsRound_moves h
  unrolls fuel e := by
    rw [stepsFrom, stepsRound, bind_assoc]
    refine bind_congr fun next => ?_
    rcases next with _ | k
    · rfl
    cases k with
    | punct p =>
      cases p with
      | dot | leftBracket => simp only [bind_assoc, pure_bind, Sum.elim_inl]
      | _ => rfl
    | _ => rfl

theorem operatorsRound_moves {next : Parser Expr} (h : Advances next) {left : Expr} :
    Moves (fun next => next.isLeft) (operatorsRound next left) := by
  have hadvance : Advances advance := (Traced.Spends.advance (c := 0)).advances fun _ => by decide
  refine .bind (Traced.Spends.peek (c := 0)).moves fun next => ?_
  cases operator? next with
  | none => exact .pure Bool.false_ne_true
  | some op =>
    exact .behind hadvance fun _ => .bind h fun _ =>
      .bind (Traced.Spends.join (c := 0)).moves fun _ => .pure not_false

theorem operatorsFrom_loops {next : Parser Expr} (h : Advances next) :
    Loops (operatorsRound next) (operatorsFrom next) where
  advances _ := operatorsRound_moves h
  unrolls fuel left := by
    rw [operatorsFrom, operatorsRound, bind_assoc]
    refine bind_congr fun next => ?_
    cases operator? next with
    | none => rfl
    | some op => simp only [bind_assoc, pure_bind, Sum.elim_inl]

/-- **A round without a left operand**: a declaration, and still none, or a first operand. -/
def leadRound (registry : Registry) (expr : Parser Expr) : Parser (Option Expr) := do
  if ← looksAtDeclaration then
    declaration registry
    return none
  else return some (← operand registry expr)

theorem exprStep_unrolls : exprStep registry expr' = leadRound registry expr' >>= fun left =>
    left.elim expr' (operators (operand registry expr')) := by
  rw [exprStep, leadRound, bind_assoc]
  refine bind_congr fun declared => ?_
  cases declared with
  | true => simp only [if_true, bind_assoc, pure_bind, Option.elim_none]
  | false => simp only [Bool.false_eq_true, if_false, bind_assoc, pure_bind, Option.elim_some]

end Expressions

/-! ## Fuel -/

/-- A text may be blamed for anything. -/
def Blame.anything : Blame := ⟨fun _ => True, fun _ => True, fun _ _ => trivial, fun _ _ => trivial⟩

/-- What takes tokens from fewer than `n` does not run out of fuel there.  A state without tokens is
seen apart, as a failure of the lexer may be left in it. -/
theorem Takes.ne_exhausted {n : Nat} {p : Parser α} (h : Takes Blame.anything n Q p)
    (hnil : ∀ failure previous declarations, p ⟨[], failure, previous, declarations⟩ ≠ .exhausted)
    (hn : s.tokens.length < n) : p s ≠ .exhausted := by
  obtain ⟨tokens, failure, previous, declarations⟩ := s
  cases tokens with
  | nil => exact hnil failure previous declarations
  | cons t ts =>
    have hstands : ParserState.Stands Blame.anything ⟨t :: ts, failure, previous, declarations⟩ :=
      ⟨fun hnil => absurd hnil (List.cons_ne_nil t ts), fun _ _ => trivial, fun _ _ => trivial,
        fun _ _ _ => trivial⟩
    have hmeets := h _ hstands hn
    intro hexhausted
    rw [hexhausted] at hmeets
    cases hmeets

theorem exprFrom_ne_exhausted {registry : Registry} {fuel : Nat} (h : s.tokens.length < fuel) :
    exprFrom registry fuel s ≠ .exhausted := by
  obtain ⟨fuel, rfl⟩ := Nat.exists_eq_add_one_of_ne_zero (Nat.ne_zero_of_lt h)
  exact exprFrom_takes.ne_exhausted (fun _ _ _ h => by cases h) h

theorem typeFrom_ne_exhausted {fuel : Nat} (h : s.tokens.length < fuel) :
    typeFrom fuel s ≠ .exhausted := by
  obtain ⟨fuel, rfl⟩ := Nat.exists_eq_add_one_of_ne_zero (Nat.ne_zero_of_lt h)
  exact typeFrom_takes.ne_exhausted (fun _ _ _ h => by cases h) h

/-! ## The whole grammar -/

section Grammar

variable {registry : Registry} {fuel : Nat}

theorem exprFrom_advances : Advances (exprFrom registry fuel) :=
  Traced.exprFrom_spends.advances fun _ => by decide

theorem typeFrom_advances : Advances (typeFrom fuel) :=
  Traced.typeFrom_spends.advances fun _ => by decide

theorem declaration_advances : Advances (declaration registry) :=
  Traced.declaration_spends.advances fun _ => by decide

theorem operand_advances : Advances (operand registry (exprFrom registry fuel)) :=
  (Traced.operand_spends Traced.exprFrom_spends).advances fun _ => by decide

theorem primary_advances : Advances (primary registry (exprFrom registry fuel)) :=
  (Traced.primary_spends Traced.exprFrom_spends).advances fun _ => by decide

theorem fieldLiteral_advances {before : List (String × Expr)} :
    Advances (fieldLiteral (exprFrom registry fuel) before) :=
  (Traced.fieldLiteral_spends Traced.exprFrom_spends).advances fun _ => by decide

theorem typeField_advances : Advances (typeField (typeFrom fuel)) :=
  (Traced.typeField_spends Traced.typeFrom_spends).advances fun _ => by decide

theorem expectName_advances : Advances expectName :=
  (Traced.Spends.expectName (c := 0)).advances fun _ => by decide

theorem leadRound_advances : Advances (leadRound registry (exprFrom registry fuel)) := by
  refine .bind (Traced.Spends.looksAtDeclaration (c := 0)).moves fun declared => ?_
  cases declared with
  | true => exact .behind declaration_advances fun _ => .pure not_false
  | false => exact .behind operand_advances fun _ => .pure not_false

end Grammar

/-- **A run on record**: the parser and the one that keeps a record reply alike, no call gives a
token back, and there are no more than `k` calls for each token, and `c` more. -/
structure OnRecord (k c : Nat) (start : List Token) (reply : Reply α)
    (run : Reply α × List (List Token)) : Prop where
  same : run.1 = reply
  descends : Descends start run.2 reply.rest
  calls : run.2.length ≤ k * start.length + c

theorem Traced.Spends.onRecord {c : Nat} {Q : α → Nat} {p : Traced α} {q : Parser α}
    (h : Traced.Spends c Q p q) : OnRecord 40 c s.tokens (q s) (p s) := by
  obtain ⟨hsame, hdescends, hcredits⟩ := h s
  exact ⟨hsame, hsame ▸ hdescends, by omega⟩

/-- **Reading makes progress**, on every list of tokens.  Each expression, operand, primary,
declaration and type that is read has taken a token, however deep it lies; a round of a loop that
does not leave it has taken one, be it a round of declarations and operators, of steps, or of a
list; none is given back by any call.  So the fuel of one for each token and one more never runs
out, and the calls, rounds and looks of a run are at most 40 for each token and 9 more. -/
theorem reading_progresses (registry : Registry) :
    (∀ fuel, Advances (exprFrom registry fuel) ∧
      Advances (operand registry (exprFrom registry fuel)) ∧
      Advances (primary registry (exprFrom registry fuel)) ∧ Advances (typeFrom fuel)) ∧
    Advances (declaration registry) ∧
    (∀ fuel, let expr := exprFrom registry fuel
      (exprFrom registry (fuel + 1) = leadRound registry expr >>= fun left =>
        left.elim expr (operators (operand registry expr))) ∧
      Advances (leadRound registry expr) ∧
      Loops (operatorsRound (operand registry expr)) (operatorsFrom (operand registry expr)) ∧
      Loops (stepsRound registry expr) (stepsFrom registry expr) ∧
      ∀ close,
        Loops (itemsRound (fun _ => expr) close) (itemsFrom (fun _ => expr) close) ∧
        Loops (itemsRound (fieldLiteral expr) close) (itemsFrom (fieldLiteral expr) close) ∧
        Loops (itemsRound (fun _ => expectName) close) (itemsFrom (fun _ => expectName) close) ∧
        Loops (itemsRound (fun _ => typeFrom fuel) close)
          (itemsFrom (fun _ => typeFrom fuel) close) ∧
        Loops (itemsRound (fun _ => typeField (typeFrom fuel)) close)
          (itemsFrom (fun _ => typeField (typeFrom fuel)) close)) ∧
    (∀ s more, exprFrom registry (s.tokens.length + 1 + more) s ≠ .exhausted ∧
      typeFrom (s.tokens.length + 1 + more) s ≠ .exhausted) ∧
    ∀ s, OnRecord 40 9 s.tokens (expr registry s) (Traced.expr registry s) ∧
      OnRecord 40 5 s.tokens (type registry s) (Traced.type registry s) := by
  refine ⟨fun fuel => ?calls, declaration_advances, fun fuel => ?loops, fun s more => ?fuel,
    fun s => ?run⟩
  case calls => exact ⟨exprFrom_advances, operand_advances, primary_advances, typeFrom_advances⟩
  case loops =>
    exact ⟨exprStep_unrolls, leadRound_advances, operatorsFrom_loops operand_advances,
      stepsFrom_loops Traced.exprFrom_spends, fun close =>
        ⟨itemsFrom_loops fun _ => exprFrom_advances,
          itemsFrom_loops fun _ => fieldLiteral_advances,
          itemsFrom_loops fun _ => expectName_advances,
          itemsFrom_loops fun _ => typeFrom_advances,
          itemsFrom_loops fun _ => typeField_advances⟩⟩
  case fuel =>
    have hfuel : s.tokens.length < s.tokens.length + 1 + more := by omega
    exact ⟨exprFrom_ne_exhausted hfuel, typeFrom_ne_exhausted hfuel⟩
  case run =>
    have hexpr : Traced.Part (Traced.expr registry) (expr registry) := fun s =>
      Traced.exprFrom_spends s
    exact ⟨hexpr.onRecord, Traced.type_spends.onRecord⟩

/-- The tokens to come at each call, where `1 - 2` is read. -/
example (span : Span) : (Traced.expr Registry.initial
    ⟨[⟨.int 1, span⟩, ⟨.punct .minus, span⟩, ⟨.int 2, span⟩], none, span, []⟩).2.map List.length =
      [3, 3, 3, 3, 3, 3, 3, 3, 3, 2, 2, 2, 2, 2, 2, 2, 1, 1, 1, 1, 1, 1, 1, 0, 0, 0, 0, 0, 0] := rfl

end Parser

end Ascription
