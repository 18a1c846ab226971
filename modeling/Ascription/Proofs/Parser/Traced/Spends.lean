import Ascription.Proofs.Parser.Rules
import Ascription.Proofs.Parser.Traced

/-!
# Proofs/Parser/Traced/Spends — what a run may cost

    40 · tokens to come + c   ──p──▸   calls + 40 · tokens left + Q

Each call costs a credit, and each token that is taken brings 40 of them.  So credits bound the
calls of a run, and a parser that leaves more of them than it was given has taken a token.  A parser
**spends** within credits when, wherever it starts, its run can pay for its calls, gives no token
back and replies what the parser that keeps no record replies.
-/

namespace Ascription

namespace Reply

variable {α : Type}

/-- The tokens a reply leaves to come. -/
def rest : Reply α → List Token
  | done _ s => s.tokens
  | _ => []

/-- The credits a reply leaves, which may depend on its value. -/
def left (Q : α → Nat) : Reply α → Nat
  | done a _ => Q a
  | _ => 0

end Reply

namespace Parser

/-! ## Records -/

/-- **A record in which no token is given back**: from call to call the tokens to come are a suffix
of those before, from `start` on and down to `rest`. -/
inductive Descends : List Token → List (List Token) → List Token → Prop
  | nil {start rest} (h : rest <:+ start) : Descends start [] rest
  | cons {start next t rest} (h : next <:+ start) (tail : Descends next t rest) :
      Descends start (next :: t) rest

namespace Descends

variable {start middle rest : List Token} {t t' : List (List Token)}

theorem suffix (h : Descends start t rest) : rest <:+ start := by
  induction h with
  | nil h => exact h
  | cons h _ ih => exact ih.trans h

theorem mono (h : Descends middle t rest) (hs : middle <:+ start) : Descends start t rest := by
  cases h with
  | nil h => exact .nil (h.trans hs)
  | cons h tail => exact .cons (h.trans hs) tail

theorem append (h : Descends start t middle) (h' : Descends middle t' rest) :
    Descends start (t ++ t') rest := by
  induction h with
  | nil h => exact h'.mono h
  | cons h _ ih => exact .cons h (ih h')

end Descends

/-! ## Credits -/

/-- **A run that is paid for**, from the tokens `start`, of which each brings 40 credits, and `c`
more: no token is given back, and what is left of the credits is `Q`. -/
structure Paid {α : Type} (start : List Token) (c : Nat) (Q : α → Nat) (r : Reply α)
    (t : List (List Token)) : Prop where
  descends : Descends start t r.rest
  credits : t.length + 40 * r.rest.length + r.left Q ≤ 40 * start.length + c

namespace Traced

variable {α β : Type} {s : ParserState} {c d : Nat} {Q : α → Nat} {R : β → Nat}
  {p : Traced α} {q : Parser α} {f : α → Traced β} {g : α → Parser β}

/-- A run of `p` from a state that replies as `q` does and is paid for. -/
def SpendsAt (s : ParserState) (c : Nat) (Q : α → Nat) (p : Traced α) (q : Parser α) : Prop :=
  (p s).1 = q s ∧ Paid s.tokens c Q (p s).1 (p s).2

/-- **A parser that spends no more than `c` credits** and what tokens bring, and leaves `Q`. -/
def Spends (c : Nat) (Q : α → Nat) (p : Traced α) (q : Parser α) : Prop :=
  ∀ s, SpendsAt s c Q p q

/-- What goes on from the state in between has the credits that are left there. -/
theorem SpendsAt.bind (hp : SpendsAt s c Q p q)
    (hf : ∀ a s', s'.tokens <:+ s.tokens →
      40 * s'.tokens.length + Q a ≤ 40 * s.tokens.length + c →
      SpendsAt s' (Q a) R (f a) (g a)) : SpendsAt s c R (p >>= f) (q >>= g) := by
  obtain ⟨hreply, hdescends, hcredits⟩ := hp
  simp only [SpendsAt, Bind.bind, ← hreply]
  generalize p s = run at hdescends hcredits ⊢
  obtain ⟨r, t⟩ := run
  cases r with
  | done a s' =>
    simp only [Reply.rest, Reply.left] at hdescends hcredits
    obtain ⟨hreply', hdescends', hcredits'⟩ := hf a s' hdescends.suffix (by omega)
    refine ⟨hreply', hdescends.append hdescends', ?_⟩
    change (t ++ (f a s').2).length + 40 * (f a s').1.rest.length + (f a s').1.left R ≤ _
    rw [List.length_append]
    omega
  | failed e => exact ⟨rfl, hdescends, hcredits⟩
  | exhausted => exact ⟨rfl, hdescends, hcredits⟩

namespace Spends

theorem bind (hp : Spends c Q p q) (hf : ∀ a, Spends (Q a) R (f a) (g a)) :
    Spends c R (p >>= f) (q >>= g) := fun s => (hp s).bind fun a s' _ _ => hf a s'

theorem pure {a : α} (h : Q a ≤ c) : Spends c Q (pure a) (pure a) := fun s =>
  ⟨rfl, .nil (List.suffix_refl _), by simp [Reply.rest, Reply.left, Pure.pure]; omega⟩

/-- Credits that are not needed are left over. -/
theorem frame (h : Spends c Q p q) : Spends (d + c) (fun a => Q a + d) p q := by
  intro s
  obtain ⟨hreply, hdescends, hcredits⟩ := h s
  refine ⟨hreply, hdescends, ?_⟩
  have hleft : (p s).1.left (fun a => Q a + d) ≤ (p s).1.left Q + d := by
    cases (p s).1 with
    | done a => exact Nat.le_refl _
    | failed | exhausted => exact Nat.zero_le _
  omega

/-- What is left over may be given up. -/
theorem covers {R : α → Nat} (h : Spends c Q p q) (hc : c ≤ d) (hR : ∀ a, R a + c ≤ Q a + d) :
    Spends d R p q := by
  intro s
  obtain ⟨hreply, hdescends, hcredits⟩ := h s
  refine ⟨hreply, hdescends, ?_⟩
  have hleft : (p s).1.left R + c ≤ (p s).1.left Q + d := by
    cases (p s).1 with
    | done a => exact hR a
    | failed | exhausted => exact Nat.add_le_add_left hc 0
  omega

theorem more (h : Spends c Q p q) (hc : c ≤ d) : Spends d Q p q :=
  h.covers hc fun _ => Nat.add_le_add_left hc _

theorem map {h : α → β} (hp : Spends c (fun a => R (h a)) p q) : Spends c R (h <$> p) (h <$> q) :=
  hp.bind fun _ => .pure (Nat.le_refl _)

theorem call (h : Spends c Q p q) : Spends (c + 1) Q (call p) q := by
  intro s
  obtain ⟨hreply, hdescends, hcredits⟩ := h s
  refine ⟨hreply, .cons (List.suffix_refl _) hdescends, ?_⟩
  simp only [Traced.call, List.length_cons]
  omega

/-! ## What is one entry -/

/-- **One entry**, for a parser that gives nothing back and takes enough to leave `Q`. -/
theorem lift (h : ∀ s a s', q s = .done a s' →
    s'.tokens <:+ s.tokens ∧ 40 * s'.tokens.length + Q a ≤ 40 * s.tokens.length + c) :
    Spends (c + 1) Q (liftM q) q := by
  intro s
  have hpaid : Paid s.tokens (c + 1) Q (q s) [s.tokens] := by
    cases hq : q s with
    | done a s' =>
      obtain ⟨hsuffix, hcredits⟩ := h s a s' hq
      refine ⟨.cons (List.suffix_refl _) (.nil hsuffix), ?_⟩
      simp only [Reply.rest, Reply.left, List.length_singleton]
      omega
    | failed | exhausted =>
      refine ⟨.cons (List.suffix_refl _) (.nil List.nil_suffix), ?_⟩
      simp only [Reply.rest, Reply.left, List.length_singleton, List.length_nil]
      omega
  exact ⟨rfl, hpaid⟩

/-- What takes no token. -/
theorem still (h : ∀ s a s', q s = .done a s' → s'.tokens = s.tokens) :
    Spends (c + 1) (fun _ => c) (liftM q) q := by
  refine lift fun s a s' hq => ?_
  rw [h s a s' hq]
  exact ⟨List.suffix_refl _, Nat.le_refl _⟩

/-- What takes one token. -/
theorem taking (h : ∀ s a s', q s = .done a s' → ∃ t, s.tokens = t :: s'.tokens) :
    Spends (c + 1) (fun _ => c + 40) (liftM q) q := by
  refine lift fun s a s' hq => ?_
  obtain ⟨t, ht⟩ := h s a s' hq
  rw [ht, List.length_cons]
  exact ⟨List.suffix_cons t _, by omega⟩

/-- What only refuses leaves as much as is asked for. -/
theorem refusing (h : ∀ s a s', ¬ q s = .done a s') : Spends (c + 1) Q (liftM q) q :=
  lift fun s a s' hq => absurd hq (h s a s')

theorem exhausted : Spends (c + 1) Q (liftM Parser.exhausted) Parser.exhausted :=
  refusing fun _ _ _ => exhausted_ne_done

theorem expected {what : Expectation} :
    Spends (c + 1) Q (liftM (Parser.expected what)) (Parser.expected what) :=
  refusing fun _ _ _ => expected_ne_done

theorem fail {e : ParseError} : Spends (c + 1) Q (liftM (Parser.fail e)) (Parser.fail e) :=
  refusing fun _ _ _ => fail_ne_done

theorem peek : Spends (c + 1) (fun _ => c) (liftM Parser.peek) Parser.peek :=
  still fun _ _ _ h => congrArg _ (peek_eq_done.mp h).2.symm

theorem looksAt {p : Punct} : Spends (c + 1) (fun _ => c) (liftM (looksAt p)) (looksAt p) :=
  still fun _ _ _ h => congrArg _ (looksAt_eq_done.mp h).2.symm

theorem previousSpan : Spends (c + 1) (fun _ => c) (liftM previousSpan) previousSpan :=
  still fun _ _ _ h => congrArg _ (previousSpan_eq_done.mp h).2.symm

theorem here : Spends (c + 1) (fun _ => c) (liftM here) here := still fun _ _ _ h => by
  cases h
  rfl

theorem state : Spends (c + 1) (fun _ => c) (liftM state) state :=
  still fun _ _ _ h => congrArg _ (state_eq_done.mp h).2.symm

theorem judge {verdict : Except TypeError α} :
    Spends (c + 1) (fun _ => c) (liftM (judge verdict)) (judge verdict) :=
  still fun _ _ _ h => congrArg _ (judge_eq_done.mp h).2.symm

theorem typed {e : Expr} : Spends (c + 1) (fun _ => c) (liftM (typed e)) (typed e) :=
  still fun _ _ _ h => congrArg _ (typed_eq_done.mp h).2.symm

theorem join {op : BinaryOp} {left right : Expr} :
    Spends (c + 1) (fun _ => c) (liftM (join op left right)) (join op left right) :=
  still fun _ _ _ h => congrArg _ (join_eq_done.mp h).2.2.symm

theorem looksAtDeclaration :
    Spends (c + 1) (fun _ => c) (liftM looksAtDeclaration) looksAtDeclaration :=
  still fun _ _ _ h => congrArg _ (looksAtDeclaration_eq_done.mp h).2.symm

theorem advance : Spends (c + 1) (fun _ => c + 40) (liftM advance) advance :=
  taking fun _ t _ h => by
    obtain ⟨_, _, _, _, rfl, rfl, -⟩ := advance_eq_done.mp h
    exact ⟨t, rfl⟩

theorem expect {p : Punct} : Spends (c + 1) (fun _ => c + 40) (liftM (expect p)) (expect p) :=
  taking fun _ _ _ h => by
    obtain ⟨_, _, _, _, rfl, rfl, -⟩ := expect_eq_done.mp h
    exact ⟨_, rfl⟩

theorem expectName : Spends (c + 1) (fun _ => c + 40) (liftM expectName) expectName :=
  taking fun _ _ _ h => by
    obtain ⟨_, _, _, _, rfl, rfl, -⟩ := expectName_eq_done.mp h
    exact ⟨_, rfl⟩

/-- A mark that may be missing brings credits where it is not. -/
theorem accept {p : Punct} : Spends (c + 1) (fun taken => bif taken then c + 40 else c)
    (liftM (accept p)) (accept p) := by
  refine lift fun s taken s' h => ?_
  obtain ⟨rfl, span, h⟩ | ⟨rfl, -, rfl⟩ := accept_eq_done.mp h
  · obtain ⟨_, _, _, _, rfl, rfl, -⟩ := expect_eq_done.mp h
    refine ⟨List.suffix_cons _ _, ?_⟩
    simp only [List.length_cons, cond_true]
    omega
  · exact ⟨List.suffix_refl _, Nat.le_refl _⟩

end Spends

end Traced

end Parser

end Ascription
